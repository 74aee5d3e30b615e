/-
What `crt_progress` returns (`cart/crt_context.c`).

The call is compared with the first verdict among its events: an error of `crt_hg_progress`, a
value of the condition callback other than 0, and the end of the time.  The loop that waits for the
callback drops the error of `crt_hg_progress` and returns 0.

Main results: `progress_result_iff`, `progress_drops_error`.
-/
import Cart.Basic

namespace Cart

/-- The first of `n` values from the `k`-th on. -/
def firstFrom {α : Type*} (f : ℕ → Option α) : ℕ → ℕ → Option α
  | 0, _ => none
  | n + 1, k => (f k).or (firstFrom f n (k + 1))

section

variable {α : Type*} {f g : ℕ → Option α} {n k : ℕ}

theorem firstFrom_succ : firstFrom f (n + 1) k = (firstFrom f n k).or (f (k + n)) := by
  induction n generalizing k with
  | zero => simp [firstFrom]
  | succ n ih => rw [firstFrom, ih, firstFrom, Option.or_assoc, Nat.add_right_comm, k.add_assoc]

theorem firstFrom_eq_none : firstFrom f n k = none ↔ ∀ j < n, f (k + j) = none := by
  induction n with
  | zero => simp [firstFrom]
  | succ n ih => rw [firstFrom_succ, Option.or_eq_none_iff, ih, Nat.forall_lt_succ_right]

theorem firstFrom_eq_iff : (∀ n, firstFrom f n k = firstFrom g n k) ↔
    ∀ n, firstFrom g n k = none → f (k + n) = g (k + n) := by
  constructor
  · intro h n hnone
    have hnext := h (n + 1)
    rwa [firstFrom_succ, firstFrom_succ, h n, hnone] at hnext
  · intro h n
    induction n with
    | zero => rfl
    | succ n ih =>
      rw [firstFrom_succ, firstFrom_succ, ih]
      cases hg : firstFrom g n k with
      | some a => rfl
      | none => rw [h n hg]

end

/-- A call of `crt_progress`: its arguments and what the calls inside return, by their number.
Time is in microseconds. -/
structure Progress where
  ctxNull : Bool
  timeout : ℤ
  condCb : Option (ℕ → ℤ)
  /-- what `crt_hg_progress` returns, for the time it is given -/
  hgProgress : ℕ → ℤ → ℤ
  /-- what `d_timeus_secdiff(0)` returns -/
  clock : ℕ → ℕ

namespace Progress

variable (p : Progress)

/-- `end`, in 64 bits. -/
def endTime : ℕ := u64 (p.clock 0 + p.timeout.toNat)

/-- The loop probes at least every second. -/
def probe (time : ℤ) : ℤ := if 1000 * 1000 < time then 1000 * 1000 else time

/-- `hg_timeout` in a round of the loop, which depends on the reading of the round before. -/
def hgTimeout : ℕ → ℤ
  | 0 => if p.timeout < 0 then 1000 else probe p.timeout
  | k + 1 => if 0 < p.timeout then probe (p.endTime - p.clock (k + 1)) else 1000

/-- What the callback returns, 0 if there is none. -/
def condition (k : ℕ) : ℤ := p.condCb.elim 0 fun condCb => condCb k

/-- An error of `crt_hg_progress`. -/
def Fails (rc : ℤ) : Prop := rc ≠ 0 ∧ rc ≠ -derTimedout
deriving Decidable

/-- One round of the waiting loop, `none` if there is another one. -/
def round (k : ℕ) : Option ℤ :=
  if Fails (p.hgProgress k (p.hgTimeout k)) then some 0
  else if 0 < p.condition (k + 1) then some 0
  else if p.condition (k + 1) < 0 then some (p.condition (k + 1))
  else if 0 < p.timeout ∧ p.endTime ≤ p.clock (k + 1) then some (-derTimedout)
  else none

/-- `none` if the waiting loop is not left within `fuel` rounds. -/
def crtProgress (fuel : ℕ) : Option ℤ :=
  if p.ctxNull then some (-derInval)
  else if 0 < p.condition 0 then some 0
  else if p.condition 0 < 0 then some (p.condition 0)
  else if p.timeout = 0 ∨ p.condCb.isNone then
    let rc := p.hgProgress 0 p.timeout
    if Fails rc then some rc
    else if 0 < p.condition 1 then some 0
    else if p.condition 1 < 0 then some (p.condition 1)
    else some rc
  else firstFrom p.round fuel 0

/-! ### The first verdict -/

/-- A call with a callback and a time other than 0. -/
def Waits : Prop := ¬ (p.timeout = 0 ∨ p.condCb.isNone)
deriving Decidable

/-- What the `k`-th call of `crt_hg_progress` returns. -/
def transport (k : ℕ) : ℤ := p.hgProgress k (if p.Waits then p.hgTimeout k else p.timeout)

/-- The given time has passed at a reading of the clock. -/
def Expired (k : ℕ) : Prop := 0 < p.timeout ∧ p.clock 0 + p.timeout ≤ p.clock k
deriving Decidable

/-- A negative value is returned, and a positive one gives 0. -/
def conditionVerdict (k : ℕ) : Option ℤ :=
  if 0 < p.condition k then some 0 else if p.condition k < 0 then some (p.condition k) else none

/-- The verdict of the `k`-th call of `crt_hg_progress` and of what follows it. -/
def verdict (k : ℕ) : Option ℤ :=
  if Fails (p.transport k) then some (p.transport k)
  else (p.conditionVerdict (k + 1)).or <|
    if p.Waits then if p.Expired (k + 1) then some (-derTimedout) else none
    else some (p.transport k)

/-- Nothing is decided by the `k`-th call of `crt_hg_progress` and by what follows it. -/
def Passes (k : ℕ) : Prop :=
  ¬ Fails (p.transport k) ∧ p.condition (k + 1) = 0 ∧ ¬ p.Expired (k + 1)

/-- The first verdict in the order of the events. -/
def firstVerdict (fuel : ℕ) : Option ℤ :=
  if p.ctxNull then some (-derInval)
  else (p.conditionVerdict 0).or (if p.Waits then firstFrom p.verdict fuel 0 else p.verdict 0)

variable {p}

theorem round_eq_verdict_iff (hwaits : p.Waits) (k : ℕ) : p.round k = p.verdict k ↔
    ¬ Fails (p.transport k) ∧ (p.condition (k + 1) = 0 →
      (0 < p.timeout ∧ p.endTime ≤ p.clock (k + 1) ↔ p.Expired (k + 1))) := by
  simp only [round, verdict, transport, conditionVerdict, if_pos hwaits]
  by_cases hfails : Fails (p.hgProgress k (p.hgTimeout k))
  · rw [if_pos hfails, if_pos hfails]
    exact iff_of_false (fun h => hfails.1 (Option.some.inj h).symm) fun h => h.1 hfails
  · rw [if_neg hfails, if_neg hfails]
    rcases lt_trichotomy (p.condition (k + 1)) 0 with hneg | hzero | hpos
    · simp [hfails, hneg, hneg.ne, not_lt.mpr hneg.le]
    · by_cases hexp : p.Expired (k + 1)
      · simp [hfails, hzero, hexp]
      · simp [hfails, hzero, hexp]
    · simp [hfails, hpos, hpos.ne']

theorem conditionVerdict_eq_none (k : ℕ) : p.conditionVerdict k = none ↔ p.condition k = 0 := by
  rw [conditionVerdict]
  rcases lt_trichotomy (p.condition k) 0 with hneg | hzero | hpos
  · simp [hneg, hneg.ne, not_lt.mpr hneg.le]
  · simp [hzero]
  · simp [hpos, hpos.ne']

theorem verdict_eq_none (hwaits : p.Waits) (k : ℕ) : p.verdict k = none ↔ p.Passes k := by
  rw [verdict, Passes, if_pos hwaits]
  split_ifs with hfails hexp
  · simp [hfails]
  · simp [hexp]
  · simp [hfails, hexp, conditionVerdict_eq_none]

/-- Only the waiting loop can differ. -/
theorem crtProgress_eq_firstVerdict (h : ¬ p.Waits) (fuel : ℕ) :
    p.crtProgress fuel = p.firstVerdict fuel := by
  have hpath : p.timeout = 0 ∨ p.condCb.isNone := not_not.mp h
  simp only [crtProgress, firstVerdict, conditionVerdict, verdict, transport, if_neg h, if_pos hpath]
  split_ifs <;> simp

end Progress

open Progress in
/-- `crt_progress` returns the first verdict exactly if the waiting loop, where nothing was decided
before, comes to no error of `crt_hg_progress`, and to no reading of the clock that is late only
because `end` has wrapped. -/
theorem progress_result_iff (p : Progress) : (∀ fuel, p.crtProgress fuel = p.firstVerdict fuel) ↔
    (p.ctxNull = false → p.condition 0 = 0 → p.Waits → ∀ k, (∀ j < k, p.Passes j) →
      ¬ Fails (p.transport k) ∧ (p.condition (k + 1) = 0 →
        (0 < p.timeout ∧ p.endTime ≤ p.clock (k + 1) ↔ p.Expired (k + 1)))) := by
  by_cases hwaits : p.Waits
  · simp only [crtProgress, firstVerdict, conditionVerdict, if_pos hwaits, if_neg hwaits]
    split_ifs with hnull hpos hneg
    · simp [hnull]
    · simp [hpos.ne']
    · simp [hneg.ne]
    · have hzero : p.condition 0 = 0 := by omega
      simp only [Option.none_or, firstFrom_eq_iff, firstFrom_eq_none, Nat.zero_add,
        verdict_eq_none hwaits, round_eq_verdict_iff hwaits, hzero, hwaits, hnull, forall_const]
  · exact iff_of_true (fun fuel => crtProgress_eq_firstVerdict hwaits fuel)
      fun _ _ hc => absurd hc hwaits

/-- The callback waits, and `crt_hg_progress` fails at once. -/
theorem progress_drops_error :
    let p : Progress := ⟨false, 5, some fun _ => 0, fun _ _ => -derHg, fun _ => 0⟩
    p.crtProgress 1 = some 0 ∧ p.transport 0 = -derHg ∧ p.firstVerdict 1 = some (-derHg) := by
  decide

end Cart
