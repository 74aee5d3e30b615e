/-
When faults are injected (`gurt/fault_inject.c`).

`d_should_fail` counts its calls in `fa_num_hits` and the faults in `fa_num_faults`.  Setting the
attributes of a fault id again sets the second counter but not the first one, so that faults come
at the wrong calls if the old number of calls is not a multiple of the new interval.

Main results: `fault_schedule_iff`, `fault_schedule_shifted`.
-/
import Cart.Basic

namespace Cart

/-- `struct d_fault_attr_t`, as far as `d_should_fail` reads it. -/
structure FaultAttr where
  faProbabilityX : ℕ
  faProbabilityY : ℕ
  faInterval : ℕ
  faMaxFaults : ℕ
  faNumFaults : ℕ
  faNumHits : ℕ

/-- The record of one fault id, if there is one.  `allocated` tells whether there is memory. -/
def dFaultAttrSet (allocated : Bool) (faIn : FaultAttr) (fa : Option FaultAttr) :
    ℤ × Option FaultAttr :=
  if allocated then (0, some { faIn with faNumHits := (fa.map FaultAttr.faNumHits).getD 0 })
  else (-derNomem, fa)

/-- `rand` is what `nrand48` returns.  The number of faults is only compared with a maximum that
it does not pass, so that it need not wrap. -/
def dShouldFail (rand : ℕ) (fa : FaultAttr) : Bool × FaultAttr :=
  if fa.faProbabilityX = 0 then (false, fa)
  else if fa.faMaxFaults ≠ 0 ∧ fa.faMaxFaults ≤ fa.faNumFaults then (false, fa)
  else
    let fa := if 1 < fa.faInterval then { fa with faNumHits := u64 (fa.faNumHits + 1) } else fa
    if 1 < fa.faInterval ∧ fa.faNumHits % fa.faInterval ≠ 0 then (false, fa)
    else if fa.faProbabilityY ≠ 0 ∧ fa.faProbabilityX ≤ rand % fa.faProbabilityY then (false, fa)
    else (true, { fa with faNumFaults := fa.faNumFaults + 1 })

/-- The calls for one fault id. -/
inductive FaultCall where
  | set (allocated : Bool) (faIn : FaultAttr)
  | shouldFail (rand : ℕ)

def FaultCall.apply (fa : Option FaultAttr) : FaultCall → Option FaultAttr
  | .set allocated faIn => (dFaultAttrSet allocated faIn fa).2
  | .shouldFail rand => fa.map fun fa => (dShouldFail rand fa).2

/-- A counter that starts at `h` and the number of the call are multiples of `i` at the same time,
up to the `m`-th time. -/
def InStep (i h m : ℕ) : Prop :=
  ∀ n, (m ≠ 0 → n < m * i) → (i ∣ u64 (h + (n + 1)) ↔ i ∣ n + 1)

theorem inStep_iff {i h m : ℕ} (hi : 1 < i) (hh : h < 2 ^ 64) :
    InStep i h m ↔ i ∣ h ∧ (i ∣ 2 ^ 64 ∨ m ≠ 0 ∧ h + m * i < 2 ^ 64) := by
  constructor
  · intro hs
    have hwrap : i ∣ u64 (h + (2 ^ 64 - h - 1 + 1)) := by
      rw [Nat.sub_add_cancel (by omega), Nat.add_sub_of_le hh.le]
      exact dvd_zero i
    have hdvd : i ∣ h := by
      by_contra hnot
      have hmod := Nat.mod_lt h (Nat.zero_lt_of_lt hi)
      -- the counter comes to a multiple of the interval, or to 0, within one interval
      have hnear (n : ℕ) (hn : n + 1 < i) : ¬ i ∣ u64 (h + (n + 1)) := fun hdvd =>
        Nat.not_dvd_of_pos_of_lt n.succ_pos hn <| (hs n fun hm =>
          (Nat.lt_of_succ_lt hn).trans_le (Nat.le_mul_of_pos_left i (Nat.pos_of_ne_zero hm))).mp hdvd
      have hup : h + (i - h % i - 1 + 1) = i * (h / i + 1) := by
        have := Nat.div_add_mod h i
        rw [mul_add_one]
        omega
      rcases lt_or_ge (h + (i - h % i - 1 + 1)) (2 ^ 64) with hlt | hge
      · exact hnear (i - h % i - 1) (by omega) (by rw [u64_of_lt hlt, hup]; exact dvd_mul_right _ _)
      · exact hnear (2 ^ 64 - h - 1) (by omega) hwrap
    refine ⟨hdvd, or_iff_not_imp_left.mpr fun hpow => ?_⟩
    by_contra hsmall
    have hnext := (hs (2 ^ 64 - h - 1) (by omega)).mp hwrap
    rw [Nat.sub_add_cancel (by omega), Nat.dvd_sub_iff_left hh.le hdvd] at hnext
    exact hpow hnext
  · rintro ⟨hdvd, hpow | ⟨hm, hsmall⟩⟩ n hn
    · rw [u64, Nat.dvd_mod_iff hpow, Nat.dvd_add_right hdvd]
    · have := hn hm
      rw [u64_of_lt (by omega), Nat.dvd_add_right hdvd]

namespace FaultAttr

/-- The record after `n` calls of `d_should_fail`. -/
def after (rand : ℕ → ℕ) (fa : FaultAttr) : ℕ → FaultAttr
  | 0 => fa
  | n + 1 => (dShouldFail (rand n) (after rand fa n)).2

section

variable (rand : ℕ → ℕ) (fa : FaultAttr) (n : ℕ)

/-- What the call after these returns. -/
def fails : Bool := (dShouldFail (rand n) (fa.after rand n)).1

/-- How many of the first `n` calls have returned `true`. -/
def faults (rand : ℕ → ℕ) (fa : FaultAttr) : ℕ → ℕ
  | 0 => 0
  | n + 1 => faults rand fa n + (fa.fails rand n).toNat

/-- There have not been `fa_max_faults` in the first `n` calls. -/
def Open : Prop :=
  fa.faMaxFaults ≠ 0 → fa.faults rand n < fa.faMaxFaults

/-- There is a fault in every call whose number is a multiple of the interval, up to the maximum. -/
def OnSchedule : Prop :=
  ∀ n, fa.fails rand n = true ↔ (fa.faInterval ≤ 1 ∨ fa.faInterval ∣ n + 1) ∧ fa.Open rand n

end

variable {fa : FaultAttr} {rand : ℕ → ℕ} {n : ℕ}

/-- What the calls have done to the record. -/
def Counts (rand : ℕ → ℕ) (fa : FaultAttr) (n : ℕ) : Prop :=
  ∃ hits, fa.after rand n = { fa with faNumHits := hits, faNumFaults := fa.faults rand n } ∧
    (1 < fa.faInterval → fa.Open rand n → u64 hits = u64 (fa.faNumHits + n))

theorem u64_succ_congr {a b : ℕ} (h : u64 a = u64 b) : u64 (a + 1) = u64 (b + 1) := by
  simp only [u64] at *
  omega

theorem Open.of_succ (h : fa.Open rand (n + 1)) : fa.Open rand n := fun hmax =>
  (Nat.le_add_right _ _).trans_lt (h hmax)

section

variable (hprob : fa.faProbabilityY ≤ fa.faProbabilityX) (hpos : 0 < fa.faProbabilityY)

include hprob hpos

theorem Counts.succ (h : Counts rand fa n) : Counts rand fa (n + 1) ∧
    (fa.fails rand n = true ↔ (fa.faInterval ≤ 1 ∨ fa.faInterval ∣ u64 (fa.faNumHits + (n + 1))) ∧
      fa.Open rand n) := by
  obtain ⟨hits, heq, hhits⟩ := h
  have hx : fa.faProbabilityX ≠ 0 := by omega
  have hrand := not_le.mpr ((Nat.mod_lt (rand n) hpos).trans_le hprob)
  -- it is enough to know what the call returns and how it counts
  have hcount (b : Bool) (hits' : ℕ) (hcall : dShouldFail (rand n) (fa.after rand n) =
      (b, { fa with faNumHits := hits', faNumFaults := fa.faults rand n + b.toNat }))
      (hhits' : 1 < fa.faInterval → fa.Open rand n → u64 hits' = u64 (fa.faNumHits + (n + 1))) :
      Counts rand fa (n + 1) ∧ fa.fails rand n = b := by
    have hfails : fa.fails rand n = b := congrArg Prod.fst hcall
    refine ⟨⟨hits', ?_, fun hi hopen => hhits' hi hopen.of_succ⟩, hfails⟩
    rw [after, hcall, faults, hfails]
  rw [heq] at hcount
  by_cases hopen : fa.Open rand n
  · have hmax : ¬ (fa.faMaxFaults ≠ 0 ∧ fa.faMaxFaults ≤ fa.faults rand n) := fun hfull =>
      not_le.mpr (hopen hfull.1) hfull.2
    by_cases hi : 1 < fa.faInterval
    · have hnext : u64 (hits + 1) = u64 (fa.faNumHits + (n + 1)) := u64_succ_congr (hhits hi hopen)
      have hwrap : u64 (u64 (hits + 1)) = u64 (hits + 1) := Nat.mod_mod _ _
      by_cases hdvd : fa.faInterval ∣ u64 (hits + 1)
      · obtain ⟨hcounts, hfails⟩ := hcount true (u64 (hits + 1))
          (by simp [dShouldFail, hx, hmax, hi, Nat.mod_eq_zero_of_dvd hdvd, hrand])
          fun _ _ => hwrap.trans hnext
        exact ⟨hcounts, iff_of_true hfails ⟨.inr (hnext ▸ hdvd), hopen⟩⟩
      · obtain ⟨hcounts, hfails⟩ := hcount false (u64 (hits + 1))
          (by simp [dShouldFail, hx, hmax, hi, mt Nat.dvd_of_mod_eq_zero hdvd])
          fun _ _ => hwrap.trans hnext
        refine ⟨hcounts, iff_of_false (by rw [hfails]; decide) fun h => ?_⟩
        exact h.1.elim (not_le.mpr hi) (hnext ▸ hdvd)
    · obtain ⟨hcounts, hfails⟩ := hcount true hits (by simp [dShouldFail, hx, hmax, hi, hrand])
        fun h => absurd h hi
      exact ⟨hcounts, iff_of_true hfails ⟨.inl (not_lt.mp hi), hopen⟩⟩
  · have hfull : fa.faMaxFaults ≠ 0 ∧ fa.faMaxFaults ≤ fa.faults rand n := by
      simpa [Open] using hopen
    obtain ⟨hcounts, hfails⟩ := hcount false hits (by simp [dShouldFail, hx, hfull])
      fun _ h => absurd h hopen
    exact ⟨hcounts, iff_of_false (by rw [hfails]; decide) fun h => hopen h.2⟩

theorem fails_iff (hzero : fa.faNumFaults = 0) (n : ℕ) : fa.fails rand n = true ↔
    (fa.faInterval ≤ 1 ∨ fa.faInterval ∣ u64 (fa.faNumHits + (n + 1))) ∧ fa.Open rand n := by
  have hcounts (n : ℕ) : Counts rand fa n := by
    induction n with
    | zero => exact ⟨fa.faNumHits, by rw [after, faults, ← hzero], fun _ _ => rfl⟩
    | succ n ih => exact (ih.succ hprob hpos).1
  exact ((hcounts n).succ hprob hpos).2

end

/-- As long as there are faults to come, and they come on schedule. -/
theorem faults_eq_div {N : ℕ} (hN : fa.faMaxFaults ≠ 0 → N ≤ fa.faMaxFaults * fa.faInterval)
    (hs : ∀ n < N, fa.Open rand n → (fa.fails rand n = true ↔ fa.faInterval ∣ n + 1)) :
    ∀ n ≤ N, fa.faults rand n = n / fa.faInterval := by
  intro n
  induction n with
  | zero => exact fun _ => (Nat.zero_div _).symm
  | succ n ih =>
    intro hn
    have hlast := ih (by omega)
    have hfails := hs n hn fun hmax => by
      rw [hlast]
      exact Nat.div_lt_of_lt_mul (by rw [mul_comm]; exact lt_of_lt_of_le hn (hN hmax))
    rw [faults, hlast, Nat.succ_div]
    by_cases hdvd : fa.faInterval ∣ n + 1
    · rw [hfails.mpr hdvd, if_pos hdvd, Bool.toNat_true]
    · rw [Bool.eq_false_iff.mpr (mt hfails.mp hdvd), if_neg hdvd, Bool.toNat_false]

theorem faults_mono {a b : ℕ} (hab : a ≤ b) : fa.faults rand a ≤ fa.faults rand b :=
  monotone_nat_of_le_succ (fun _ => Nat.le_add_right _ _) hab

theorem onSchedule_iff (hprob : fa.faProbabilityY ≤ fa.faProbabilityX) (hpos : 0 < fa.faProbabilityY)
    (hzero : fa.faNumFaults = 0) : fa.OnSchedule rand ↔ fa.faInterval ≤ 1 ∨
      InStep fa.faInterval fa.faNumHits fa.faMaxFaults := by
  have hfails (n : ℕ) : fa.fails rand n = true ↔ _ := fails_iff hprob hpos hzero n
  rcases le_or_gt fa.faInterval 1 with hi | hi
  · exact iff_of_true (fun n => by simp [hfails, hi]) (.inl hi)
  simp only [OnSchedule, not_le.mpr hi, false_or] at hfails ⊢
  constructor
  · intro hs n hmax
    have hopen : fa.Open rand n := fun hm => by
      rw [faults_eq_div hmax (fun k _ hopen => (hs k).trans (and_iff_left hopen)) n n.le_succ]
      exact Nat.div_lt_of_lt_mul (by rw [mul_comm]; exact hmax hm)
    exact (and_iff_left hopen).symm.trans
      ((hfails n).symm.trans ((hs n).trans (and_iff_left hopen)))
  · intro hstep n
    rw [hfails]
    by_cases hn : fa.faMaxFaults ≠ 0 → n < fa.faMaxFaults * fa.faInterval
    · rw [hstep n hn]
    · -- the last fault has been injected
      obtain ⟨hm, hn⟩ := Classical.not_imp.mp hn
      have hdiv := faults_eq_div (fun _ => le_rfl)
        (fun k hk hopen => by rw [hfails, hstep k fun _ => hk, and_iff_left hopen]) _ le_rfl
      rw [Nat.mul_div_cancel _ (by omega)] at hdiv
      have hclosed : ¬ fa.Open rand n := fun hopen =>
        not_lt.mpr (hdiv ▸ faults_mono (not_lt.mp hn)) (hopen hm)
      simp only [hclosed, and_false]

end FaultAttr

/-- The attributes of a fault id after a history of calls. -/
def faultAttrAfter (history : List FaultCall) : Option FaultAttr :=
  history.foldl FaultCall.apply none

/-- The number of calls that `fa_num_hits` has counted in a history. -/
def hitsAfter (history : List FaultCall) : ℕ :=
  ((faultAttrAfter history).map FaultAttr.faNumHits).getD 0

theorem dShouldFail_hits_lt {rand : ℕ} {fa : FaultAttr} (h : fa.faNumHits < 2 ^ 64) :
    (dShouldFail rand fa).2.faNumHits < 2 ^ 64 := by
  have hu64 : u64 (fa.faNumHits + 1) < 2 ^ 64 := Nat.mod_lt _ (by decide)
  simp only [dShouldFail]
  split_ifs <;> assumption

theorem hitsAfter_lt (history : List FaultCall) : hitsAfter history < 2 ^ 64 := by
  induction history using List.reverseRecOn with
  | nil => decide
  | append_singleton history call ih =>
    simp only [hitsAfter, faultAttrAfter, List.foldl_append, List.foldl_cons, List.foldl_nil] at ih ⊢
    cases call with
    | set allocated faIn =>
      cases allocated
      · exact ih
      · exact ih
    | shouldFail rand =>
      cases h : history.foldl FaultCall.apply none with
      | none => exact Nat.two_pow_pos _
      | some fa =>
        rw [h] at ih
        exact dShouldFail_hits_lt ih

/-- The faults that follow a call of `d_fault_attr_set` come on schedule exactly if the number of
calls that were counted before is a multiple of the interval, and the counter does not wrap to 0
out of step before the last fault. -/
theorem fault_schedule_iff (history : List FaultCall) (attr : FaultAttr) (rand : ℕ → ℕ)
    (hprob : attr.faProbabilityY ≤ attr.faProbabilityX) (hpos : 0 < attr.faProbabilityY)
    (hzero : attr.faNumFaults = 0) :
    ∃ fa, dFaultAttrSet true attr (faultAttrAfter history) = (0, some fa) ∧
      (fa.OnSchedule rand ↔ attr.faInterval ≤ 1 ∨ attr.faInterval ∣ hitsAfter history ∧
        (attr.faInterval ∣ 2 ^ 64 ∨ attr.faMaxFaults ≠ 0 ∧
          hitsAfter history + attr.faMaxFaults * attr.faInterval < 2 ^ 64)) := by
  refine ⟨{ attr with faNumHits := hitsAfter history }, rfl, ?_⟩
  rw [FaultAttr.onSchedule_iff (by exact hprob) (by exact hpos) (by exact hzero)]
  exact or_congr_right' fun hi => inStep_iff (not_le.mp hi) (hitsAfter_lt history)

/-- Every second call fails. -/
def everySecond : FaultAttr := ⟨1, 1, 2, 0, 0, 0⟩

theorem fault_schedule_iff_again : ∃ fa,
    dFaultAttrSet true everySecond
        (faultAttrAfter [.set true everySecond, .shouldFail 0, .shouldFail 1]) = (0, some fa) ∧
      fa.OnSchedule id := by
  obtain ⟨fa, hset, hiff⟩ := fault_schedule_iff [.set true everySecond, .shouldFail 0, .shouldFail 1]
    everySecond id (by decide) (by decide) rfl
  exact ⟨fa, hset, hiff.mpr (.inr ⟨by decide, .inl (by decide)⟩)⟩

/-- After one call the same attributes are set again, and the next call fails. -/
theorem fault_schedule_shifted : ∃ fa,
    dFaultAttrSet true everySecond (faultAttrAfter [.set true everySecond, .shouldFail 0]) =
        (0, some fa) ∧
      fa.fails id 0 = true ∧ ¬ (fa.faInterval ≤ 1 ∨ fa.faInterval ∣ 0 + 1) ∧
        ¬ fa.OnSchedule id := by
  have hdvd : ¬ (2 ≤ 1 ∨ 2 ∣ 0 + 1) := by decide
  exact ⟨{ everySecond with faNumHits := 1 }, rfl, rfl, hdvd, fun h => hdvd ((h 0).mp rfl).1⟩

end Cart
