/-
The hybrid logical clock (`crt_hlc.c`).

A process has one clock of 64 bits whose upper 48 follow the physical time; threads install
new values by a compare-and-exchange.  A message is stamped with `crt_hlc_get` when it is
encoded, and the stamp is merged with `crt_hlc_get_msg` when it is decoded.

Main result: `hlc_happens_before`.
-/
import Mathlib.Tactic
import Cart.Lts

open Function List Option

namespace Cart

open UInt64

variable {evs : List HlcEvent} {ev : HlcEvent} {c : HlcCall} {t : HlcThread} {net : HlcNet}
  {i j : ℕ}

/-! ### The clock of a process -/

def crtHlcMask : UInt64 := 0xFFFF

/-- With the result of `clock_gettime` in seconds and nanoseconds. -/
def crtHlcLocaltimeGet (now : Option (UInt64 × UInt64)) (crtHlc : UInt64) : UInt64 :=
  let pt := match now with
    | none => crtHlc
    | some (sec, nsec) => sec * 1000000000 + nsec
  pt &&& ~~~crtHlcMask

/-- The value that `crt_hlc_get` tries to install. -/
def crtHlcGetNext (pt hlc : UInt64) : UInt64 := if hlc &&& ~~~crtHlcMask < pt then pt else hlc + 1

/-- The value that `crt_hlc_get_msg` tries to install. -/
def crtHlcGetMsgNext (pt msg hlc : UInt64) : UInt64 :=
  let ml := msg &&& ~~~crtHlcMask
  if hlc &&& ~~~crtHlcMask < ml then if ml < pt then pt else msg + 1
  else if hlc &&& ~~~crtHlcMask < pt then pt
  else if pt ≤ ml then (if hlc < msg then msg else hlc) + 1
  else hlc + 1

theorem toNat_mask (x : UInt64) : (x &&& ~~~crtHlcMask).toNat = x.toNat / 2 ^ 16 * 2 ^ 16 := by
  have hmask : (~~~crtHlcMask).toNat = (2 ^ 48 - 1) * 2 ^ 16 := by decide
  rw [UInt64.toNat_and, hmask, ← Nat.shiftLeft_eq, ← Nat.shiftLeft_eq, ← Nat.shiftRight_eq_div_pow]
  refine Nat.eq_of_testBit_eq fun i => ?_
  rw [Nat.testBit_and, Nat.testBit_shiftLeft, Nat.testBit_shiftLeft, Nat.testBit_shiftRight,
    Nat.testBit_two_pow_sub_one]
  by_cases hi : 16 ≤ i
  · rw [Nat.add_sub_cancel' hi]
    by_cases hlt : i - 16 < 48
    · simp [hi, hlt]
    · have hhigh : x.toNat.testBit i = false :=
        Nat.testBit_lt_two_pow (x.toNat_lt.trans_le (Nat.pow_le_pow_right (by decide) (by omega)))
      simp [hhigh]
  · simp [hi]

/-- The lower 16 bits are zero. -/
def Masked (pt : UInt64) : Prop := pt &&& ~~~crtHlcMask = pt

theorem masked_crtHlcLocaltimeGet (now : Option (UInt64 × UInt64)) (crtHlc : UInt64) :
    Masked (crtHlcLocaltimeGet now crtHlc) := by
  unfold Masked crtHlcLocaltimeGet
  rw [UInt64.and_assoc, UInt64.and_self]

theorem Masked.toNat_eq {pt : UInt64} (h : Masked pt) : pt.toNat = pt.toNat / 2 ^ 16 * 2 ^ 16 := by
  rw [← toNat_mask, h]

theorem toNat_add_one {x : UInt64} (h : x.toNat + 1 < 2 ^ 64) : (x + 1).toNat = x.toNat + 1 := by
  rw [UInt64.toNat_add]
  exact Nat.mod_eq_of_lt h

/-- **`crt_hlc_get`** computes a maximum. -/
theorem toNat_crtHlcGetNext {pt hlc : UInt64} (hpt : Masked pt) (hlt : hlc.toNat + 1 < 2 ^ 64) :
    (crtHlcGetNext pt hlc).toNat = max pt.toNat (hlc.toNat + 1) := by
  have hp := hpt.toNat_eq
  have hm := toNat_mask hlc
  rw [crtHlcGetNext]
  split_ifs with h
  · rw [lt_iff_toNat_lt] at h
    omega
  · rw [lt_iff_toNat_lt] at h
    rw [toNat_add_one hlt]
    omega

/-- **`crt_hlc_get_msg`** computes a maximum. -/
theorem toNat_crtHlcGetMsgNext {pt msg hlc : UInt64} (hpt : Masked pt) (hlt : hlc.toNat + 1 < 2 ^ 64)
    (hmsg : msg.toNat + 1 < 2 ^ 64) :
    (crtHlcGetMsgNext pt msg hlc).toNat = max pt.toNat (max (hlc.toNat + 1) (msg.toNat + 1)) := by
  have hp := hpt.toNat_eq
  have hm := toNat_mask hlc
  have hml := toNat_mask msg
  rw [crtHlcGetMsgNext]
  generalize hlc &&& ~~~crtHlcMask = hl at hm ⊢
  generalize msg &&& ~~~crtHlcMask = ml at hml ⊢
  split
  · -- the message is ahead of the clock, by the upper bits
    rename_i h
    rw [lt_iff_toNat_lt] at h
    split_ifs with h'
    · rw [lt_iff_toNat_lt] at h'
      omega
    · rw [lt_iff_toNat_lt] at h'
      rw [toNat_add_one hmsg]
      omega
  rename_i h
  rw [lt_iff_toNat_lt] at h
  split
  · rename_i h'
    rw [lt_iff_toNat_lt] at h'
    omega
  rename_i h'
  rw [lt_iff_toNat_lt] at h'
  split
  · rename_i h''
    rw [le_iff_toNat_le] at h''
    split_ifs with h₃
    · rw [lt_iff_toNat_lt] at h₃
      rw [toNat_add_one hmsg]
      omega
    · rw [lt_iff_toNat_lt] at h₃
      rw [toNat_add_one hlt]
      omega
  · rename_i h''
    rw [le_iff_toNat_le] at h''
    rw [toNat_add_one hlt]
    omega

/-! ### Threads, processes and messages -/

/-- A call of one of the two functions.  A stamp that was received comes from the
event with a given index. -/
inductive HlcCall where
  | get
  | getMsg (msg : UInt64) (origin : Option ℕ)
  deriving DecidableEq

namespace HlcCall

def msg : HlcCall → Option UInt64
  | get => none
  | getMsg msg _ => some msg

/-- What is installed in place of `hlc`. -/
def next (pt hlc : UInt64) : HlcCall → UInt64
  | get => crtHlcGetNext pt hlc
  | getMsg msg _ => crtHlcGetMsgNext pt msg hlc

/-- The maximum of the physical time, of the successor of what is replaced, and of
the successor of the stamp. -/
def value (pt old : UInt64) : HlcCall → ℕ
  | get => max pt.toNat (old.toNat + 1)
  | getMsg msg _ => max pt.toNat (max (old.toNat + 1) (msg.toNat + 1))

end HlcCall

/-- Where a thread is in its loop. -/
inductive HlcThread where
  | called (c : HlcCall)
  | loop (c : HlcCall) (pt : UInt64)
  | loaded (c : HlcCall) (pt hlc : UInt64)
  deriving DecidableEq

/-- A value was installed. -/
structure HlcEvent where
  node : ℕ
  call : HlcCall
  pt : UInt64
  old : UInt64
  ret : UInt64
  deriving DecidableEq

/-- A stamp that was received is the result of `crt_hlc_get`. -/
def HlcCall.Received (evs : List HlcEvent) : HlcCall → Prop
  | .getMsg msg (some i) => ∃ src ∈ evs[i]?, src.call = .get ∧ src.ret = msg
  | .getMsg _ none | .get => True

instance (evs : List HlcEvent) (c : HlcCall) : Decidable (c.Received evs) :=
  match c with
  | .getMsg _ (some i) => inferInstanceAs (Decidable (∃ src ∈ evs[i]?, _ ∧ _))
  | .getMsg _ none | .get => isTrue trivial

/-- The clocks and the threads of the processes, and the values installed so far. -/
structure HlcNet where
  crtHlc : ℕ → UInt64
  threads : ℕ → List HlcThread
  events : List HlcEvent

/-- Steps of the threads of a process. -/
inductive HlcStep where
  | call (x : ℕ) (c : HlcCall)
  | localtime (x : ℕ) (c : HlcCall) (now : Option (UInt64 × UInt64))
  | load (x : ℕ) (c : HlcCall) (pt : UInt64)
  -- the exchange may fail for no reason
  | exchange (x : ℕ) (c : HlcCall) (pt hlc : UInt64) (spurious : Bool)

namespace HlcNet

/-- A thread of `x` goes on. -/
def goOn (net : HlcNet) (x : ℕ) (t : HlcThread) (next : List HlcThread) : HlcNet :=
  { net with threads := Function.update net.threads x ((net.threads x).erase t ++ next) }

def step (net : HlcNet) : HlcStep → HlcNet
  | .call x c => { net with threads := Function.update net.threads x (net.threads x ++ [.called c]) }
  | .localtime x c now => net.goOn x (.called c) [.loop c (crtHlcLocaltimeGet now (net.crtHlc x))]
  | .load x c pt => net.goOn x (.loop c pt) [.loaded c pt (net.crtHlc x)]
  | .exchange x c pt hlc spurious =>
    if spurious = true ∨ net.crtHlc x ≠ hlc then net.goOn x (.loaded c pt hlc) [.loop c pt]
    else
      { net.goOn x (.loaded c pt hlc) [] with
        crtHlc := Function.update net.crtHlc x (c.next pt hlc)
        events := net.events ++ [⟨x, c, pt, hlc, c.next pt hlc⟩] }

def Enabled (net : HlcNet) : HlcStep → Prop
  | .call _ c => c.Received net.events
  | .localtime x c _ => .called c ∈ net.threads x
  | .load x c pt => .loop c pt ∈ net.threads x
  | .exchange x c pt hlc _ => .loaded c pt hlc ∈ net.threads x

instance (net : HlcNet) (s : HlcStep) : Decidable (net.Enabled s) := by
  cases s <;> dsimp only [Enabled] <;> infer_instance

end HlcNet

/-- The runs of any number of processes. -/
def hlcLts : Lts HlcNet HlcStep where
  init net := net.crtHlc = (fun _ => 0) ∧ net.threads = (fun _ => []) ∧ net.events = []
  enabled := HlcNet.Enabled
  step net s := some (net.step s)

/-- Neither the clock nor a stamp has reached the highest number. -/
def HlcBounded (_ : HlcNet) : HlcStep → Prop
  | .exchange _ c _ hlc _ => hlc.toNat + 1 < 2 ^ 64 ∧ ∀ msg ∈ c.msg, msg.toNat + 1 < 2 ^ 64
  | _ => True

instance (net : HlcNet) (s : HlcStep) : Decidable (hlcLts.enabled net s) :=
  inferInstanceAs (Decidable (net.Enabled s))

instance (net : HlcNet) (s : HlcStep) : Decidable (HlcBounded net s) := by
  -- by the one stamp of the call, not by a search over all words
  have (c : HlcCall) : Decidable (∀ msg ∈ c.msg, msg.toNat + 1 < 2 ^ 64) := Option.decidableForallMem _
  cases s <;> dsimp only [HlcBounded] <;> infer_instance

/-! ### Histories -/

/-- The value of the clock of `x` after the events. -/
def clockAfter (evs : List HlcEvent) (x : ℕ) : UInt64 :=
  evs.foldl (fun hlc ev => if ev.node = x then ev.ret else hlc) 0

theorem clockAfter_append (evs : List HlcEvent) (ev : HlcEvent) (x : ℕ) :
    clockAfter (evs ++ [ev]) x = if ev.node = x then ev.ret else clockAfter evs x := by
  rw [clockAfter, foldl_append]
  rfl

/-- An event after `evs`. -/
structure Stamped (evs : List HlcEvent) (ev : HlcEvent) : Prop where
  masked : Masked ev.pt
  old : ev.old = clockAfter evs ev.node
  ret : ev.ret.toNat = ev.call.value ev.pt ev.old
  origin : ev.call.Received evs

/-- Every event is stamped. -/
inductive History : List HlcEvent → Prop
  | nil : History []
  | snoc {evs : List HlcEvent} {ev : HlcEvent} (h : History evs) (hev : Stamped evs ev) :
      History (evs ++ [ev])

theorem Stamped.old_lt (h : Stamped evs ev) : ev.old.toNat < ev.ret.toNat := by
  rw [h.ret]
  cases ev.call with
  | get | getMsg msg origin =>
    rw [HlcCall.value]
    omega

theorem Stamped.msg_lt (h : Stamped evs ev) {msg : UInt64} {origin : Option ℕ}
    (hcall : ev.call = .getMsg msg origin) : msg.toNat < ev.ret.toNat := by
  rw [h.ret, hcall, HlcCall.value]
  omega

theorem getElem?_snoc {α : Type*} {l : List α} {a b : α} (h : (l ++ [a])[i]? = some b) :
    i < l.length ∧ l[i]? = some b ∨ i = l.length ∧ b = a := by
  rw [getElem?_append] at h
  split_ifs at h with hi
  · exact .inl ⟨hi, h⟩
  · obtain ⟨hlt, hb⟩ := List.getElem?_eq_some_iff.mp h
    rw [length_singleton] at hlt
    exact .inr ⟨by omega, by simpa using hb.symm⟩

theorem History.le_clockAfter (h : History evs)
    (hev : evs[i]? = some ev) : ev.ret.toNat ≤ (clockAfter evs ev.node).toNat := by
  induction h with
  | nil => cases hev
  | @snoc evs last _ hlast ih =>
    rw [clockAfter_append]
    rcases getElem?_snoc hev with ⟨_, hev⟩ | ⟨_, rfl⟩
    · split
      · rename_i hnode
        -- the last event has replaced the highest value before
        calc ev.ret.toNat ≤ (clockAfter evs ev.node).toNat := ih hev
          _ = last.old.toNat := by rw [hlast.old, hnode]
          _ ≤ last.ret.toNat := hlast.old_lt.le
      · exact ih hev
    · rw [if_pos rfl]

/-- An event happens directly before another one: in the same process, or by a
message. -/
def Direct (evs : List HlcEvent) (i j : ℕ) : Prop :=
  ∃ e f, evs[i]? = some e ∧ evs[j]? = some f ∧
    (i < j ∧ e.node = f.node ∨ ∃ msg, f.call = .getMsg msg (some i))

/-- The happens-before order. -/
def HappensBefore (evs : List HlcEvent) : ℕ → ℕ → Prop := Relation.TransGen (Direct evs)

theorem History.stamped (h : History evs) (hev : evs[j]? = some ev) : Stamped (evs.take j) ev := by
  induction h with
  | nil => cases hev
  | @snoc evs last _ hlast ih =>
    rcases getElem?_snoc hev with ⟨hj, hev⟩ | ⟨rfl, rfl⟩
    · rw [take_append_of_le_length hj.le]
      exact ih hev
    · rw [take_append_of_le_length le_rfl, take_length]
      exact hlast

theorem History.take (h : History evs) (j : ℕ) : History (evs.take j) := by
  induction h with
  | nil =>
    rw [take_nil]
    exact .nil
  | @snoc evs last h hlast ih =>
    by_cases hj : j ≤ evs.length
    · rw [take_append_of_le_length hj]
      exact ih
    · rw [take_of_length_le (by rw [length_append, length_singleton]; omega)]
      exact .snoc h hlast

/-- Stamps increase from one event to the next. -/
theorem History.direct (h : History evs) (hij : Direct evs i j) {e f : HlcEvent}
    (he : evs[i]? = some e) (hf : evs[j]? = some f) : e.ret.toNat < f.ret.toNat := by
  obtain ⟨e', f', he', hf', hor⟩ := hij
  obtain rfl := some.inj (he.symm.trans he')
  obtain rfl := some.inj (hf.symm.trans hf')
  have hstamped := h.stamped hf
  rcases hor with ⟨hlt, hnode⟩ | ⟨msg, hcall⟩
  · -- what the later event replaced is at least the earlier one
    have htake : (evs.take j)[i]? = some e := by
      rw [getElem?_take_of_lt hlt]
      exact he
    calc e.ret.toNat ≤ (clockAfter (evs.take j) e.node).toNat := (h.take j).le_clockAfter htake
      _ = f.old.toNat := by rw [hstamped.old, hnode]
      _ < f.ret.toNat := hstamped.old_lt
  · have horigin := hstamped.origin
    rw [hcall] at horigin
    obtain ⟨src, hsrc, _, hret⟩ := horigin
    have hsrc : (evs.take j)[i]? = some src := hsrc
    have hi : i < (evs.take j).length := (List.getElem?_eq_some_iff.mp hsrc).1
    rw [length_take] at hi
    rw [getElem?_take_of_lt (by omega)] at hsrc
    obtain rfl := some.inj (he.symm.trans hsrc)
    rw [hret]
    exact hstamped.msg_lt hcall

theorem History.happensBefore (h : History evs) (hij : HappensBefore evs i j) {e f : HlcEvent}
    (he : evs[i]? = some e) (hf : evs[j]? = some f) : e.ret.toNat < f.ret.toNat := by
  induction hij generalizing f with
  | single hdir => exact h.direct hdir he hf
  | tail _ hdir ih =>
    obtain ⟨mid, _, hmid, _⟩ := id hdir
    exact (ih hmid).trans (h.direct hdir hmid hf)

/-! ### Runs -/

theorem HlcCall.Received.append (h : c.Received evs)
    (ev : HlcEvent) : c.Received (evs ++ [ev]) := by
  cases c with
  | get => exact trivial
  | getMsg msg origin =>
    cases origin with
    | none => exact trivial
    | some i =>
      obtain ⟨src, hsrc, hget, hret⟩ := h
      have hi : i < evs.length := (List.getElem?_eq_some_iff.mp hsrc).1
      exact ⟨src, (getElem?_append_left hi).trans hsrc, hget, hret⟩

/-- What a thread has got so far. -/
def HlcThread.Ok (evs : List HlcEvent) : HlcThread → Prop
  | .called c => c.Received evs
  | .loop c pt | .loaded c pt _ => c.Received evs ∧ Masked pt

theorem HlcThread.Ok.append (h : t.Ok evs) (ev : HlcEvent) : t.Ok (evs ++ [ev]) := by
  cases t with
  | called c => exact HlcCall.Received.append h ev
  | loop c pt | loaded c pt hlc => exact ⟨h.1.append ev, h.2⟩

/-- The invariant of the runs. -/
structure HlcInv (net : HlcNet) : Prop where
  history : History net.events
  clock : ∀ x, net.crtHlc x = clockAfter net.events x
  threads : ∀ x, ∀ t ∈ net.threads x, t.Ok net.events

theorem HlcInv.goOn (h : HlcInv net) {x : ℕ} {next : List HlcThread}
    (hnext : ∀ t' ∈ next, t'.Ok net.events) : HlcInv (net.goOn x t next) := by
  refine ⟨h.history, h.clock, fun y t' ht' => ?_⟩
  rw [HlcNet.goOn] at ht' ⊢
  dsimp only at ht' ⊢
  by_cases hy : y = x
  · rw [hy, update_self] at ht'
    rcases mem_append.mp ht' with hold | hnew
    · exact h.threads x t' (mem_of_mem_erase hold)
    · exact hnext t' hnew
  · rw [update_of_ne hy] at ht'
    exact h.threads y t' ht'

theorem HlcCall.toNat_next {pt hlc : UInt64} (hpt : Masked pt) (hlt : hlc.toNat + 1 < 2 ^ 64)
    (hmsg : ∀ msg ∈ c.msg, msg.toNat + 1 < 2 ^ 64) : (c.next pt hlc).toNat = c.value pt hlc := by
  cases c with
  | get => exact toNat_crtHlcGetNext hpt hlt
  | getMsg msg origin => exact toNat_crtHlcGetMsgNext hpt hlt (hmsg msg rfl)

/-- **A value is installed.** -/
theorem HlcInv.exchange (h : HlcInv net) {x : ℕ} {pt hlc : UInt64}
    (ht : .loaded c pt hlc ∈ net.threads x) (hsame : net.crtHlc x = hlc) (hlt : hlc.toNat + 1 < 2 ^ 64)
    (hmsg : ∀ msg ∈ c.msg, msg.toNat + 1 < 2 ^ 64) :
    HlcInv { net.goOn x (.loaded c pt hlc) [] with
      crtHlc := Function.update net.crtHlc x (c.next pt hlc)
      events := net.events ++ [⟨x, c, pt, hlc, c.next pt hlc⟩] } := by
  obtain ⟨hreceived, hmasked⟩ := h.threads x _ ht
  have hgo := h.goOn (x := x) (t := .loaded c pt hlc) (fun t' ht' => absurd ht' not_mem_nil)
  refine ⟨h.history.snoc ⟨hmasked, ?_, HlcCall.toNat_next hmasked hlt hmsg, hreceived⟩, fun y => ?_,
    fun y t' ht' => (hgo.threads y t' ht').append _⟩
  · rw [← h.clock x, hsame]
  · dsimp only
    rw [clockAfter_append]
    by_cases hy : y = x
    · rw [hy, update_self, if_pos rfl]
    · rw [update_of_ne hy, if_neg (Ne.symm hy)]
      exact h.clock y

theorem hlc_invariant : (hlcLts.restrict HlcBounded).Invariant HlcInv := by
  refine ⟨?_, ?_⟩
  · rintro net ⟨hclock, hthreads, hevents⟩
    refine ⟨hevents ▸ .nil, fun x => ?_, fun x t ht => ?_⟩
    · rw [hclock, hevents]
      rfl
    · rw [hthreads] at ht
      exact absurd ht not_mem_nil
  · rintro net s net' h ⟨henabled, hbounded⟩ hstep
    cases hstep
    cases s with
    | call x c =>
      refine ⟨h.history, h.clock, fun y t ht => ?_⟩
      rw [HlcNet.step] at ht
      dsimp only at ht
      by_cases hy : y = x
      · rw [hy, update_self] at ht
        rcases mem_append.mp ht with hold | hnew
        · exact h.threads x t hold
        · rw [mem_singleton.mp hnew]
          exact henabled
      · rw [update_of_ne hy] at ht
        exact h.threads y t ht
    | localtime x c now =>
      refine h.goOn fun t ht => ?_
      rw [mem_singleton.mp ht]
      exact ⟨h.threads x _ henabled, masked_crtHlcLocaltimeGet now _⟩
    | load x c pt =>
      have hok := h.threads x (.loop c pt) henabled
      refine h.goOn fun t ht => ?_
      rw [mem_singleton.mp ht]
      exact hok
    | exchange x c pt hlc spurious =>
      rw [HlcNet.step]
      split_ifs with hok
      · have hok := h.threads x (.loaded c pt hlc) henabled
        refine h.goOn fun t ht => ?_
        rw [mem_singleton.mp ht]
        exact hok
      · exact h.exchange henabled (not_not.mp (not_or.mp hok).2) hbounded.1 hbounded.2

/-- **The hybrid logical clock** increases strictly in each process, and from an event to one
that happens after it. -/
theorem hlc_happens_before (net : HlcNet) (hnet : (hlcLts.restrict HlcBounded).Reach net) :
    (∀ (j : ℕ) (ev : HlcEvent), net.events[j]? = some ev →
      ev.pt &&& ~~~crtHlcMask = ev.pt ∧ ev.old = clockAfter (net.events.take j) ev.node ∧
      (ev.call = .get → ev.ret.toNat = max ev.pt.toNat (ev.old.toNat + 1)) ∧
      ∀ msg origin, ev.call = .getMsg msg origin →
        ev.ret.toNat = max ev.pt.toNat (max (ev.old.toNat + 1) (msg.toNat + 1))) ∧
    (∀ (i j : ℕ) (e f : HlcEvent), net.events[i]? = some e → net.events[j]? = some f → i < j →
      e.node = f.node → e.ret.toNat < f.ret.toNat) ∧
    ∀ (i j : ℕ) (e f : HlcEvent), net.events[i]? = some e → net.events[j]? = some f →
      HappensBefore net.events i j → e.ret.toNat < f.ret.toNat := by
  have hhistory := (hlc_invariant.reach hnet).history
  refine ⟨fun j ev hev => ?_, fun i j e f he hf hlt hnode => ?_, fun i j e f he hf hij => ?_⟩
  · have hstamped := hhistory.stamped hev
    refine ⟨hstamped.masked, hstamped.old, fun hcall => ?_, fun msg origin hcall => ?_⟩
    · rw [hstamped.ret, hcall]
      rfl
    · rw [hstamped.ret, hcall]
      rfl
  · exact hhistory.direct ⟨e, f, he, hf, .inl ⟨hlt, hnode⟩⟩ he hf
  · exact hhistory.happensBefore hij he hf

/-- Two threads race for a clock; another process, whose clock is behind, merges a stamp. -/
theorem hlc_happens_before_race : ∃ net e f, (hlcLts.restrict HlcBounded).Reach net ∧
    net.events[1]? = some e ∧ net.events[2]? = some f ∧ e.node = 0 ∧ f.node = 1 ∧
    e.ret.toNat < f.ret.toNat := by
  obtain ⟨net, hreach, he, hf⟩ : ∃ net, (hlcLts.restrict HlcBounded).Reach net ∧
      net.events[1]? = some ⟨0, .get, 999948288, 1000013824, 1000013825⟩ ∧
      net.events[2]? = some ⟨1, .getMsg 1000013825 (some 1), 0, 0, 1000013826⟩ :=
    Lts.exists_reach_of_exec
      [.call 0 .get, .call 0 .get, .localtime 0 .get (some (1, 70000)), .localtime 0 .get (some (1, 0)),
        .load 0 .get 1000013824, .load 0 .get 999948288, .exchange 0 .get 1000013824 0 false,
        .exchange 0 .get 999948288 0 false, .load 0 .get 999948288,
        .exchange 0 .get 999948288 1000013824 false,
        .call 1 (.getMsg 1000013825 (some 1)), .localtime 1 (.getMsg 1000013825 (some 1)) none,
        .load 1 (.getMsg 1000013825 (some 1)) 0, .exchange 1 (.getMsg 1000013825 (some 1)) 0 0 false]
      ⟨fun _ => 0, fun _ => [], []⟩ ⟨rfl, rfl, rfl⟩ (by decide +kernel)
  refine ⟨net, _, _, hreach, he, hf, rfl, rfl, ?_⟩
  exact (hlc_happens_before net hreach).2.2 1 2 _ _ he hf (.single ⟨_, _, he, hf, .inr ⟨_, rfl⟩⟩)

end Cart
