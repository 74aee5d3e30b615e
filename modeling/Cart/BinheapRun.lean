/-
Every sequence of operations on a binary heap (`gurt/heap.c`).

Nodes are inserted, removed, and taken from the root in any order; the memory for new slots
and `hop_enter` may fail.  What the heap is for is said by a list: the nodes that have been
inserted and not been removed since.

Main result: `binheap_sound`.
-/
import Cart.Binheap
import Cart.Lts

open List Option

namespace Cart

open HeapOrder DBinheap

variable {ν K : Type} {key : ν → K}

namespace DBinheap

variable {h' : DBinheap ν}

/-! ### Creation and the root -/

/-- The loop of `d_binheap_create_inplace`; the first argument bounds the rounds. -/
def preallocate (allocated : ℕ → Bool) (count : ℕ) :
    ℕ → DBinheap ν → Option (ℤ × DBinheap ν)
  | 0, h => some (0, h)
  | fuel + 1, h =>
    if h.dBhHwm < count then
      (h.dBinheapGrow (allocated h.dBhHwm)).bind fun (rc, h) =>
        if rc ≠ 0 then some (rc, h) else preallocate allocated count fuel h
    else some (0, h)

/-- What the nodes hold in `chn_idx` is whatever was there before. -/
def dBinheapCreateInplace (allocated : ℕ → Bool) (lockRc : ℤ) (count : ℕ) (null : ν)
    (chnIdx : ν → ℕ) : Option (ℤ × DBinheap ν) :=
  (preallocate allocated count count ⟨fun _ => null, 0, 0, chnIdx⟩).map fun (rc, h) =>
    if rc ≠ 0 then (rc, h) else (lockRc, h)

/-- `d_binheap_find_locked`. -/
def dBinheapFind (h : DBinheap ν) (idx : ℕ) : Option ν :=
  if h.dBhNodesCnt ≤ idx then none else some (h.slots idx)

/-- The node, if there was one. -/
def dBinheapRemoveRoot [DecidableEq ν] (cmp : ν → ν → Bool) (h : DBinheap ν) :
    Option (Option ν × DBinheap ν) :=
  match h.dBinheapFind 0 with
  | none => some (none, h)
  | some e => (h.dBinheapRemove cmp e).map fun h => (some e, h)

theorem dBinheapFind_zero (h : DBinheap ν) : h.dBinheapFind 0 = h.dBinheapRoot := by
  rw [dBinheapFind, dBinheapRoot]
  by_cases h0 : h.dBhNodesCnt = 0
  · rw [if_pos h0.le, if_pos h0]
  · rw [if_neg (by omega), if_neg h0]

variable {h : DBinheap ν}

theorem growIfFull_frame {allocated : Bool} {rc : ℤ}
    (hgrow : h.growIfFull allocated = some (rc, h')) :
    h'.slots = h.slots ∧ h'.dBhNodesCnt = h.dBhNodesCnt ∧ h'.chnIdx = h.chnIdx := by
  rw [growIfFull] at hgrow
  split_ifs at hgrow with hfull
  · exact dBinheapGrow_frame hgrow
  · cases hgrow
    exact ⟨rfl, rfl, rfl⟩

/-- The loop leaves an empty heap empty, and it does not stop before there is
room for `count` nodes. -/
theorem preallocate_spec (allocated : ℕ → Bool) (count fuel : ℕ) : ∀ h : DBinheap ν, h.Wf →
    h.dBhNodesCnt = 0 → count ≤ fuel + h.dBhHwm →
    ∃ rc h', preallocate allocated count fuel h = some (rc, h') ∧ h'.Wf ∧ h'.dBhNodesCnt = 0 ∧
      (rc = 0 → count ≤ h'.dBhHwm) := by
  induction fuel with
  | zero =>
    intro h hwf hcnt hfuel
    exact ⟨0, h, rfl, hwf, hcnt, fun _ => by omega⟩
  | succ fuel ih =>
    intro h hwf hcnt hfuel
    rw [preallocate]
    by_cases hroom : h.dBhHwm < count
    · obtain ⟨rc, h', hgrow, hwf', hhwm⟩ := hwf.grow (allocated h.dBhHwm)
      have hcnt' : h'.dBhNodesCnt = 0 := (dBinheapGrow_frame hgrow).2.1.trans hcnt
      rw [if_pos hroom, hgrow, bind_some]
      dsimp only
      by_cases hrc : rc = 0
      · rw [if_neg (not_not.mpr hrc)]
        refine ih h' hwf' hcnt' ?_
        rw [hhwm hrc, dbhSize]
        omega
      · rw [if_pos hrc]
        exact ⟨rc, h', rfl, hwf', hcnt', fun h0 => absurd h0 hrc⟩
    · rw [if_neg hroom]
      exact ⟨0, h, rfl, hwf, hcnt, fun _ => by omega⟩

theorem dBinheapCreateInplace_spec (allocated : ℕ → Bool) (lockRc : ℤ) (count : ℕ) (null : ν)
    (chnIdx : ν → ℕ) :
    ∃ rc h, dBinheapCreateInplace allocated lockRc count null chnIdx = some (rc, h) ∧ h.Wf ∧
      h.dBhNodesCnt = 0 ∧ (rc = 0 → count ≤ h.dBhHwm) := by
  have hwf : (⟨fun _ => null, 0, 0, chnIdx⟩ : DBinheap ν).Wf :=
    ⟨fun i hi => absurd hi (Nat.not_lt_zero i), le_rfl, rfl, Nat.zero_le _⟩
  obtain ⟨rc, h, heq, hwf', hcnt, hroom⟩ := preallocate_spec allocated count count _ hwf rfl le_rfl
  rw [dBinheapCreateInplace, heq, map_some]
  dsimp only
  by_cases hrc : rc = 0
  · rw [if_neg (not_not.mpr hrc)]
    exact ⟨lockRc, h, rfl, hwf', hcnt, fun _ => hroom hrc⟩
  · rw [if_pos hrc]
    exact ⟨rc, h, rfl, hwf', hcnt, fun h0 => absurd h0 hrc⟩

variable [DecidableEq ν] {cmp : ν → ν → Bool} {e : ν}

theorem dBinheapInsert_failed {env : HeapEnv} {rc : ℤ}
    (hins : h.dBinheapInsert cmp env e = some (rc, h')) (hrc : rc ≠ 0) :
    h'.slots = h.slots ∧ h'.dBhNodesCnt = h.dBhNodesCnt ∧ h'.chnIdx = h.chnIdx := by
  rw [dBinheapInsert] at hins
  by_cases hover : h.dBhHwm < h.dBhNodesCnt
  · rw [if_pos hover] at hins
    cases hins
  · rw [if_neg hover] at hins
    obtain ⟨⟨rc', g⟩, hgrow, hins⟩ := bind_eq_some_iff.mp hins
    dsimp only at hins
    by_cases hrc' : rc' = 0
    · rw [if_neg (not_not.mpr hrc')] at hins
      by_cases henter : env.enterRc = 0
      · -- past this point the insertion succeeds
        rw [if_neg (not_not.mpr henter)] at hins
        obtain ⟨⟨_, _⟩, _, heq⟩ := map_eq_some_iff.mp hins
        cases heq
        exact absurd rfl hrc
      · rw [if_pos henter] at hins
        cases hins
        exact growIfFull_frame hgrow
    · rw [if_pos hrc'] at hins
      cases hins
      exact growIfFull_frame hgrow

section

variable [Preorder K]

/-- **`d_binheap_remove_root`** takes out a node with the smallest key; there is
none just if the heap is empty. -/
theorem dBinheapRemoveRoot_spec (hcmp : Follows cmp key) (hinv : h.Inv key) :
    ∃ r h', h.dBinheapRemoveRoot cmp = some (r, h') ∧ h'.Inv key ∧
      (∀ x, h'.Contains x ↔ r ≠ some x ∧ h.Contains x) ∧
      (r = none ↔ ∀ x, ¬ h.Contains x) ∧
      ∀ x, r = some x → h.Contains x ∧ ∀ y, h.Contains y → key x ≤ key y := by
  rw [dBinheapRemoveRoot, dBinheapFind_zero]
  cases hroot : h.dBinheapRoot with
  | none =>
    have hnone := not_contains_of_root hroot
    refine ⟨none, h, rfl, hinv, fun x => ?_, ?_, fun x hx => ?_⟩
    · simp
    · simp [hnone]
    · cases hx
  | some e =>
    have he := contains_root hroot
    obtain ⟨h', heq, hinv', _, hcontains⟩ := dBinheapRemove_spec hcmp hinv he
    refine ⟨some e, h', ?_, hinv', fun x => ?_, ?_, fun x hx => ?_⟩
    · show (h.dBinheapRemove cmp e).map _ = _
      rw [heq, map_some]
    · rw [hcontains, ne_eq, ne_eq, Option.some.injEq, eq_comm]
    · exact iff_of_false (some_ne_none e) fun hall => hall e he
    · cases hx
      exact ⟨he, fun y hy => hinv.root_le hroot hy⟩

end

end DBinheap

/-! ### Runs -/

/-- An operation on a heap, with what the memory and `hop_enter` do. -/
inductive HeapOp (ν : Type) where
  | insert (env : HeapEnv) (e : ν)
  | remove (e : ν)
  | removeRoot

/-- A heap and the nodes that were inserted and not removed since. -/
structure HeapRun (ν : Type) where
  heap : DBinheap ν
  held : List ν

namespace HeapRun

variable [DecidableEq ν]

/-- A node is in a heap at most once (`crp_in_binheap`), and only what is there is removed. -/
def Allowed (s : HeapRun ν) : HeapOp ν → Prop
  | .insert _ e => e ∉ s.held
  | .remove e => e ∈ s.held
  | .removeRoot => True

instance (s : HeapRun ν) (op : HeapOp ν) : Decidable (s.Allowed op) := by
  cases op <;> dsimp only [Allowed] <;> infer_instance

/-- One operation.  A successful insertion adds the node to those held, a
removal takes it away. -/
def step (cmp : ν → ν → Bool) (s : HeapRun ν) : HeapOp ν → Option (HeapRun ν)
  | .insert env e =>
    (s.heap.dBinheapInsert cmp env e).map fun (rc, h) =>
      ⟨h, if rc = 0 then e :: s.held else s.held⟩
  | .remove e =>
    (s.heap.dBinheapRemove cmp e).map fun h => ⟨h, s.held.filter (· ≠ e)⟩
  | .removeRoot =>
    (s.heap.dBinheapRemoveRoot cmp).map fun (r, h) =>
      ⟨h, s.held.filter fun x => r ≠ some x⟩

/-- The heap is in order, the indices are right, and it holds what it should. -/
structure Sound {K : Type} [Preorder K] (key : ν → K) (s : HeapRun ν) : Prop where
  ordered : Ordered s.heap.dBhNodesCnt (key ∘ s.heap.slots)
  indexed : ∀ i, i < s.heap.dBhNodesCnt → s.heap.chnIdx (s.heap.slots i) = i
  contents : ∀ x, s.heap.Contains x ↔ x ∈ s.held

end HeapRun

/-- The runs of a heap that was created with room for `count` nodes. -/
@[reducible]
def heapLts {ν : Type} [DecidableEq ν] (cmp : ν → ν → Bool) (count : ℕ) :
    Lts (HeapRun ν) (HeapOp ν) where
  init s := s.held = [] ∧ ∃ allocated lockRc null chnIdx,
    dBinheapCreateInplace allocated lockRc count null chnIdx = some (0, s.heap)
  enabled := HeapRun.Allowed
  step := HeapRun.step cmp

section

variable [DecidableEq ν] [Preorder K] {cmp : ν → ν → Bool} {s : HeapRun ν}

/-- What every operation keeps. -/
structure HeapRun.Inv (key : ν → K) (s : HeapRun ν) : Prop where
  heap : s.heap.Inv key
  contents : ∀ x, s.heap.Contains x ↔ x ∈ s.held

omit [DecidableEq ν] in
theorem HeapRun.Inv.sound (hinv : s.Inv key) : s.Sound key :=
  ⟨hinv.heap.ordered, hinv.heap.indexed, hinv.contents⟩

theorem HeapRun.Inv.step (hcmp : Follows cmp key) {op : HeapOp ν}
    (hinv : s.Inv key) (hop : s.Allowed op) : ∃ s', s.step cmp op = some s' ∧ s'.Inv key := by
  cases op with
  | insert env e =>
    obtain ⟨rc, h', heq, hinv', hcontains⟩ := dBinheapInsert_spec hcmp hinv.heap
      (fun hc => hop ((hinv.contents e).mp hc)) env
    refine ⟨_, by rw [HeapRun.step, heq, map_some], hinv', fun x => ?_⟩
    rw [hcontains, hinv.contents]
    by_cases hrc : rc = 0
    · simp [hrc]
    · simp [hrc]
  | remove e =>
    obtain ⟨h', heq, hinv', _, hcontains⟩ := dBinheapRemove_spec hcmp hinv.heap
      ((hinv.contents e).mpr hop)
    refine ⟨_, by rw [HeapRun.step, heq, map_some], hinv', fun x => ?_⟩
    rw [hcontains, hinv.contents]
    simp [and_comm]
  | removeRoot =>
    obtain ⟨r, h', heq, hinv', hcontains, _, _⟩ := dBinheapRemoveRoot_spec hcmp hinv.heap
    refine ⟨_, by rw [HeapRun.step, heq, map_some], hinv', fun x => ?_⟩
    rw [hcontains, hinv.contents]
    simp [and_comm]

theorem heapRun_invariant (hcmp : Follows cmp key) (count : ℕ) :
    (heapLts cmp count).Invariant (HeapRun.Inv key) := by
  refine ⟨?_, ?_⟩
  · rintro s ⟨hheld, allocated, lockRc, null, chnIdx, hcreate⟩
    obtain ⟨rc, h, heq, hwf, hcnt, _⟩ :=
      dBinheapCreateInplace_spec allocated lockRc count null chnIdx
    rw [hcreate] at heq
    cases heq
    refine ⟨⟨hwf, fun i _ hi => ?_⟩, fun x => ?_⟩
    · omega
    · rw [hheld]
      refine ⟨?_, fun hx => absurd hx not_mem_nil⟩
      rintro ⟨i, hi, _⟩
      omega
  · intro s op s' hinv hop hstep
    obtain ⟨t, heq, hinv'⟩ := hinv.step hcmp hop
    rw [show s.step cmp op = some s' from hstep] at heq
    cases heq
    exact hinv'

/-- **The binary heap.** In every state of every run it is in order, every node knows its slot,
and it holds what was inserted and not removed; the root is a node of the smallest key. -/
theorem binheap_sound (hcmp : DBinheap.Follows cmp key) (count : ℕ) :
    (∀ allocated lockRc (null : ν) chnIdx, ∃ rc h,
      DBinheap.dBinheapCreateInplace allocated lockRc count null chnIdx = some (rc, h)) ∧
    (heapLts cmp count).Safe ∧ ∀ s, (heapLts cmp count).Reach s → s.Sound key ∧
      (∀ env e rc h', s.heap.dBinheapInsert cmp env e = some (rc, h') → rc ≠ 0 →
        h'.slots = s.heap.slots ∧ h'.dBhNodesCnt = s.heap.dBhNodesCnt ∧
          h'.chnIdx = s.heap.chnIdx) ∧
      ∀ r h', s.heap.dBinheapRemoveRoot cmp = some (r, h') → (r = none ↔ s.held = []) ∧
        ∀ x, r = some x → x ∈ s.held ∧ ∀ y, y ∈ s.held → key x ≤ key y := by
  have hinvariant := heapRun_invariant hcmp count
  refine ⟨fun allocated lockRc null chnIdx => ?_, ?_, fun s hs => ?_⟩
  · obtain ⟨rc, h, heq, _⟩ :=
      DBinheap.dBinheapCreateInplace_spec allocated lockRc count null chnIdx
    exact ⟨rc, h, heq⟩
  · refine hinvariant.safe fun s op hinv hop => ?_
    obtain ⟨s', hstep, _⟩ := hinv.step hcmp hop
    exact ⟨s', hstep⟩
  · have hinv := hinvariant.reach hs
    refine ⟨hinv.sound, fun env e rc h' hins hrc => DBinheap.dBinheapInsert_failed hins hrc,
      fun r h' hrem => ?_⟩
    obtain ⟨r', g, heq, _, _, hnone, hmin⟩ := DBinheap.dBinheapRemoveRoot_spec hcmp hinv.heap
    rw [hrem] at heq
    cases heq
    refine ⟨hnone.trans ?_, fun x hx => ?_⟩
    · rw [eq_nil_iff_forall_not_mem]
      exact forall_congr' fun x => not_congr (hinv.contents x)
    · obtain ⟨hx, hle⟩ := hmin x hx
      exact ⟨(hinv.contents x).mp hx, fun y hy => hle y ((hinv.contents y).mpr hy)⟩

/-- Smaller numbers come first, as in the unit test of the heap. -/
theorem binheap_sound_lt : ∃ s : HeapRun ℕ,
    (heapLts (fun a b => decide (a < b)) 600).Reach s ∧ s.held = [3] ∧ s.Sound id := by
  have hcmp : DBinheap.Follows (fun a b : ℕ => decide (a < b)) id :=
    ⟨fun a b hlt => (of_decide_eq_true hlt).le, fun a b hge => not_lt.mp (of_decide_eq_false hge)⟩
  have hreach : ∃ s : HeapRun ℕ, (heapLts (fun a b => decide (a < b)) 600).Reach s ∧
      s.held = [3] :=
    ⟨_, ⟨⟨_, []⟩, [.insert ⟨true, 0⟩ 1, .insert ⟨true, -derNomem⟩ 2, .insert ⟨true, 0⟩ 3,
      .insert ⟨true, 0⟩ 2, .removeRoot, .remove 2],
      ⟨rfl, fun _ => true, 0, 0, fun _ => 7, rfl⟩, Lts.run_of_exec rfl⟩, rfl⟩
  obtain ⟨s, hs, hheld⟩ := hreach
  exact ⟨s, hs, hheld, ((binheap_sound hcmp 600).2.2 s hs).1⟩

end

end Cart
