/-
The storage of the binary heap (`gurt/heap.c`).

The slots are in fragments of 512 pointers: the first hangs on the heap itself, the next 512
on a directory, and the rest on a directory of directories.  `Laid` says that the memory holds
this tree; growing adds places to it one by one, and destroying takes them away.

Main results: `Wf.dBinheapPointer_eq`, `Wf.grow`.
-/
import Cart.Binheap
import Cart.BlockMemory

namespace Cart

open BlockMemory Function

variable {addr' addr : Place → ℕ}

def dbhShift : ℕ := 9

def dbhMask : ℕ := dbhSize - 1

theorem shiftRight_dbhShift (x : ℕ) : x >>> dbhShift = x / dbhSize :=
  Nat.shiftRight_eq_div_pow x 9

theorem shiftRight_two_dbhShift (x : ℕ) : x >>> (2 * dbhShift) = x / (dbhSize * dbhSize) :=
  Nat.shiftRight_eq_div_pow x 18

theorem and_dbhMask (x : ℕ) : x &&& dbhMask = x % dbhSize :=
  Nat.and_two_pow_sub_one_eq_mod x 9

/-- The part of `struct d_binheap` that holds the slots, and the memory that it
has allocated. -/
structure HeapStore (ν : Type) where
  mem : Mem ν
  dBhHwm : ℕ
  dBhNodes1 : Option ℕ
  dBhNodes2 : Option ℕ
  dBhNodes3 : Option ℕ

namespace HeapStore

variable {ν : Type} {frag2 hwm frag1 : ℕ} {U : Place → Prop} {s' : HeapStore ν}

/-- `h->d_bh_nodes2[i] = frag2`, and the mark. -/
def install2 (i frag2 : ℕ) (s : HeapStore ν) : Option (ℤ × HeapStore ν) :=
  s.dBhNodes2.bind fun nodes2 =>
    (write dbhSize s.mem nodes2 i (.block frag2)).map fun mem =>
      (0, { s with mem := mem, dBhHwm := s.dBhHwm + dbhSize })

section

variable (hwm : ℕ) (s : HeapStore ν)

/-- `d_binheap_grow` where the double indirect is not filled. -/
def growDouble (a b : Option ℕ) (s : HeapStore ν) : Option (ℤ × HeapStore ν) :=
  match a with
  | none => some (-derNomem, s)
  | some frag2 =>
    let mem := calloc frag2 s.mem
    if hwm = 0 then
      match b with
      | none => some (-derNomem, { s with mem := free frag2 mem, dBhNodes2 := none })
      | some nodes2 =>
        ({ s with mem := calloc nodes2 mem, dBhNodes2 := some nodes2 } : HeapStore ν).install2
          (hwm >>> dbhShift) frag2
    else ({ s with mem := mem } : HeapStore ν).install2 (hwm >>> dbhShift) frag2

/-- `frag1[(hwm >> DBH_SHIFT) & DBH_MASK] = frag2`, and the mark. -/
def installFrag (frag1 hwm frag2 : ℕ) (s : HeapStore ν) : Option (ℤ × HeapStore ν) :=
  (write dbhSize s.mem frag1 ((hwm >>> dbhShift) &&& dbhMask) (.block frag2)).map fun mem =>
    (0, { s with mem := mem, dBhHwm := s.dBhHwm + dbhSize })

/-- The end of `d_binheap_grow` for the triple indirect.  `frag1` is a new
directory, or there is one already. -/
def install3 (frag1 : Option ℕ) (hwm frag2 : ℕ) (s : HeapStore ν) : Option (ℤ × HeapStore ν) :=
  s.dBhNodes3.bind fun nodes3 =>
    match frag1 with
    | some frag1 =>
      match read dbhSize s.mem nodes3 (hwm >>> (2 * dbhShift)) with
      | some .null =>
        (write dbhSize s.mem nodes3 (hwm >>> (2 * dbhShift)) (.block frag1)).bind fun mem =>
          ({ s with mem := mem } : HeapStore ν).installFrag frag1 hwm frag2
      | _ => none
    | none =>
      (readBlock dbhSize s.mem nodes3 (hwm >>> (2 * dbhShift))).bind fun frag1 =>
        s.installFrag frag1 hwm frag2

/-- `d_binheap_grow` where the double indirect is filled. -/
def growTriple (a b c : Option ℕ) (s : HeapStore ν) : Option (ℤ × HeapStore ν) :=
  match a with
  | none => some (-derNomem, s)
  | some frag2 =>
    let mem := calloc frag2 s.mem
    if (hwm >>> dbhShift) &&& dbhMask = 0 then
      match b with
      | none => some (-derNomem, { s with mem := free frag2 mem })
      | some frag1 =>
        let mem := calloc frag1 mem
        if hwm = 0 then
          match c with
          | none =>
            some (-derNomem, { s with mem := free frag1 (free frag2 mem), dBhNodes3 := none })
          | some nodes3 =>
            ({ s with mem := calloc nodes3 mem, dBhNodes3 := some nodes3 } :
              HeapStore ν).install3 (some frag1) hwm frag2
        else ({ s with mem := mem } : HeapStore ν).install3 (some frag1) hwm frag2
    else ({ s with mem := mem } : HeapStore ν).install3 none hwm frag2

/-- The calls of `D_ALLOC` return `a`, `b` and `c`, in this order, as far as they are made. -/
def dBinheapGrow (a b c : Option ℕ) (s : HeapStore ν) : Option (ℤ × HeapStore ν) :=
  if s.dBhHwm &&& dbhMask ≠ 0 then none
  else if s.dBhHwm = 0 then
    match a with
    | none => some (-derNomem, { s with dBhNodes1 := none })
    | some nodes1 =>
      some (0, { s with mem := calloc nodes1 s.mem, dBhNodes1 := some nodes1,
                        dBhHwm := s.dBhHwm + dbhSize })
  else
    let hwm := s.dBhHwm - dbhSize
    if hwm < dbhSize * dbhSize then s.growDouble hwm a b
    else
      let hwm := hwm - dbhSize * dbhSize
      if dbhSize * dbhSize * dbhSize ≤ hwm then some (-derNomem, s)
      else s.growTriple hwm a b c

/-- The block and the cell in it. -/
def dBinheapPointer (idx : ℕ) : Option (ℕ × ℕ) :=
  if idx < dbhSize then s.dBhNodes1.map fun nodes1 => (nodes1, idx)
  else
    let idx := idx - dbhSize
    if idx < dbhSize * dbhSize then
      s.dBhNodes2.bind fun nodes2 =>
        (readBlock dbhSize s.mem nodes2 (idx >>> dbhShift)).map fun frag2 => (frag2, idx &&& dbhMask)
    else
      let idx := idx - dbhSize * dbhSize
      s.dBhNodes3.bind fun nodes3 =>
        (readBlock dbhSize s.mem nodes3 (idx >>> (2 * dbhShift))).bind fun frag1 =>
          (readBlock dbhSize s.mem frag1 ((idx >>> dbhShift) &&& dbhMask)).map fun frag2 =>
            (frag2, idx &&& dbhMask)

/-- `*d_binheap_pointer(h, idx)`. -/
def load (idx : ℕ) : Option (Cell ν) :=
  (s.dBinheapPointer idx).bind fun p => read dbhSize s.mem p.1 p.2

/-- `*d_binheap_pointer(h, idx) = e`. -/
def save (idx : ℕ) (e : ν) : Option (HeapStore ν) :=
  (s.dBinheapPointer idx).bind fun p =>
    (write dbhSize s.mem p.1 p.2 (.item e)).map fun mem => { s with mem := mem }

/-- `D_FREE(d[i])`: frees the block and empties the cell. -/
def freeCell (d i : ℕ) (w : Walk ν) : Option (Walk ν) :=
  match read dbhSize w.mem d i with
  | some (.block a) =>
    (w.free (some a)).bind fun w =>
      (write dbhSize w.mem d i .null).map fun mem => { w with mem := mem }
  | some .null => some w
  | _ => none

/-- The loop over the cells of a directory, with `n` slots left to free. -/
def freeLoop (d : ℕ) : ℕ → ℕ → ℕ → Walk ν → Option (ℕ × Walk ν)
  | 0, _, n, w => some (n, w)
  | fuel + 1, i, n, w =>
    if i < dbhSize ∧ 0 < n then
      (freeCell d i w).bind (freeLoop d fuel (i + 1) (n - dbhSize))
    else some (n, w)

/-- The loop over the directories of the triple indirect. -/
def freeLoop3 (nodes3 : ℕ) : ℕ → ℕ → ℕ → Walk ν → Option (ℕ × Walk ν)
  | 0, _, n, w => some (n, w)
  | fuel + 1, i, n, w =>
    if i < dbhSize ∧ 0 < n then
      (readBlock dbhSize w.mem nodes3 i).bind fun frag1 =>
        (freeLoop frag1 dbhSize 0 n w).bind fun (n, w) =>
          (freeCell nodes3 i w).bind (freeLoop3 nodes3 fuel (i + 1) n)
    else some (n, w)

/-- The part of `d_binheap_destroy_inplace` for the double indirect. -/
def destroy2 (n : ℕ) (w : Walk ν) : Option (ℕ × Walk ν) :=
  if 0 < n then
    s.dBhNodes2.bind fun nodes2 =>
      (freeLoop nodes2 dbhSize 0 n w).bind fun (n, w) =>
        (w.free s.dBhNodes2).map fun w => (n, w)
  else some (n, w)

/-- The part of `d_binheap_destroy_inplace` for the triple indirect. -/
def destroy3 (n : ℕ) (w : Walk ν) : Option (ℕ × Walk ν) :=
  if 0 < n then
    s.dBhNodes3.bind fun nodes3 =>
      (freeLoop3 nodes3 dbhSize 0 n w).bind fun (n, w) =>
        (w.free s.dBhNodes3).map fun w => (n, w)
  else some (n, w)

/-- The memory afterwards and the blocks freed. -/
def dBinheapDestroyInplace : Option (Walk ν) :=
  if 0 < s.dBhHwm then
    ((⟨s.mem, []⟩ : Walk ν).free s.dBhNodes1).bind fun w =>
      (s.destroy2 (s.dBhHwm - dbhSize) w).bind fun (n, w) =>
        (s.destroy3 n w).map Prod.snd
  else some ⟨s.mem, []⟩

/-! ### The tree of blocks -/

/-- The blocks of a heap: the fragments with the slots, numbered in the order of
the indices, and the directories. -/
inductive Place where
  | leaf (j : ℕ)
  | dir2
  | dir3
  | mid (m : ℕ)
  deriving DecidableEq

/-- Cell `i` of the first place is for the second. -/
inductive HasCell : Place → ℕ → Place → Prop
  | double {i : ℕ} (hi : i < dbhSize) : HasCell .dir2 i (.leaf (i + 1))
  | triple {m : ℕ} (hm : m < dbhSize) : HasCell .dir3 m (.mid m)
  | middle (m : ℕ) {i : ℕ} (hi : i < dbhSize) :
      HasCell (.mid m) i (.leaf (dbhSize + 1 + dbhSize * m + i))

/-- The places of a heap with so many slots. -/
def Place.Used : Place → Prop
  | .leaf j => dbhSize * j < hwm
  | .dir2 => dbhSize < hwm
  | .dir3 => dbhSize + dbhSize * dbhSize < hwm
  | .mid m => dbhSize + dbhSize * dbhSize + dbhSize * dbhSize * m < hwm

end

namespace HasCell

variable {d d' p p' : Place} {i i' : ℕ}

section

variable (h : HasCell d i p)

include h

theorem lt : i < dbhSize := by
  cases h <;> assumption

theorem place_eq (h' : HasCell d i p') : p = p' := by
  cases h <;> cases h' <;> rfl

open Place

theorem cell_eq (h' : HasCell d' i' p) : d = d' ∧ i = i' := by
  cases h with
  | double hi =>
    generalize hp : leaf _ = p at h'
    cases h' with
    | double hi' =>
      cases hp
      exact ⟨rfl, rfl⟩
    | triple hm => cases hp
    | middle m hi' =>
      have := leaf.inj hp
      rw [dbhSize] at *
      omega
  | triple hm =>
    cases h'
    exact ⟨rfl, rfl⟩
  | middle m hi =>
    generalize hp : leaf _ = p at h'
    cases h' with
    | double hi' =>
      have := leaf.inj hp
      rw [dbhSize] at *
      omega
    | triple hm => cases hp
    | middle m' hi' =>
      have := leaf.inj hp
      rw [dbhSize] at *
      obtain rfl : m = m' := by omega
      exact ⟨rfl, by omega⟩

theorem ne_leaf (j : ℕ) : d ≠ .leaf j := by
  cases h <;> exact fun heq => by cases heq

end

theorem not_leaf {j : ℕ} : ¬ HasCell (.leaf j) i p := fun h => h.ne_leaf j rfl

theorem not_root (d : Place) (i : ℕ) : ¬ HasCell d i (.leaf 0) := by
  intro hc
  generalize hp : Place.leaf 0 = p at hc
  cases hc with
  | double hi | triple hm => cases hp
  | middle m hi =>
    have := Place.leaf.inj hp
    omega

end HasCell

/-- The memory `m` holds the tree of the places `U`, at the addresses `addr`. -/
structure Laid (U : Place → Prop) (addr : Place → ℕ) (m : Mem ν) : Prop where
  inj : ∀ p q, U p → U q → addr p = addr q → p = q
  live : ∀ a, (m a).isSome = true ↔ ∃ p, U p ∧ addr p = a
  cell : ∀ d i p, HasCell d i p → U p →
    U d ∧ read dbhSize m (addr d) i = some (.block (addr p))
  null : ∀ d i p, HasCell d i p → U d → ¬ U p → read dbhSize m (addr d) i = some .null

namespace Laid

variable {U U' U'' : Place → Prop} {addr'' : Place → ℕ} {m m' m'' : Mem ν} {a i : ℕ} {d p : Place}

section

variable (h : Laid U addr m)

include h

theorem isSome (hp : U p) : (m (addr p)).isSome = true :=
  (h.live _).mpr ⟨p, hp, rfl⟩

theorem addr_ne (hp : U p) (ha : m a = none) : addr p ≠ a := by
  rintro rfl
  have := h.isSome hp
  rw [ha] at this
  cases this

theorem congr (hU : ∀ q, U' q ↔ U q) : Laid U' addr m := by
  obtain rfl : U' = U := funext fun q => propext (hU q)
  exact h

/-- A block for one more place.  The cell that belongs to the place points to
it; the other cells are as before. -/
theorem add (hp : ¬ U p) (ha : m a = none) (hnew : m' a = some fun _ => .null)
    (hlive : ∀ x, x ≠ a → (m' x).isSome = (m x).isSome)
    (hcell : ∀ d i, HasCell d i p → U d ∧ read dbhSize m' (addr d) i = some (.block a))
    (hframe : ∀ d i q, HasCell d i q → q ≠ p → U d →
      read dbhSize m' (addr d) i = read dbhSize m (addr d) i) :
    Laid (fun q => U q ∨ q = p) (update addr p a) m' := by
  have hself : update addr p a p = a := update_self _ _ _
  have hold : ∀ q, U q → update addr p a q = addr q := by
    intro q hq
    refine update_of_ne ?_ _ _
    rintro rfl
    exact hp hq
  refine ⟨?_, fun x => ?_, ?_, ?_⟩
  · rintro q r (hq | rfl) (hr | rfl) heq
    · rw [hold q hq, hold r hr] at heq
      exact h.inj q r hq hr heq
    · rw [hold q hq, hself] at heq
      exact absurd heq (h.addr_ne hq ha)
    · rw [hold r hr, hself] at heq
      exact absurd heq.symm (h.addr_ne hr ha)
    · rfl
  · by_cases hx : x = a
    · subst hx
      rw [hnew]
      exact iff_of_true rfl ⟨p, .inr rfl, hself⟩
    · rw [hlive x hx, h.live]
      constructor
      · rintro ⟨q, hq, rfl⟩
        exact ⟨q, .inl hq, hold q hq⟩
      · rintro ⟨q, hq | rfl, heq⟩
        · exact ⟨q, hq, by rw [← heq, hold q hq]⟩
        · rw [hself] at heq
          exact absurd heq.symm hx
  · rintro d i q hc (hq | rfl)
    · obtain ⟨hd, hread⟩ := h.cell d i q hc hq
      refine ⟨.inl hd, ?_⟩
      rw [hold d hd, hold q hq, hframe d i q hc (fun heq => hp (heq ▸ hq)) hd, hread]
    · obtain ⟨hd, hread⟩ := hcell d i hc
      refine ⟨.inl hd, ?_⟩
      rw [hold d hd, hself, hread]
  · rintro d i q hc hd hq
    rw [not_or] at hq
    rcases hd with hd | rfl
    · rw [hold d hd, hframe d i q hc hq.2 hd]
      exact h.null d i q hc hd hq.1
    · rw [hself, BlockMemory.read, if_pos hc.lt, hnew, Option.map_some]

/-- A place at a memory that has been taken care of is no more: the converse of
`add`. -/
theorem remove (hp : U p) (hempty : ∀ i q, HasCell p i q → ¬ U q) (hgone : m' (addr p) = none)
    (hlive : ∀ x, x ≠ addr p → (m' x).isSome = (m x).isSome)
    (hcell : ∀ d i, HasCell d i p → read dbhSize m' (addr d) i = some .null)
    (hframe : ∀ d i q, HasCell d i q → q ≠ p → d ≠ p → U d →
      read dbhSize m' (addr d) i = read dbhSize m (addr d) i) :
    Laid (fun q => U q ∧ q ≠ p) addr m' := by
  refine ⟨fun q r hq hr => h.inj q r hq.1 hr.1, fun x => ?_, ?_, ?_⟩
  · by_cases hx : x = addr p
    · subst hx
      rw [hgone]
      refine iff_of_false Bool.false_ne_true ?_
      rintro ⟨q, ⟨hq, hne⟩, heq⟩
      exact hne (h.inj q p hq hp heq)
    · rw [hlive x hx, h.live]
      refine exists_congr fun q => ⟨fun hq => ⟨⟨hq.1, ?_⟩, hq.2⟩, fun hq => ⟨hq.1.1, hq.2⟩⟩
      rintro rfl
      exact hx hq.2.symm
  · rintro d i q hc ⟨hq, hne⟩
    obtain ⟨hd, hread⟩ := h.cell d i q hc hq
    have hdp : d ≠ p := by
      rintro rfl
      exact hempty i q hc hq
    exact ⟨⟨hd, hdp⟩, (hframe d i q hc hne hdp hd).trans hread⟩
  · rintro d i q hc ⟨hd, hdp⟩ hq
    by_cases hqp : q = p
    · subst hqp
      exact hcell d i hc
    · rw [hframe d i q hc hqp hdp hd]
      exact h.null d i q hc hd fun hu => hq ⟨hu, hqp⟩

end

section

variable (h : Laid U addr m)

include h

theorem root (hp : ¬ U p) (ha : m a = none) (hno : ∀ d i, ¬ HasCell d i p) :
    Laid (fun q => U q ∨ q = p) (update addr p a) (calloc a m) := by
  refine h.add hp ha calloc_self (fun x hx => by rw [calloc_of_ne hx])
    (fun d i hc => absurd hc (hno d i)) fun d i q hc _ hd => ?_
  exact read_congr (calloc_of_ne (h.addr_ne hd ha))

theorem child (hc : HasCell d i p) (hd : U d) (hp : ¬ U p) (ha : m a = none) :
    Laid (fun q => U q ∨ q = p) (update addr p a)
      (setCell (calloc a m) (addr d) i (.block a)) := by
  have hda := h.addr_ne hd ha
  have hlive : (calloc a m (addr d)).isSome = true := by
    rw [calloc_of_ne hda]
    exact h.isSome hd
  refine h.add hp ha ?_ (fun x hx => ?_) (fun d' i' hc' => ?_) fun d' i' q hc' hq hd' => ?_
  · rw [setCell_of_ne hda.symm, calloc_self]
  · rw [isSome_setCell, calloc_of_ne hx]
  · obtain ⟨rfl, rfl⟩ := hc.cell_eq hc'
    exact ⟨hd, read_setCell_self hc.lt hlive⟩
  · rw [read_setCell_of_ne, read_congr (calloc_of_ne (h.addr_ne hd' ha))]
    by_contra hsame
    rw [not_or, not_not, not_not] at hsame
    obtain rfl := h.inj d' d hd' hd hsame.1
    rw [hsame.2] at hc'
    exact hq (hc'.place_eq hc)

theorem dropRoot (hp : U p) (hempty : ∀ i q, HasCell p i q → ¬ U q) (hno : ∀ d i, ¬ HasCell d i p) :
    Laid (fun q => U q ∧ q ≠ p) addr (free (addr p) m) := by
  refine h.remove hp hempty free_self (fun x hx => by rw [free_of_ne hx])
    (fun d i hc => absurd hc (hno d i)) fun d i q hc _ hdp hd => ?_
  exact read_congr (free_of_ne fun heq => hdp (h.inj d p hd hp heq))

theorem dropChild (hc : HasCell d i p) (hp : U p) (hempty : ∀ i q, HasCell p i q → ¬ U q) :
    Laid (fun q => U q ∧ q ≠ p) addr (setCell (free (addr p) m) (addr d) i .null) := by
  have hd := (h.cell d i p hc hp).1
  have hne : ∀ d', U d' → d' ≠ p → addr d' ≠ addr p := fun d' hd' hdp heq =>
    hdp (h.inj d' p hd' hp heq)
  have hdp : d ≠ p := by
    rintro rfl
    exact hempty i d hc hp
  refine h.remove hp hempty ?_ (fun x hx => ?_) (fun d' i' hc' => ?_) fun d' i' q hc' hq hdp' hd' => ?_
  · rw [setCell_of_ne (hne d hd hdp).symm, free_self]
  · rw [isSome_setCell, free_of_ne hx]
  · obtain ⟨rfl, rfl⟩ := hc.cell_eq hc'
    refine read_setCell_self hc.lt ?_
    rw [free_of_ne (hne d hd hdp)]
    exact h.isSome hd
  · rw [read_setCell_of_ne, read_congr (free_of_ne (hne d' hd' hdp'))]
    by_contra hsame
    rw [not_or, not_not, not_not] at hsame
    obtain rfl := h.inj d' d hd' hd hsame.1
    rw [hsame.2] at hc'
    exact hq (hc'.place_eq hc)

end

/-- Nothing has moved, and the fragments hold what they held. -/
structure Grows (U : Place → Prop) (addr : Place → ℕ) (m : Mem ν) (U' : Place → Prop)
    (addr' : Place → ℕ) (m' : Mem ν) : Prop where
  laid : Laid U' addr' m'
  keep : ∀ p, U p → U' p ∧ addr' p = addr p
  slots : ∀ j, U (.leaf j) → m' (addr (.leaf j)) = m (addr (.leaf j))

theorem Grows.trans (h : Grows U addr m U' addr' m') (h' : Grows U' addr' m' U'' addr'' m'') :
    Grows U addr m U'' addr'' m'' := by
  refine ⟨h'.laid, fun p hp => ?_, fun j hj => ?_⟩
  · obtain ⟨hp', heq⟩ := h.keep p hp
    obtain ⟨hp'', heq'⟩ := h'.keep p hp'
    exact ⟨hp'', heq'.trans heq⟩
  · obtain ⟨hj', heq⟩ := h.keep _ hj
    rw [← h.slots j hj, ← heq, h'.slots j hj']

theorem Grows.congr (h : Grows U addr m U' addr' m') (hU : ∀ q, U'' q ↔ U' q) :
    Grows U addr m U'' addr' m' := by
  obtain rfl : U'' = U' := funext fun q => propext (hU q)
  exact h

theorem grows_root (h : Laid U addr m) (hp : ¬ U p) (ha : m a = none)
    (hno : ∀ d i, ¬ HasCell d i p) :
    Grows U addr m (fun q => U q ∨ q = p) (update addr p a) (calloc a m) := by
  refine ⟨h.root hp ha hno, fun q hq => ⟨.inl hq, ?_⟩, fun j hj => ?_⟩
  · exact update_of_ne (fun heq : q = p => hp (heq ▸ hq)) _ _
  · exact calloc_of_ne (h.addr_ne hj ha)

theorem grows_child (h : Laid U addr m) (hc : HasCell d i p) (hd : U d) (hp : ¬ U p)
    (ha : m a = none) : Grows U addr m (fun q => U q ∨ q = p) (update addr p a)
      (setCell (calloc a m) (addr d) i (.block a)) := by
  refine ⟨h.child hc hd hp ha, fun q hq => ⟨.inl hq, ?_⟩, fun j hj => ?_⟩
  · exact update_of_ne (fun heq : q = p => hp (heq ▸ hq)) _ _
  · rw [setCell_of_ne, calloc_of_ne (h.addr_ne hj ha)]
    exact fun heq => hc.ne_leaf j (h.inj _ _ hj hd heq).symm

end Laid

/-- The heap holds the tree for its number of slots. -/
structure Wf (s : HeapStore ν) (addr : Place → ℕ) : Prop where
  hwm_mod : s.dBhHwm % dbhSize = 0
  hwm_le : s.dBhHwm ≤ dbhMax
  laid : Laid (Place.Used s.dBhHwm) addr s.mem
  nodes1 : 0 < s.dBhHwm → s.dBhNodes1 = some (addr (.leaf 0))
  nodes2 : dbhSize < s.dBhHwm → s.dBhNodes2 = some (addr .dir2)
  nodes3 : dbhSize + dbhSize * dbhSize < s.dBhHwm → s.dBhNodes3 = some (addr .dir3)

variable {s : HeapStore ν}

/-! ### Addresses -/

theorem used_leaf {idx : ℕ} (hidx : idx < hwm) : Place.Used hwm (.leaf (idx / dbhSize)) :=
  lt_of_le_of_lt (Nat.mul_div_le idx dbhSize) hidx

/-- **`d_binheap_pointer`** finds the slot in its fragment. -/
theorem Wf.dBinheapPointer_eq (h : s.Wf addr) {idx : ℕ} (hidx : idx < s.dBhHwm) :
    s.dBinheapPointer idx = some (addr (.leaf (idx / dbhSize)), idx % dbhSize) := by
  have hused := used_leaf hidx
  have hmax := h.hwm_le
  rw [dBinheapPointer]
  split_ifs with h1
  · rw [h.nodes1 (by omega), Option.map_some, Nat.div_eq_of_lt h1, Nat.mod_eq_of_lt h1]
  · dsimp only
    rw [shiftRight_dbhShift, and_dbhMask, shiftRight_dbhShift, shiftRight_two_dbhShift, and_dbhMask,
      and_dbhMask]
    by_cases h2 : idx - dbhSize < dbhSize * dbhSize
    · have hcell : HasCell .dir2 ((idx - dbhSize) / dbhSize) (.leaf (idx / dbhSize)) := by
        have heq : idx / dbhSize = (idx - dbhSize) / dbhSize + 1 := by
          simp only [dbhSize] at *
          omega
        rw [heq]
        refine .double ?_
        simp only [dbhSize] at *
        omega
      rw [if_pos h2, h.nodes2 (by omega), Option.bind_some,
        readBlock_of_read (h.laid.cell _ _ _ hcell hused).2, Option.map_some,
        show (idx - dbhSize) % dbhSize = idx % dbhSize by simp only [dbhSize] at *; omega]
    · -- two directories are read on the way
      generalize hm : (idx - dbhSize - dbhSize * dbhSize) / (dbhSize * dbhSize) = m
      generalize hi : (idx - dbhSize - dbhSize * dbhSize) / dbhSize % dbhSize = i
      have hmi : idx / dbhSize = dbhSize + 1 + dbhSize * m + i := by
        simp only [dbhSize] at *
        omega
      have hcell : HasCell (.mid m) i (.leaf (idx / dbhSize)) := by
        rw [hmi]
        refine .middle m ?_
        rw [← hi]
        exact Nat.mod_lt _ (by decide)
      obtain ⟨hmid, hread⟩ := h.laid.cell _ _ _ hcell hused
      have hcell3 : HasCell .dir3 m (.mid m) := by
        refine .triple ?_
        simp only [dbhSize, dbhMax] at *
        omega
      rw [if_neg h2, h.nodes3 (by simp only [dbhSize] at *; omega), Option.bind_some,
        readBlock_of_read (h.laid.cell _ _ _ hcell3 hmid).2, Option.bind_some,
        readBlock_of_read hread, Option.map_some,
        show (idx - dbhSize - dbhSize * dbhSize) % dbhSize = idx % dbhSize by
          simp only [dbhSize] at *; omega]

/-! ### Growth -/

/-- What `D_ALLOC` may return in `d_binheap_grow`: no memory, or an address that
is not in use. -/
structure Fresh (a b c : Option ℕ) (m : Mem ν) : Prop where
  first : ∀ x, a = some x → m x = none
  second : ∀ x, b = some x → m x = none ∧ a ≠ some x
  third : ∀ x, c = some x → m x = none ∧ a ≠ some x ∧ b ≠ some x

/-- The places that a growth adds below the triple indirect. -/
theorem used_add_double (hmod : hwm % dbhSize = 0) (hlt : hwm < dbhSize + dbhSize * dbhSize)
    (q : Place) : Place.Used (hwm + dbhSize) q ↔
      Place.Used hwm q ∨ q = .leaf (hwm / dbhSize) ∨ hwm = dbhSize ∧ q = .dir2 := by
  cases q with
  | leaf j =>
    simp only [Place.Used, Place.leaf.injEq, reduceCtorEq, and_false, or_false, dbhSize] at *
    omega
  | dir2 =>
    simp only [Place.Used, reduceCtorEq, and_true, false_or, dbhSize] at *
    omega
  | dir3 | mid m =>
    simp only [Place.Used, reduceCtorEq, and_false, or_false, dbhSize] at *
    omega

/-- The places that a growth adds in the triple indirect. -/
theorem used_add_triple (hmod : hwm % dbhSize = 0) (hle : dbhSize + dbhSize * dbhSize ≤ hwm)
    (q : Place) : Place.Used (hwm + dbhSize) q ↔
      Place.Used hwm q ∨ q = .leaf (hwm / dbhSize) ∨
        (hwm = dbhSize + dbhSize * dbhSize ∧ q = .dir3) ∨
        ((hwm - dbhSize - dbhSize * dbhSize) % (dbhSize * dbhSize) = 0 ∧
          q = .mid ((hwm - dbhSize - dbhSize * dbhSize) / (dbhSize * dbhSize))) := by
  cases q with
  | leaf j =>
    simp only [Place.Used, Place.leaf.injEq, reduceCtorEq, and_false, or_false, dbhSize] at *
    omega
  | dir2 =>
    simp only [Place.Used, reduceCtorEq, and_false, or_false, dbhSize] at *
    omega
  | dir3 =>
    simp only [Place.Used, reduceCtorEq, and_true, and_false, or_false, false_or, dbhSize] at *
    omega
  | mid m =>
    simp only [Place.Used, Place.mid.injEq, reduceCtorEq, and_false, false_or, dbhSize] at *
    omega

theorem not_used_leaf (hwm : ℕ) (hmod : hwm % dbhSize = 0) :
    ¬ Place.Used hwm (.leaf (hwm / dbhSize)) := by
  simp only [Place.Used, dbhSize] at hmod ⊢
  omega

/-- Nothing has changed but for a pointer to a new directory, or there is a larger tree. -/
inductive GrowResult (s : HeapStore ν) (addr : Place → ℕ) : ℤ → HeapStore ν → Prop
  | failed {s' : HeapStore ν} (hhwm : s'.dBhHwm = s.dBhHwm) (hmem : s'.mem = s.mem)
      (hwf : s'.Wf addr) : GrowResult s addr (-derNomem) s'
  | grown {s' : HeapStore ν} {addr' : Place → ℕ} (hhwm : s'.dBhHwm = s.dBhHwm + dbhSize)
      (hwf : s'.Wf addr')
      (hgrows : Laid.Grows (Place.Used s.dBhHwm) addr s.mem (Place.Used s'.dBhHwm) addr' s'.mem) :
      GrowResult s addr 0 s'

/-- The heap with a larger tree. -/
theorem Wf.grown (h : s.Wf addr) (hlt : s.dBhHwm < dbhMax) (hhwm : s'.dBhHwm = s.dBhHwm + dbhSize)
    (hgrows : Laid.Grows (Place.Used s.dBhHwm) addr s.mem U addr' s'.mem)
    (hU : ∀ q, Place.Used (s.dBhHwm + dbhSize) q ↔ U q) (h1 : s'.dBhNodes1 = some (addr' (.leaf 0)))
    (h2 : dbhSize ≤ s.dBhHwm → s'.dBhNodes2 = some (addr' .dir2))
    (h3 : dbhSize + dbhSize * dbhSize ≤ s.dBhHwm → s'.dBhNodes3 = some (addr' .dir3)) :
    GrowResult s addr 0 s' := by
  have hmod := h.hwm_mod
  have hgrows' := hgrows.congr hU
  rw [← hhwm] at hgrows'
  refine .grown hhwm ⟨?_, ?_, hgrows'.laid, fun _ => h1, fun hlt => h2 ?_, fun hlt => h3 ?_⟩ hgrows'
  · rw [hhwm, Nat.add_mod_right]
    exact hmod
  · simp only [dbhMax, dbhSize] at *
    omega
  · simp only [dbhSize] at *
    omega
  · simp only [dbhSize] at *
    omega

theorem install2_eq {d i : ℕ} (hd : s.dBhNodes2 = some d) (hi : i < dbhSize)
    (hlive : (s.mem d).isSome = true) : s.install2 i frag2 = some (0, { s with
      mem := setCell s.mem d i (.block frag2), dBhHwm := s.dBhHwm + dbhSize }) := by
  unfold install2
  rw [hd, Option.bind_some, write_of_isSome hi hlive, Option.map_some]

theorem installFrag_eq {d : ℕ} (hlive : (s.mem d).isSome = true) :
    s.installFrag d hwm frag2 = some (0, { s with
      mem := setCell s.mem d (hwm / dbhSize % dbhSize) (.block frag2),
      dBhHwm := s.dBhHwm + dbhSize }) := by
  unfold installFrag
  rw [shiftRight_dbhShift, and_dbhMask, write_of_isSome (Nat.mod_lt _ (by decide)) hlive,
    Option.map_some]

theorem install3_none_eq {d m : ℕ} (hd : s.dBhNodes3 = some d)
    (hm : hwm / (dbhSize * dbhSize) = m) (hread : read dbhSize s.mem d m = some (.block frag1)) :
    s.install3 none hwm frag2 = s.installFrag frag1 hwm frag2 := by
  unfold install3
  rw [hd, Option.bind_some, shiftRight_two_dbhShift, hm]
  rw [readBlock_of_read hread, Option.bind_some]

theorem install3_some_eq {d m : ℕ} (hd : s.dBhNodes3 = some d) (hm : hwm / (dbhSize * dbhSize) = m)
    (hlt : m < dbhSize) (hread : read dbhSize s.mem d m = some .null) :
    s.install3 (some frag1) hwm frag2 =
      ({ s with mem := setCell s.mem d m (.block frag1) } : HeapStore ν).installFrag
        frag1 hwm frag2 := by
  unfold install3
  rw [hd, Option.bind_some, shiftRight_two_dbhShift, hm]
  rw [hread]
  dsimp only
  rw [write_of_isSome hlt (isSome_of_read hread), Option.bind_some]

variable {a b c : Option ℕ}

theorem Wf.growFirst (h : s.Wf addr) (h0 : s.dBhHwm = 0) {nodes1 : ℕ} (hfresh : s.mem nodes1 = none) :
    GrowResult s addr 0 { s with
      mem := calloc nodes1 s.mem, dBhNodes1 := some nodes1, dBhHwm := s.dBhHwm + dbhSize } := by
  have hnew : ¬ Place.Used s.dBhHwm (.leaf 0) := by
    rw [h0]
    exact Nat.not_lt_zero _
  refine h.grown (by rw [h0]; decide) rfl (Laid.grows_root h.laid hnew hfresh HasCell.not_root) (fun q => ?_)
    ?_ (fun hle => ?_) fun hle => ?_
  · rw [used_add_double h.hwm_mod (by rw [h0]; decide), h0]
    simp [dbhSize]
  · rw [update_self]
  · rw [h0] at hle
    exact absurd hle (by decide)
  · rw [h0] at hle
    exact absurd hle (by decide)

/-- **`d_binheap_grow`** in the double indirect. -/
theorem Wf.growDouble_spec (h : s.Wf addr) (hf : Fresh a b c s.mem) (hle : dbhSize ≤ s.dBhHwm)
    (hlt : s.dBhHwm - dbhSize < dbhSize * dbhSize) :
    ∃ rc s', s.growDouble (s.dBhHwm - dbhSize) a b = some (rc, s') ∧ GrowResult s addr rc s' := by
  have hmod := h.hwm_mod
  have hmax : s.dBhHwm < dbhMax := by
    simp only [dbhMax, dbhSize] at *
    omega
  have hleaf := not_used_leaf _ hmod
  have h1 := h.nodes1 (lt_of_lt_of_le (by decide) hle)
  have hu1 : Place.Used s.dBhHwm (.leaf 0) := lt_of_lt_of_le (by decide) hle
  -- the triple indirect is not in use
  have hno3 : dbhSize + dbhSize * dbhSize ≤ s.dBhHwm → False := by
    intro hge
    omega
  have hcell : HasCell .dir2 ((s.dBhHwm - dbhSize) / dbhSize) (.leaf (s.dBhHwm / dbhSize)) := by
    rw [show s.dBhHwm / dbhSize = (s.dBhHwm - dbhSize) / dbhSize + 1 by
      simp only [dbhSize] at *; omega]
    exact .double (Nat.div_lt_of_lt_mul hlt)
  unfold growDouble
  cases a with
  | none => exact ⟨_, s, rfl, .failed rfl rfl h⟩
  | some frag2 =>
    have hfrag := hf.first frag2 rfl
    dsimp only
    rw [shiftRight_dbhShift]
    by_cases h0 : s.dBhHwm - dbhSize = 0
    · have heq : s.dBhHwm = dbhSize := by omega
      rw [if_pos h0]
      cases b with
      | none =>
        refine ⟨_, _, rfl, .failed rfl (free_calloc hfrag) ⟨hmod, h.hwm_le, ?_, h.nodes1, ?_, h.nodes3⟩⟩
        · exact (free_calloc hfrag).symm ▸ h.laid
        · intro hgt
          exact absurd heq hgt.ne'
      | some nodes2 =>
        obtain ⟨hnodes, hne⟩ := hf.second nodes2 rfl
        have hne' : frag2 ≠ nodes2 := fun hc => hne (congrArg some hc)
        have hdir : ¬ Place.Used s.dBhHwm .dir2 := by
          rw [heq]
          exact lt_irrefl _
        have hgrows := Laid.grows_root h.laid hdir hnodes fun d i hc => by cases hc
        have hgrows' := Laid.grows_child hgrows.laid hcell (.inr rfl) (by simp [hleaf])
          ((calloc_of_ne hne').trans hfrag)
        rw [update_self, calloc_comm hne'] at hgrows'
        have hlive : (calloc nodes2 (calloc frag2 s.mem) nodes2).isSome = true := by
          rw [calloc_self]
          rfl
        refine ⟨0, _, install2_eq rfl hcell.lt hlive, ?_⟩
        refine h.grown hmax rfl (hgrows.trans hgrows') (fun q => ?_) ?_ (fun _ => ?_)
          fun hge => (hno3 hge).elim
        · rw [used_add_double hmod (by omega), and_iff_right heq, or_assoc, or_comm (a := q = .dir2)]
        · exact h1.trans (congrArg some ((hgrows.trans hgrows').keep _ hu1).2.symm)
        · rw [(hgrows'.keep .dir2 (.inr rfl)).2, update_self]
    · have hdir : Place.Used s.dBhHwm .dir2 := show dbhSize < s.dBhHwm by omega
      have h2 := h.nodes2 hdir
      have hgrows := Laid.grows_child h.laid hcell hdir hleaf hfrag
      have hlive : (calloc frag2 s.mem (addr .dir2)).isSome = true := by
        rw [calloc_of_ne (h.laid.addr_ne hdir hfrag)]
        exact h.laid.isSome hdir
      rw [if_neg h0]
      refine ⟨0, _, install2_eq h2 hcell.lt hlive, ?_⟩
      refine h.grown hmax rfl hgrows (fun q => ?_) ?_ (fun _ => ?_) fun hge => (hno3 hge).elim
      · have hne : s.dBhHwm ≠ dbhSize := by omega
        rw [used_add_double hmod (by omega)]
        simp only [hne, false_and, or_false]
      · exact h1.trans (congrArg some (hgrows.keep _ hu1).2.symm)
      · exact h2.trans (congrArg some (hgrows.keep _ hdir).2.symm)

/-- The new fragment belongs to the triple indirect: it gets cell `j` of the
directory `m`. -/
structure Slot3 (s : HeapStore ν) (hw m j : ℕ) : Prop where
  hwm_eq : s.dBhHwm = dbhSize + dbhSize * dbhSize + hw
  hw_lt : hw < dbhSize * dbhSize * dbhSize
  m_eq : hw / (dbhSize * dbhSize) = m
  j_eq : hw / dbhSize % dbhSize = j

namespace Slot3

variable {hw m j : ℕ} (hs : Slot3 s hw m j)

include hs

theorem m_lt : m < dbhSize := hs.m_eq ▸ Nat.div_lt_of_lt_mul hs.hw_lt

theorem cell (hmod : s.dBhHwm % dbhSize = 0) : HasCell (.mid m) j (.leaf (s.dBhHwm / dbhSize)) := by
  obtain ⟨hwm_eq, _, m_eq, j_eq⟩ := hs
  rw [show s.dBhHwm / dbhSize = dbhSize + 1 + dbhSize * m + j by
    simp only [dbhSize] at *; omega]
  refine .middle m ?_
  rw [← j_eq]
  exact Nat.mod_lt _ (by decide)

theorem used_mid_iff (hmod : s.dBhHwm % dbhSize = 0) : Place.Used s.dBhHwm (.mid m) ↔ j ≠ 0 := by
  obtain ⟨hwm_eq, _, m_eq, j_eq⟩ := hs
  simp only [Place.Used, dbhSize] at *
  omega

theorem used_dir3_iff : Place.Used s.dBhHwm .dir3 ↔ hw ≠ 0 := by
  rw [Place.Used, hs.hwm_eq]
  omega

/-- The heap after a growth in the triple indirect. -/
theorem grown (h : s.Wf addr) (hhwm : s'.dBhHwm = s.dBhHwm + dbhSize)
    (hgrows : Laid.Grows (Place.Used s.dBhHwm) addr s.mem U addr' s'.mem)
    (hU : ∀ q, U q ↔ Place.Used s.dBhHwm q ∨ q = .leaf (s.dBhHwm / dbhSize) ∨
      (hw = 0 ∧ q = .dir3) ∨ (j = 0 ∧ q = .mid m))
    (h1 : s'.dBhNodes1 = s.dBhNodes1) (h2 : s'.dBhNodes2 = s.dBhNodes2)
    (h3 : s'.dBhNodes3 = some (addr' .dir3)) : GrowResult s addr 0 s' := by
  have hle : dbhSize + dbhSize * dbhSize ≤ s.dBhHwm := hs.hwm_eq ▸ Nat.le_add_right _ _
  have hu1 : Place.Used s.dBhHwm (.leaf 0) := lt_of_lt_of_le (by decide) hle
  have hu2 : Place.Used s.dBhHwm .dir2 := lt_of_lt_of_le (by decide) hle
  have hmod := h.hwm_mod
  refine h.grown ?_ hhwm hgrows (fun q => ?_) ?_ (fun _ => ?_) fun _ => h3
  · rw [hs.hwm_eq, dbhMax, pow_two, pow_succ, pow_two]
    exact Nat.add_lt_add_left hs.hw_lt _
  · have hhw : s.dBhHwm - dbhSize - dbhSize * dbhSize = hw := by
      rw [hs.hwm_eq]
      omega
    have hfirst : s.dBhHwm = dbhSize + dbhSize * dbhSize ↔ hw = 0 := by
      rw [hs.hwm_eq]
      omega
    have hnew : hw % (dbhSize * dbhSize) = 0 ↔ j = 0 := by
      have := hs.j_eq
      simp only [dbhSize] at *
      omega
    rw [used_add_triple hmod hle, hU, hhw, hfirst, hnew, hs.m_eq]
  · rw [h1, h.nodes1 hu1, (hgrows.keep _ hu1).2]
  · rw [h2, h.nodes2 hu2, (hgrows.keep _ hu2).2]

section

variable (h : s.Wf addr) (hfrag2 : s.mem frag2 = none)

include h hfrag2

theorem growNext (hj : j ≠ 0) :
    ∃ s', ({ s with mem := calloc frag2 s.mem } : HeapStore ν).install3 none hw frag2 =
      some (0, s') ∧ GrowResult s addr 0 s' := by
  have hcell := hs.cell h.hwm_mod
  have hmid := (hs.used_mid_iff h.hwm_mod).mpr hj
  obtain ⟨hdir, hread⟩ := h.laid.cell _ _ _ (.triple hs.m_lt) hmid
  have h3 := h.nodes3 hdir
  have hgrows := Laid.grows_child h.laid hcell hmid (not_used_leaf _ h.hwm_mod) hfrag2
  have hread' : read dbhSize (calloc frag2 s.mem) (addr .dir3) m =
      some (.block (addr (.mid m))) := by
    rw [read_congr (calloc_of_ne (h.laid.addr_ne hdir hfrag2)), hread]
  have hlive : (calloc frag2 s.mem (addr (.mid m))).isSome = true := by
    rw [calloc_of_ne (h.laid.addr_ne hmid hfrag2)]
    exact h.laid.isSome hmid
  rw [install3_none_eq (s := { s with mem := calloc frag2 s.mem }) h3 hs.m_eq hread',
    installFrag_eq (s := { s with mem := calloc frag2 s.mem }) hlive, hs.j_eq]
  refine ⟨_, rfl, hs.grown h rfl hgrows (fun q => ?_) rfl rfl ?_⟩
  · have hw0 : hw ≠ 0 := hs.used_dir3_iff.mp hdir
    simp only [hj, hw0, false_and, or_false]
  · exact h3.trans (congrArg some (hgrows.keep _ hdir).2.symm)

theorem growDir (hfrag1 : s.mem frag1 = none) (hne : frag2 ≠ frag1) (hj : j = 0) (hw0 : hw ≠ 0) :
    ∃ s', ({ s with mem := calloc frag1 (calloc frag2 s.mem) } : HeapStore ν).install3 (some frag1)
      hw frag2 = some (0, s') ∧ GrowResult s addr 0 s' := by
  have hdir := hs.used_dir3_iff.mpr hw0
  have hmid : ¬ Place.Used s.dBhHwm (.mid m) := by
    rw [hs.used_mid_iff h.hwm_mod]
    exact not_not.mpr hj
  have hcell3 : HasCell .dir3 m (.mid m) := .triple hs.m_lt
  have h3 := h.nodes3 hdir
  have hned1 := h.laid.addr_ne hdir hfrag1
  have hned2 := h.laid.addr_ne hdir hfrag2
  -- the directory, then the fragment
  have hg1 := Laid.grows_child h.laid hcell3 hdir hmid hfrag1
  have hfree : setCell (calloc frag1 s.mem) (addr .dir3) m (.block frag1) frag2 = none := by
    rw [setCell_of_ne hned2.symm, calloc_of_ne hne, hfrag2]
  have hg2 := Laid.grows_child hg1.laid (hs.cell h.hwm_mod) (.inr rfl)
    (by simp [not_used_leaf _ h.hwm_mod]) hfree
  have hmem : setCell (calloc frag1 (calloc frag2 s.mem)) (addr .dir3) m (.block frag1) =
      calloc frag2 (setCell (calloc frag1 s.mem) (addr .dir3) m (.block frag1)) := by
    rw [← setCell_calloc hned2, calloc_comm hne.symm]
  rw [update_self, ← hmem] at hg2
  have hread : read dbhSize (calloc frag1 (calloc frag2 s.mem)) (addr .dir3) m = some .null := by
    rw [read_congr (calloc_of_ne hned1), read_congr (calloc_of_ne hned2)]
    exact h.laid.null _ _ _ hcell3 hdir hmid
  rw [install3_some_eq (s := { s with mem := calloc frag1 (calloc frag2 s.mem) }) h3
    hs.m_eq hs.m_lt hread, installFrag_eq ?_, hs.j_eq]
  · refine ⟨_, rfl, hs.grown h rfl (hg1.trans hg2) (fun q => ?_) rfl rfl ?_⟩
    · simp only [hj, hw0, false_and, false_or, true_and]
      tauto
    · exact h3.trans (congrArg some ((hg1.trans hg2).keep _ hdir).2.symm)
  · show (setCell (calloc frag1 (calloc frag2 s.mem)) (addr .dir3) m _ frag1).isSome = true
    rw [isSome_setCell, calloc_self]
    rfl

theorem growTop {nodes3 : ℕ} (hfrag1 : s.mem frag1 = none) (hnodes : s.mem nodes3 = none)
    (hne21 : frag2 ≠ frag1) (hne23 : frag2 ≠ nodes3) (hne13 : frag1 ≠ nodes3) (hw0 : hw = 0) : ∃ s', ({ s with
        mem := calloc nodes3 (calloc frag1 (calloc frag2 s.mem)), dBhNodes3 := some nodes3 } :
      HeapStore ν).install3 (some frag1) hw frag2 = some (0, s') ∧ GrowResult s addr 0 s' := by
  have hj : j = 0 := by
    rw [← hs.j_eq, hw0]
    rfl
  have hmid : ¬ Place.Used s.dBhHwm (.mid m) := by
    rw [hs.used_mid_iff h.hwm_mod]
    exact not_not.mpr hj
  have hdir : ¬ Place.Used s.dBhHwm .dir3 := by
    rw [hs.used_dir3_iff]
    exact not_not.mpr hw0
  -- the directory of directories, then the directory, then the fragment
  have hg3 := Laid.grows_root h.laid hdir hnodes fun d i hc => by cases hc
  have hg1 := Laid.grows_child hg3.laid (.triple hs.m_lt) (.inr rfl) (by simp [hmid])
    ((calloc_of_ne hne13).trans hfrag1)
  rw [update_self] at hg1
  have hfree : setCell (calloc frag1 (calloc nodes3 s.mem)) nodes3 m (.block frag1) frag2 = none := by
    rw [setCell_of_ne hne23, calloc_of_ne hne21, calloc_of_ne hne23, hfrag2]
  have hg2 := Laid.grows_child hg1.laid (hs.cell h.hwm_mod) (.inr rfl)
    (by simp [not_used_leaf _ h.hwm_mod]) hfree
  have hmem : setCell (calloc nodes3 (calloc frag1 (calloc frag2 s.mem))) nodes3 m (.block frag1) =
      calloc frag2 (setCell (calloc frag1 (calloc nodes3 s.mem)) nodes3 m (.block frag1)) := by
    rw [← setCell_calloc hne23.symm, calloc_comm hne13.symm, calloc_comm hne23.symm,
      calloc_comm hne21.symm]
  rw [update_self, ← hmem] at hg2
  have hread : read dbhSize (calloc nodes3 (calloc frag1 (calloc frag2 s.mem))) nodes3 m =
      some .null := read_calloc_self hs.m_lt
  rw [install3_some_eq (s := { s with
      mem := calloc nodes3 (calloc frag1 (calloc frag2 s.mem)), dBhNodes3 := some nodes3 }) rfl
    hs.m_eq hs.m_lt hread, installFrag_eq ?_, hs.j_eq]
  · refine ⟨_, rfl, hs.grown h rfl ((hg3.trans hg1).trans hg2) (fun q => ?_) rfl rfl ?_⟩
    · simp only [hj, hw0, true_and]
      tauto
    · rw [((hg1.trans hg2).keep .dir3 (.inr rfl)).2, update_self]
  · show (setCell (calloc nodes3 (calloc frag1 (calloc frag2 s.mem))) nodes3 m _ frag1).isSome = true
    rw [isSome_setCell, calloc_of_ne hne13, calloc_self]
    rfl

end

end Slot3

/-- **`d_binheap_grow`** in the triple indirect. -/
theorem Wf.growTriple_spec (h : s.Wf addr) (hf : Fresh a b c s.mem)
    (hle : dbhSize + dbhSize * dbhSize ≤ s.dBhHwm)
    (hlt : s.dBhHwm - dbhSize - dbhSize * dbhSize < dbhSize * dbhSize * dbhSize) :
    ∃ rc s', s.growTriple (s.dBhHwm - dbhSize - dbhSize * dbhSize) a b c = some (rc, s') ∧
      GrowResult s addr rc s' := by
  generalize hhw : s.dBhHwm - dbhSize - dbhSize * dbhSize = hw at hlt ⊢
  have hs : Slot3 s hw (hw / (dbhSize * dbhSize)) (hw / dbhSize % dbhSize) :=
    ⟨by omega, hlt, rfl, rfl⟩
  unfold growTriple
  cases a with
  | none => exact ⟨_, s, rfl, .failed rfl rfl h⟩
  | some frag2 =>
    have hfrag2 := hf.first frag2 rfl
    dsimp only
    rw [shiftRight_dbhShift, and_dbhMask]
    by_cases hj : hw / dbhSize % dbhSize = 0
    · rw [if_pos hj]
      cases b with
      | none =>
        exact ⟨_, _, rfl, .failed rfl (free_calloc hfrag2)
          ⟨h.hwm_mod, h.hwm_le, (free_calloc hfrag2).symm ▸ h.laid, h.nodes1, h.nodes2, h.nodes3⟩⟩
      | some frag1 =>
        obtain ⟨hfrag1, hne⟩ := hf.second frag1 rfl
        have hne21 : frag2 ≠ frag1 := fun hc => hne (congrArg some hc)
        split_ifs with hw0
        · cases c with
          | none =>
            have hmem : free frag1 (free frag2 (calloc frag1 (calloc frag2 s.mem))) = s.mem := by
              rw [calloc_comm hne21.symm, free_calloc, free_calloc hfrag1]
              rw [calloc_of_ne hne21, hfrag2]
            refine ⟨_, _, rfl, .failed rfl hmem
              ⟨h.hwm_mod, h.hwm_le, hmem.symm ▸ h.laid, h.nodes1, h.nodes2, fun hgt => ?_⟩⟩
            exact absurd hw0 (hs.used_dir3_iff.mp hgt)
          | some nodes3 =>
            obtain ⟨hnodes, hne2, hne1⟩ := hf.third nodes3 rfl
            obtain ⟨s', heq, hres⟩ := hs.growTop h hfrag2 hfrag1 hnodes hne21
              (fun hc => hne2 (congrArg some hc)) (fun hc => hne1 (congrArg some hc)) hw0
            exact ⟨0, s', heq, hres⟩
        · obtain ⟨s', heq, hres⟩ := hs.growDir h hfrag2 hfrag1 hne21 hj hw0
          exact ⟨0, s', heq, hres⟩
    · rw [if_neg hj]
      obtain ⟨s', heq, hres⟩ := hs.growNext h hfrag2 hj
      exact ⟨0, s', heq, hres⟩

/-- **`d_binheap_grow`**: no assertion fails, and it leaves everything as it was
or adds a fragment. -/
theorem Wf.grow (h : s.Wf addr) (hf : Fresh a b c s.mem) :
    ∃ rc s', s.dBinheapGrow a b c = some (rc, s') ∧ GrowResult s addr rc s' := by
  unfold dBinheapGrow
  rw [and_dbhMask, if_neg (not_not.mpr h.hwm_mod)]
  by_cases h0 : s.dBhHwm = 0
  · rw [if_pos h0]
    cases a with
    | none =>
      refine ⟨_, _, rfl, .failed rfl rfl ⟨h.hwm_mod, h.hwm_le, h.laid, fun hgt => ?_, h.nodes2, h.nodes3⟩⟩
      exact absurd h0 hgt.ne'
    | some nodes1 => exact ⟨0, _, rfl, h.growFirst h0 (hf.first nodes1 rfl)⟩
  · have hmod := h.hwm_mod
    have hle : dbhSize ≤ s.dBhHwm := by
      simp only [dbhSize] at *
      omega
    rw [if_neg h0]
    by_cases h2 : s.dBhHwm - dbhSize < dbhSize * dbhSize
    · rw [if_pos h2]
      exact h.growDouble_spec hf hle h2
    · rw [if_neg h2]
      by_cases h3 : dbhSize * dbhSize * dbhSize ≤ s.dBhHwm - dbhSize - dbhSize * dbhSize
      · rw [if_pos h3]
        exact ⟨_, s, rfl, .failed rfl rfl h⟩
      · rw [if_neg h3]
        exact h.growTriple_spec hf (by omega) (not_le.mp h3)

end HeapStore

end Cart
