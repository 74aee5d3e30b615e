/-
A memory of blocks.

Blocks of `size` cells are allocated at addresses and freed again; a cell is empty, holds an
item, or points to another block.  Access outside of a block is an error.  `Freed` says what a
sequence of frees has done.
-/
import Mathlib.Tactic

open Function List Option

namespace BlockMemory

/-- What a cell holds. -/
inductive Cell (ν : Type) where
  | null
  | item (x : ν)
  | block (a : ℕ)

/-- The blocks by address. -/
abbrev Mem (ν : Type) := ℕ → Option (ℕ → Cell ν)

variable {ν : Type}

section

variable (size : ℕ) (m : Mem ν) (a i : ℕ) (c : Cell ν)

/-- A block of empty cells at the address `a`. -/
def calloc (m : Mem ν) : Mem ν := Function.update m a (some fun _ => .null)

def free (m : Mem ν) : Mem ν := Function.update m a none

/-- Overwrites a cell of an allocated block. -/
def setCell : Mem ν :=
  Function.update m a ((m a).map fun b => Function.update b i c)

/-- A cell within the bounds of an allocated block. -/
def read : Option (Cell ν) :=
  if i < size then (m a).map (· i) else none

/-- Follows the pointer in a cell. -/
def readBlock : Option ℕ :=
  match read size m a i with
  | some (.block b) => some b
  | _ => none

def write : Option (Mem ν) :=
  if i < size ∧ (m a).isSome = true then some (setCell m a i c) else none

end

variable {m : Mem ν} {a b i j size : ℕ} {c : Cell ν}

@[simp] theorem calloc_self : calloc a m a = some fun _ => .null := update_self _ _ _

theorem calloc_of_ne (h : b ≠ a) : calloc a m b = m b := update_of_ne h _ _

@[simp] theorem free_self : free a m a = none := update_self _ _ _

theorem free_of_ne (h : b ≠ a) : free a m b = m b := update_of_ne h _ _

theorem setCell_of_ne (h : b ≠ a) : setCell m a i c b = m b := update_of_ne h _ _

theorem free_calloc (h : m a = none) : free a (calloc a m) = m := by
  rw [free, calloc, update_idem, ← h, update_eq_self]

theorem calloc_comm (h : a ≠ b) : calloc a (calloc b m) = calloc b (calloc a m) :=
  update_comm h.symm _ _ _

theorem setCell_calloc (h : b ≠ a) : setCell (calloc a m) b i c = calloc a (setCell m b i c) := by
  rw [setCell, setCell, calloc_of_ne h, calloc, calloc, update_comm h]

@[simp] theorem isSome_setCell : (setCell m a i c b).isSome = (m b).isSome := by
  by_cases h : b = a
  · subst h
    rw [setCell, update_self, isSome_map]
  · rw [setCell_of_ne h]

theorem read_congr {m' : Mem ν} (h : m' a = m a) : read size m' a i = read size m a i := by
  rw [read, read, h]

theorem read_calloc_self (hi : i < size) : read size (calloc a m) a i = some .null := by
  rw [read, if_pos hi, calloc_self, map_some]

theorem read_setCell_self (hi : i < size) (ha : (m a).isSome = true) :
    read size (setCell m a i c) a i = some c := by
  obtain ⟨b, hb⟩ := isSome_iff_exists.mp ha
  rw [read, if_pos hi, setCell, update_self, hb, map_some, map_some,
    update_self]

theorem read_setCell_of_ne (h : b ≠ a ∨ j ≠ i) :
    read size (setCell m a i c) b j = read size m b j := by
  by_cases hb : b = a
  · subst hb
    have hj : j ≠ i := h.resolve_left (fun hne => hne rfl)
    rw [read, read, setCell, update_self, Option.map_map]
    congr 2
    funext blk
    exact update_of_ne hj _ _
  · exact read_congr (setCell_of_ne hb)

theorem readBlock_of_read (h : read size m a i = some (.block b)) :
    readBlock size m a i = some b := by
  rw [readBlock, h]

theorem write_of_isSome (hi : i < size) (ha : (m a).isSome = true) :
    write size m a i c = some (setCell m a i c) := if_pos ⟨hi, ha⟩

theorem isSome_of_read (h : read size m a i = some c) : (m a).isSome = true := by
  rw [read] at h
  split at h
  · rw [← isSome_map, h, isSome_some]
  · cases h

/-! ### Sequences of frees -/

/-- The memory in the middle of a sequence of frees, and the blocks freed. -/
structure Walk (ν : Type) where
  mem : Mem ν
  freed : List ℕ

/-- `free(p)`. -/
def Walk.free (p : Option ℕ) (w : Walk ν) : Option (Walk ν) :=
  match p with
  | none => some w
  | some a =>
    if (w.mem a).isSome = true then some ⟨BlockMemory.free a w.mem, w.freed ++ [a]⟩ else none

/-- What has been freed of the blocks of `m`. -/
structure Freed (m : Mem ν) (w : Walk ν) : Prop where
  mem_iff : ∀ a, a ∈ w.freed ↔ (m a).isSome = true ∧ w.mem a = none
  sub : ∀ a, (w.mem a).isSome = true → (m a).isSome = true
  nodup : w.freed.Nodup

theorem Freed.start (m : Mem ν) : Freed m ⟨m, []⟩ := by
  refine ⟨fun a => iff_of_false not_mem_nil ?_, fun a ha => ha, nodup_nil⟩
  rintro ⟨hsome, hnone⟩
  rw [show m a = none from hnone] at hsome
  cases hsome

theorem Freed.free {w w' : Walk ν} {p : Option ℕ} (h : Freed m w) (hw : w.free p = some w') :
    Freed m w' := by
  cases p with
  | none =>
    cases hw
    exact h
  | some a =>
    rw [Walk.free] at hw
    by_cases ha : (w.mem a).isSome = true
    · rw [if_pos ha] at hw
      cases hw
      have hnot : a ∉ w.freed := by
        intro hmem
        rw [((h.mem_iff a).mp hmem).2] at ha
        cases ha
      refine ⟨fun x => ?_, fun x hx => ?_, ?_⟩
      · show x ∈ w.freed ++ [a] ↔ (m x).isSome = true ∧ BlockMemory.free a w.mem x = none
        rw [mem_append, mem_singleton]
        by_cases hxa : x = a
        · subst hxa
          simp [h.sub x ha]
        · rw [h.mem_iff, free_of_ne hxa]
          simp [hxa]
      · by_cases hxa : x = a
        · subst hxa
          exact h.sub x ha
        · refine h.sub x ?_
          rw [← free_of_ne (m := w.mem) hxa]
          exact hx
      · rw [nodup_append]
        refine ⟨h.nodup, nodup_singleton a, fun x hx y hy => ?_⟩
        rw [mem_singleton.mp hy]
        rintro rfl
        exact hnot hx
    · rw [if_neg ha] at hw
      cases hw

theorem Freed.setCell {w : Walk ν} (h : Freed m w) (a i : ℕ) (c : Cell ν) :
    Freed m ⟨setCell w.mem a i c, w.freed⟩ := by
  refine ⟨fun x => ?_, fun x hx => ?_, h.nodup⟩
  · rw [h.mem_iff, ← not_isSome_iff_eq_none, ← not_isSome_iff_eq_none, isSome_setCell]
  · rw [isSome_setCell] at hx
    exact h.sub x hx

end BlockMemory
