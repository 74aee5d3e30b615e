/-
Slot arrays with a list of free indices.

A slot that holds nothing has a value set aside for that, and its index is in a list from
which the next slot is taken and to which a slot goes back, in whatever order.

Main results: `FreeSlots`, `occupied_fill`, `occupied_clear`, `erase_occupied_fill`,
`occupied_clear_eq`, `Spare`.
-/
import Mathlib.Tactic

open List Option

namespace FreeSlots

variable {α : Type*} {empty a : α} {slots : List α} {free : List ℕ} {i : ℕ}

theorem set_empty_eq (hi : slots[i]? = some empty) : slots.set i empty = slots := by
  obtain ⟨_, rfl⟩ := List.getElem?_eq_some_iff.mp hi
  exact set_getElem_self _

variable [DecidableEq α]

/-- The values in the slots that are in use, in slot order. -/
def occupied (empty : α) (slots : List α) : List α := slots.filter fun a => a ≠ empty

theorem mem_occupied : a ∈ occupied empty slots ↔ a ∈ slots ∧ a ≠ empty := by
  rw [occupied, mem_filter, decide_eq_true_iff]

theorem occupied_cons_of_ne (h : a ≠ empty) :
    occupied empty (a :: slots) = a :: occupied empty slots :=
  filter_cons_of_pos (decide_eq_true h)

theorem occupied_cons_self : occupied empty (empty :: slots) = occupied empty slots :=
  filter_cons_of_neg (by simp)

theorem not_mem_occupied : empty ∉ occupied empty slots := fun hmem => (mem_occupied.mp hmem).2 rfl

theorem occupied_grow (n : ℕ) :
    occupied empty (slots ++ replicate n empty) = occupied empty slots := by
  rw [occupied, filter_append, filter_replicate_of_neg (by simp), append_nil]
  rfl

/-- The place of a value that is put into an empty slot. -/
theorem occupied_fill_eq (hi : slots[i]? = some empty) (ha : a ≠ empty) :
    ∃ l₁ l₂, occupied empty slots = l₁ ++ l₂ ∧ occupied empty (slots.set i a) = l₁ ++ a :: l₂ := by
  obtain ⟨hlt, hget⟩ := List.getElem?_eq_some_iff.mp hi
  refine ⟨occupied empty (slots.take i), occupied empty (slots.drop (i + 1)), ?_, ?_⟩
  · have hsplit : slots.take i ++ empty :: slots.drop (i + 1) = slots := by
      rw [← hget, getElem_cons_drop, take_append_drop]
    have hocc : occupied empty (slots.take i ++ empty :: slots.drop (i + 1)) = occupied empty slots :=
      congrArg _ hsplit
    rw [← hocc, occupied, filter_append, ← occupied, ← occupied, occupied_cons_self]
  · rw [set_eq_take_append_cons_drop, if_pos hlt, occupied, filter_append, ← occupied, ← occupied,
      occupied_cons_of_ne ha]

theorem occupied_fill (hi : slots[i]? = some empty) (ha : a ≠ empty) :
    (occupied empty (slots.set i a)).Perm (a :: occupied empty slots) := by
  obtain ⟨l₁, l₂, hold, hnew⟩ := occupied_fill_eq hi ha
  rw [hold, hnew]
  exact perm_middle

theorem occupied_clear (hi : slots[i]? = some a) (ha : a ≠ empty) :
    (occupied empty slots).Perm (a :: occupied empty (slots.set i empty)) := by
  obtain ⟨hlt, hget⟩ := List.getElem?_eq_some_iff.mp hi
  have hback : (slots.set i empty).set i a = slots := by
    rw [set_set, ← hget, set_getElem_self]
  have hempty : (slots.set i empty)[i]? = some empty := by
    rw [getElem?_set_self hlt]
  have hperm := occupied_fill hempty ha
  rwa [hback] at hperm

theorem erase_occupied_fill (hi : slots[i]? = some empty) (ha : a ∉ occupied empty slots) :
    (occupied empty (slots.set i a)).erase a = occupied empty slots := by
  by_cases hempty : a = empty
  · rw [hempty, set_empty_eq hi]
    exact erase_of_not_mem not_mem_occupied
  · obtain ⟨l₁, l₂, hold, hnew⟩ := occupied_fill_eq hi hempty
    rw [hold] at ha
    have hl₁ : a ∉ l₁ := fun hmem => ha (mem_append_left _ hmem)
    rw [hnew, hold, erase_append_right _ hl₁, erase_cons_head]

theorem occupied_clear_eq (hi : slots.idxOf? a = some i) :
    occupied empty (slots.set i empty) = (occupied empty slots).erase a := by
  by_cases ha : a = empty
  · obtain ⟨hlt, hget, _⟩ := idxOf?_eq_some_iff.mp hi
    rw [ha] at hget ⊢
    rw [set_empty_eq (List.getElem?_eq_some_iff.mpr ⟨hlt, hget⟩)]
    exact (erase_of_not_mem not_mem_occupied).symm
  induction slots generalizing i with
  | nil => cases hi
  | cons b slots ih =>
    rw [idxOf?_cons] at hi
    by_cases hb : b = a
    · subst hb
      rw [if_pos (beq_self_eq_true b)] at hi
      cases hi
      rw [set_cons_zero, occupied_cons_self, occupied_cons_of_ne ha, erase_cons_head]
    · rw [if_neg (by simpa using hb)] at hi
      obtain ⟨j, hj, rfl⟩ := map_eq_some_iff.mp hi
      rw [set_cons_succ]
      by_cases hempty : b = empty
      · rw [hempty, occupied_cons_self, occupied_cons_self]
        exact ih hj
      · rw [occupied_cons_of_ne hempty, occupied_cons_of_ne hempty, ih hj,
          erase_cons_tail (by simpa using hb)]

end FreeSlots

/-- `free` has the index of every empty slot, once, and no other. -/
structure FreeSlots {α : Type*} (empty : α) (slots : List α) (free : List ℕ) : Prop where
  nodup : free.Nodup
  mem : ∀ i, i ∈ free ↔ slots[i]? = some empty

namespace FreeSlots

variable {α : Type*} {empty : α} {slots : List α} {free : List ℕ} {i : ℕ}

/-- The indices in `free` are those of empty slots, each once; there may be others. -/
structure Spare (empty : α) (slots : List α) (free : List ℕ) : Prop where
  nodup : free.Nodup
  isEmpty : ∀ i ∈ free, slots[i]? = some empty

theorem Spare.grown (empty : α) (slots : List α) (n : ℕ) :
    Spare empty (slots ++ replicate n empty) (range' slots.length n) := by
  refine ⟨nodup_range', fun i hi => ?_⟩
  obtain ⟨hle, hlt⟩ := mem_range'_1.mp hi
  rw [getElem?_append_right hle, getElem?_replicate, if_pos (by omega)]

theorem Spare.fill (h : Spare empty slots (i :: free)) (a : α) :
    Spare empty (slots.set i a) free := by
  obtain ⟨hi, hnodup⟩ := nodup_cons.mp h.nodup
  refine ⟨hnodup, fun j hj => ?_⟩
  have hne : i ≠ j := by
    rintro rfl
    exact hi hj
  rw [getElem?_set_ne hne]
  exact h.isEmpty j (mem_cons_of_mem _ hj)

theorem spare (h : FreeSlots empty slots free) : Spare empty slots free :=
  ⟨h.nodup, fun i hi => (h.mem i).mp hi⟩

theorem nil : FreeSlots empty [] [] :=
  ⟨.nil, fun _ => by simp⟩

theorem count (h : FreeSlots empty slots free) [DecidableEq α] (i : ℕ) :
    free.count i = if slots[i]? = some empty then 1 else 0 := by
  split_ifs with hi
  · exact count_eq_one_of_mem h.nodup ((h.mem i).mpr hi)
  · exact count_eq_zero.mpr fun hmem => hi ((h.mem i).mp hmem)

theorem grow (h : FreeSlots empty slots free) (n : ℕ) :
    FreeSlots empty (slots ++ replicate n empty) (free ++ range' slots.length n) := by
  have hlt : ∀ i ∈ free, i < slots.length := fun i hi =>
    (List.getElem?_eq_some_iff.mp ((h.mem i).mp hi)).1
  refine ⟨?_, fun i => ?_⟩
  · refine h.nodup.append nodup_range' fun i hi hnew => ?_
    have := (mem_range'_1.mp hnew).1
    have := hlt i hi
    omega
  · rw [mem_append, mem_range'_1]
    by_cases hi : i < slots.length
    · rw [getElem?_append_left hi, h.mem]
      exact ⟨fun hor => hor.resolve_right fun hnew => absurd hi (Nat.not_lt.mpr hnew.1), .inl⟩
    · rw [getElem?_append_right (Nat.not_lt.mp hi), getElem?_replicate]
      constructor
      · rintro (hmem | hnew)
        · exact absurd (hlt i hmem) hi
        · rw [if_pos (by omega)]
      · intro hsome
        split at hsome
        · exact .inr ⟨by omega, by omega⟩
        · cases hsome

theorem fill (h : FreeSlots empty slots (i :: free)) {a : α} (ha : a ≠ empty) :
    FreeSlots empty (slots.set i a) free := by
  obtain ⟨hi, hnodup⟩ := nodup_cons.mp h.nodup
  refine ⟨hnodup, fun j => ?_⟩
  by_cases hj : j = i
  · subst hj
    have hlt := (List.getElem?_eq_some_iff.mp ((h.mem j).mp mem_cons_self)).1
    rw [getElem?_set_self hlt, some.injEq]
    exact iff_of_false hi ha
  · rw [getElem?_set_ne (Ne.symm hj), ← h.mem j, mem_cons]
    exact ⟨.inr, fun hor => hor.resolve_left hj⟩

theorem clear (h : FreeSlots empty slots free) {a : α} (hi : slots[i]? = some a)
    (ha : a ≠ empty) : FreeSlots empty (slots.set i empty) (i :: free) := by
  have hlt := (List.getElem?_eq_some_iff.mp hi).1
  have hfree : i ∉ free := fun hmem =>
    ha (Option.some.inj (hi.symm.trans ((h.mem i).mp hmem)))
  refine ⟨nodup_cons.mpr ⟨hfree, h.nodup⟩, fun j => ?_⟩
  by_cases hj : j = i
  · subst hj
    rw [List.getElem?_set_self hlt]
    exact iff_of_true mem_cons_self rfl
  · rw [List.getElem?_set_ne (Ne.symm hj), ← h.mem j, mem_cons]
    exact ⟨fun hor => hor.resolve_left hj, .inr⟩

end FreeSlots
