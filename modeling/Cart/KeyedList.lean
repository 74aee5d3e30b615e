/-
Lists of records with distinct keys.

A pointer to a node of a linked list is the node's key.  A node is changed in place
(`modifyAt`) or taken out (`eraseAt`); the others hold the same before and after
(`perm_cons_eraseAt`, `modifyAt_perm`).
-/
import Mathlib.Data.List.Nodup
import Mathlib.Data.List.Perm.Basic
import Mathlib.Data.List.Flatten

open List

namespace KeyedList

variable {α β κ : Type*} [DecidableEq κ] {key : α → κ} {k : κ} {g : α → α} {a b : α} {l : List α}

/-- The records with the key are replaced. -/
def modifyAt (key : α → κ) (k : κ) (g : α → α) (l : List α) : List α :=
  l.map fun a => if key a = k then g a else a

/-- The records with the key are taken out. -/
def eraseAt (key : α → κ) (k : κ) (l : List α) : List α := l.filter fun a => key a ≠ k

theorem mem_eraseAt : a ∈ eraseAt key k l ↔ a ∈ l ∧ key a ≠ k := by
  simp [eraseAt]

theorem eraseAt_sublist : (eraseAt key k l).Sublist l := filter_sublist

/-- What a change leaves alone is the same all over the list. -/
theorem map_modifyAt {f : α → β} (h : ∀ a, f (g a) = f a) :
    (modifyAt key k g l).map f = l.map f := by
  rw [modifyAt, map_map]
  refine map_congr_left fun a _ => ?_
  show f (if key a = k then g a else a) = f a
  split_ifs
  · exact h a
  · rfl

theorem eraseAt_of_forall_ne (h : ∀ a ∈ l, key a ≠ k) : eraseAt key k l = l :=
  filter_eq_self.mpr fun a ha => decide_eq_true (h a ha)

theorem perm_cons_eraseAt (hnodup : (l.map key).Nodup) (ha : a ∈ l) :
    l.Perm (a :: eraseAt key (key a) l) := by
  induction l with
  | nil => cases ha
  | cons b l ih =>
    obtain ⟨hb, hl⟩ := nodup_cons.mp hnodup
    have hne : ∀ c ∈ l, key c ≠ key b := fun c hc h => hb (h ▸ mem_map_of_mem hc)
    rcases mem_cons.mp ha with rfl | ha
    · have herase : eraseAt key (key a) (a :: l) = l := by
        rw [eraseAt, filter_cons_of_neg (by simp)]
        exact eraseAt_of_forall_ne hne
      rw [herase]
    · have herase : eraseAt key (key a) (b :: l) = b :: eraseAt key (key a) l :=
        filter_cons_of_pos (by simp [(hne a ha).symm])
      rw [herase]
      exact ((ih hl ha).cons b).trans (Perm.swap a b _)

/-- A change in place touches one record. -/
theorem modifyAt_perm (hnodup : (l.map key).Nodup) (ha : a ∈ l) :
    (modifyAt key (key a) g l).Perm (g a :: eraseAt key (key a) l) := by
  refine ((perm_cons_eraseAt hnodup ha).map _).trans ?_
  rw [map_cons, if_pos rfl]
  refine Perm.cons _ (Perm.of_eq ?_)
  refine (map_congr_left fun c hc => ?_).trans (map_id _)
  rw [if_neg (mem_eraseAt.mp hc).2]
  rfl

end KeyedList
