/-
Arrays that grow.

An array is extended on demand, and the new elements are empty.  Whoever reads it
takes an element that is not there for an empty one, so that growing cannot be
seen (`GrowArray.getD_grow`), and writing one element changes what is read at its
index only (`GrowArray.getD_set`).
-/
import Mathlib.Tactic

open List

namespace GrowArray

variable {α : Type*} {empty : α} {l : List α} {i n : ℕ}

/-- The array with `n` elements at least. -/
def grow (empty : α) (n : ℕ) (l : List α) : List α := l ++ List.replicate (n - l.length) empty

theorem grow_of_le (h : n ≤ l.length) : grow empty n l = l := by
  rw [grow, Nat.sub_eq_zero_of_le h, replicate_zero, append_nil]

theorem le_length_grow : n ≤ (grow empty n l).length := by
  rw [grow, length_append, length_replicate]
  omega

theorem getElem?_grow_of_lt (h : i < l.length) : (grow empty n l)[i]? = l[i]? :=
  getElem?_append_left h

theorem getElem?_grow_of_le (hl : l.length ≤ i) (hi : i < n) : (grow empty n l)[i]? = some empty := by
  rw [grow, getElem?_append_right hl, getElem?_replicate, if_pos (by omega)]

theorem getD_grow : (grow empty n l).getD i empty = l.getD i empty := by
  rw [getD_eq_getElem?_getD, getD_eq_getElem?_getD]
  by_cases hl : i < l.length
  · rw [getElem?_grow_of_lt hl]
  · rw [getElem?_eq_none (not_lt.mp hl)]
    by_cases hi : i < n
    · rw [getElem?_grow_of_le (not_lt.mp hl) hi]
      rfl
    · rw [getElem?_eq_none]
      rw [grow, length_append, length_replicate]
      omega

theorem getD_set (h : i < l.length) (a : α) (j : ℕ) :
    (l.set i a).getD j empty = if j = i then a else l.getD j empty := by
  rw [getD_eq_getElem?_getD, getD_eq_getElem?_getD, getElem?_set]
  by_cases hj : j = i
  · rw [if_pos hj.symm, if_pos hj, if_pos h]
    rfl
  · rw [if_neg (Ne.symm hj), if_neg hj]

end GrowArray
