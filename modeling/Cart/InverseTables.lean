/-
Pairs of tables that are inverse to each other.

A partial bijection is stored in a table for each direction.  The two are inverse again after a
pair is entered whose ends are in neither (`InverseTables.insert`), and after one is taken out
(`InverseTables.erase`).
-/
import Mathlib.Tactic
import Mathlib.Data.PEquiv

open Function Option

/-- Each table has the pairs of the other, turned around. -/
def InverseTables {α β : Type*} (f : α → Option β) (g : β → Option α) : Prop :=
  ∀ a b, f a = some b ↔ g b = some a

namespace InverseTables

variable {α β : Type*} {f : α → Option β} {g : β → Option α} {a : α} {b : β}

theorem empty : InverseTables (fun _ : α => (none : Option β)) fun _ => none := by
  intro a b
  simp

/-- The partial bijection that the tables store. -/
def toPEquiv (h : InverseTables f g) : α ≃. β where
  toFun := f
  invFun := g
  inv a b := (h a b).symm

theorem injective (h : InverseTables f g) {a' : α} (ha : f a = some b) (ha' : f a' = some b) :
    a' = a :=
  some.inj (((h a' b).mp ha').symm.trans ((h a b).mp ha))

section

variable [DecidableEq α] [DecidableEq β]

/-- A pair whose ends are both new. -/
theorem insert (h : InverseTables f g) (ha : f a = none) (hb : g b = none) :
    InverseTables (update f a (some b)) (update g b (some a)) := by
  intro x y
  by_cases hx : x = a
  · subst hx
    rw [update_self, some.injEq]
    by_cases hy : y = b
    · subst hy
      rw [update_self]
      exact iff_of_true rfl rfl
    · rw [update_of_ne hy, ← h, ha]
      exact iff_of_false (Ne.symm hy) (some_ne_none y).symm
  · rw [update_of_ne hx]
    by_cases hy : y = b
    · subst hy
      rw [update_self, some.injEq, h, hb]
      exact iff_of_false (some_ne_none x).symm (Ne.symm hx)
    · rw [update_of_ne hy]
      exact h x y

/-- A pair is taken out of both tables. -/
theorem erase (h : InverseTables f g) (ha : f a = some b) :
    InverseTables (update f a none) (update g b none) := by
  intro x y
  by_cases hx : x = a
  · subst hx
    rw [update_self]
    refine iff_of_false (some_ne_none y).symm fun hy => ?_
    by_cases hyb : y = b
    · rw [hyb, update_self] at hy
      cases hy
    · rw [update_of_ne hyb, ← h, ha] at hy
      exact hyb (some.inj hy).symm
  · rw [update_of_ne hx]
    by_cases hy : y = b
    · subst hy
      rw [update_self]
      exact iff_of_false (fun hxy => hx (h.injective ha hxy)) (some_ne_none x).symm
    · rw [update_of_ne hy]
      exact h x y

end

end InverseTables
