/-
The order of an implicit binary heap.

Positions `0, 1, …, n - 1` form a binary tree in which `i > 0` hangs below
`par i = (i - 1) / 2`.  Keys are `Ordered` if none is smaller than the one above it; while a
heap is being repaired this holds `Around` one position only.

Main results: `Around.swap_up`, `Around.swap_down`.
-/
import Mathlib.Tactic

open Function

namespace HeapOrder

variable {K : Type*} [Preorder K]

/-- The position above. -/
def par (i : ℕ) : ℕ := (i - 1) / 2

theorem par_lt {i : ℕ} (h : 0 < i) : par i < i := by
  rw [par]
  omega

theorem par_eq_iff {i a : ℕ} (h : 0 < i) : par i = a ↔ i = 2 * a + 1 ∨ i = 2 * a + 2 := by
  rw [par]
  omega

/-- No key is smaller than the one above it. -/
def Ordered (n : ℕ) (k : ℕ → K) : Prop := ∀ i, 0 < i → i < n → k (par i) ≤ k i

/-- The keys are in order, the position `c` left out. -/
structure Around (n : ℕ) (k : ℕ → K) (c : ℕ) : Prop where
  edge : ∀ i, 0 < i → i < n → i ≠ c → par i ≠ c → k (par i) ≤ k i
  skip : 0 < c → ∀ i, 0 < i → i < n → par i = c → k (par c) ≤ k i

/-- The key at `c` is in order with the one above. -/
def Up (k : ℕ → K) (c : ℕ) : Prop := 0 < c → k (par c) ≤ k c

/-- The key at `c` is in order with those below. -/
def Down (n : ℕ) (k : ℕ → K) (c : ℕ) : Prop := ∀ i, 0 < i → i < n → par i = c → k c ≤ k i

variable {n c : ℕ} {k : ℕ → K}

theorem Around.ordered (h : Around n k c) (hup : Up k c) (hdown : Down n k c) : Ordered n k := by
  intro i hi hn
  by_cases hic : i = c
  · subst hic
    exact hup hi
  · by_cases hpc : par i = c
    · rw [hpc]
      exact hdown i hi hn hpc
    · exact h.edge i hi hn hic hpc

theorem Ordered.around (h : Ordered n k) (hc : c < n) : Around n k c where
  edge i hi hn _ _ := h i hi hn
  skip hc0 i hi hn hpi := (h c hc0 hc).trans (hpi ▸ h i hi hn)

theorem Ordered.root_le (h : Ordered n k) : ∀ i, i < n → k 0 ≤ k i := by
  intro i
  induction i using Nat.strong_induction_on with
  | _ i ih =>
    intro hn
    by_cases hi : i = 0
    · rw [hi]
    · have hlt := par_lt (Nat.pos_of_ne_zero hi)
      exact (ih (par i) hlt (hlt.trans hn)).trans (h i (Nat.pos_of_ne_zero hi) hn)

theorem Around.congr {k' : ℕ → K} (h : Around n k c) (heq : ∀ i, i < n → i ≠ c → k' i = k i)
    (hc : c < n) : Around n k' c where
  edge i hi hn hic hpc := by
    rw [heq i hn hic, heq _ ((par_lt hi).trans hn) hpc]
    exact h.edge i hi hn hic hpc
  skip hc0 i hi hn hpi := by
    have hlt := par_lt hc0
    have hic : i ≠ c := fun heq => by
      have := par_lt hi
      omega
    rw [heq i hn hic, heq _ (hlt.trans hc) hlt.ne]
    exact h.skip hc0 i hi hn hpi

/-- **Moving up**: the key at `c` changes places with a larger one above. -/
theorem Around.swap_up (h : Around n k c) (hc0 : 0 < c) (hc : c < n) (hle : k c ≤ k (par c)) :
    Around n (k ∘ Equiv.swap c (par c)) (par c) ∧ Down n (k ∘ Equiv.swap c (par c)) (par c) := by
  have hp := par_lt hc0
  -- below the new place: the old parent, and the other child of the old parent
  have hbelow : ∀ i, 0 < i → i < n → par i = par c → i ≠ c → k (par c) ≤ k i := by
    intro i hi hn hpi hic
    have := h.edge i hi hn hic (hpi ▸ hp.ne)
    rwa [hpi] at this
  have hother : ∀ i, i ≠ c → i ≠ par c → (k ∘ Equiv.swap c (par c)) i = k i := by
    intro i hic hip
    rw [comp_apply, Equiv.swap_apply_of_ne_of_ne hic hip]
  have hc' : (k ∘ Equiv.swap c (par c)) c = k (par c) := by
    rw [comp_apply, Equiv.swap_apply_left]
  have hp' : (k ∘ Equiv.swap c (par c)) (par c) = k c := by
    rw [comp_apply, Equiv.swap_apply_right]
  refine ⟨⟨?_, ?_⟩, ?_⟩
  · intro i hi hn hip hpp
    have hic : i ≠ c := fun heq => hpp (heq ▸ rfl)
    rw [hother i hic hip]
    by_cases hpc : par i = c
    · rw [hpc, hc']
      exact h.skip hc0 i hi hn hpc
    · rw [hother (par i) hpc hpp]
      exact h.edge i hi hn hic hpc
  · intro hp0 i hi hn hpi
    have hpp := par_lt hp0
    have htop : k (par (par c)) ≤ k (par c) :=
      h.edge (par c) hp0 (hp.trans hc) hp.ne (hpp.trans hp).ne
    rw [hother _ (hpp.trans hp).ne hpp.ne]
    by_cases hic : i = c
    · rwa [hic, hc']
    · rw [hother i hic (fun heq => by have := par_lt hi; omega)]
      exact htop.trans (hbelow i hi hn hpi hic)
  · intro i hi hn hpi
    rw [hp']
    by_cases hic : i = c
    · rwa [hic, hc']
    · rw [hother i hic (fun heq => by have := par_lt hi; omega)]
      exact hle.trans (hbelow i hi hn hpi hic)

/-- **Moving down**: the key at `a` changes places with the smallest one below,
which is smaller. -/
theorem Around.swap_down {a : ℕ} (h : Around n k a) (hc0 : 0 < c) (hpc : par c = a)
    (hmin : ∀ i, 0 < i → i < n → par i = a → k c ≤ k i) (hc : c < n) (hle : k c ≤ k a) :
    Around n (k ∘ Equiv.swap a c) c ∧ Up (k ∘ Equiv.swap a c) c := by
  have hac : a < c := hpc ▸ par_lt hc0
  have hother : ∀ i, i ≠ a → i ≠ c → (k ∘ Equiv.swap a c) i = k i := by
    intro i hia hic
    rw [comp_apply, Equiv.swap_apply_of_ne_of_ne hia hic]
  have ha' : (k ∘ Equiv.swap a c) a = k c := by
    rw [comp_apply, Equiv.swap_apply_left]
  have hc' : (k ∘ Equiv.swap a c) c = k a := by
    rw [comp_apply, Equiv.swap_apply_right]
  refine ⟨⟨?_, ?_⟩, ?_⟩
  · intro i hi hn hic hpi
    have hplt := par_lt hi
    by_cases hia : i = a
    · subst hia
      rw [ha', hother _ hplt.ne hpi]
      exact h.skip hi c hc0 hc hpc
    · rw [hother i hia hic]
      by_cases hpa : par i = a
      · rw [hpa, ha']
        exact hmin i hi hn hpa
      · rw [hother _ hpa hpi]
        exact h.edge i hi hn hia hpa
  · intro _ i hi hn hpi
    have hplt := par_lt hi
    rw [hpc, ha', hother i (by omega) (by omega)]
    have := h.edge i hi hn (by omega) (by omega)
    rwa [hpi] at this
  · intro _
    rwa [hpc, ha', hc']

end HeapOrder
