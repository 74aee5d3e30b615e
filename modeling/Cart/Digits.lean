/-
Numbers written in base `r`, and the lowest non-zero digit.

`AddsDigit r p d i c` says that `c` is `p` with the digit `i ≠ 0` put at position `d`, where
all digits of `p` up to this position are zero.  Every positive number arises in exactly one
way, so `p` is the parent of `c` in a tree on the natural numbers rooted at `0`.

Main results: `AddsDigit.unique`, `addsDigit_of_digit`, `AddsDigit.lt`.
-/
import Mathlib.Tactic

namespace Digits

/-- `c` is `p` plus the digit `i` at position `d`, below every digit of `p`. -/
structure AddsDigit (r p d i c : ℕ) : Prop where
  pos : 1 ≤ i
  lt_base : i < r
  dvd : r ^ (d + 1) ∣ p
  eq : c = p + i * r ^ d

variable {r p d i c : ℕ}

section

variable (h : AddsDigit r p d i c)

include h

theorem AddsDigit.lt : p < c := by
  have hr : 0 < r := lt_of_le_of_lt (Nat.zero_le i) h.lt_base
  have : 0 < i * r ^ d := Nat.mul_pos h.pos (Nat.pow_pos hr)
  rw [h.eq]
  omega

theorem AddsDigit.digit_lt : i * r ^ d < r ^ (d + 1) := by
  have hr : 0 < r := lt_of_le_of_lt (Nat.zero_le i) h.lt_base
  rw [pow_succ, mul_comm (r ^ d) r]
  exact Nat.mul_lt_mul_of_pos_right h.lt_base (Nat.pow_pos hr)

/-- The digit at position `d`, with everything above it dropped. -/
theorem AddsDigit.mod_eq : c % r ^ (d + 1) = i * r ^ d := by
  obtain ⟨q, hq⟩ := h.dvd
  rw [h.eq, hq, Nat.mul_add_mod, Nat.mod_eq_of_lt h.digit_lt]

theorem AddsDigit.pow_dvd : r ^ d ∣ c := by
  rw [h.eq]
  exact dvd_add (dvd_trans (pow_dvd_pow r (Nat.le_succ d)) h.dvd) (dvd_mul_left _ _)

theorem AddsDigit.not_pow_dvd : ¬ r ^ (d + 1) ∣ c := by
  intro hd
  have hr : 0 < r := lt_of_le_of_lt (Nat.zero_le i) h.lt_base
  have hpos : 0 < i * r ^ d := Nat.mul_pos h.pos (Nat.pow_pos hr)
  have hmod := h.mod_eq
  rw [Nat.mod_eq_zero_of_dvd hd] at hmod
  omega

/-- The position, the digit and the rest are determined by the number. -/
theorem AddsDigit.unique {p' d' i' : ℕ} (h' : AddsDigit r p' d' i' c) : p = p' ∧ d = d' ∧ i = i' := by
  have hr : 0 < r := lt_of_le_of_lt (Nat.zero_le i) h.lt_base
  -- `r ^ d` is the exact power of `r` in `c`, from either side.
  have hdd : d = d' := by
    rcases lt_trichotomy d d' with hlt | heq | hgt
    · exact absurd (dvd_trans (pow_dvd_pow r hlt) h'.pow_dvd) h.not_pow_dvd
    · exact heq
    · exact absurd (dvd_trans (pow_dvd_pow r hgt) h.pow_dvd) h'.not_pow_dvd
  subst hdd
  have hii : i * r ^ d = i' * r ^ d := by rw [← h.mod_eq, ← h'.mod_eq]
  have hi : i = i' := Nat.eq_of_mul_eq_mul_right (Nat.pow_pos hr) hii
  refine ⟨?_, rfl, hi⟩
  have h1 := h.eq
  have h2 := h'.eq
  omega

/-- Above the added digit, `c` and `p` have the same digits. -/
theorem AddsDigit.div_eq {e : ℕ} (he : d < e) : c / r ^ e = p / r ^ e := by
  obtain ⟨k, rfl⟩ : ∃ k, e = d + 1 + k := ⟨e - (d + 1), by omega⟩
  obtain ⟨q, hq⟩ := h.dvd
  have hr : 0 < r := lt_of_le_of_lt (Nat.zero_le i) h.lt_base
  have hpow : 0 < r ^ (d + 1) := Nat.pow_pos hr
  have hc : c / r ^ (d + 1) = q := by
    rw [h.eq, hq, Nat.mul_add_div hpow, Nat.div_eq_of_lt h.digit_lt, add_zero]
  have hp : p / r ^ (d + 1) = q := by
    rw [hq, Nat.mul_div_cancel_left _ hpow]
  rw [pow_add, ← Nat.div_div_eq_div_mul, ← Nat.div_div_eq_div_mul, hc, hp]

end

theorem digit_eq_zero_of_dvd {x k e : ℕ} (h : r ^ k ∣ x) (he : e < k) : x / r ^ e % r = 0 := by
  obtain ⟨m, rfl⟩ : ∃ m, k = e + 1 + m := ⟨k - (e + 1), by omega⟩
  obtain ⟨q, rfl⟩ := h
  rcases eq_zero_or_pos r with rfl | hr
  · simp
  · rw [show r ^ (e + 1 + m) * q = r ^ e * (r * (r ^ m * q)) by ring,
      Nat.mul_div_cancel_left _ (Nat.pow_pos hr), Nat.mul_mod_right]

/-- A power that divides the number, and a zero digit right above it. -/
theorem pow_succ_dvd {x e : ℕ} (h : r ^ e ∣ x) (h0 : x / r ^ e % r = 0) : r ^ (e + 1) ∣ x := by
  obtain ⟨q, rfl⟩ := h
  rcases eq_zero_or_pos (r ^ e) with hz | hpos
  · rw [pow_succ, hz]
    simp
  · rw [Nat.mul_div_cancel_left _ hpos] at h0
    rw [pow_succ]
    exact Nat.mul_dvd_mul_left _ (Nat.dvd_of_mod_eq_zero h0)

/-- The lowest non-zero digit of `x`, found by scanning upwards. -/
theorem addsDigit_of_digit {x e : ℕ} (hr : 0 < r) (h : r ^ e ∣ x) (h0 : x / r ^ e % r ≠ 0) :
    AddsDigit r (x - x / r ^ e % r * r ^ e) e (x / r ^ e % r) x := by
  obtain ⟨q, rfl⟩ := h
  have hpos : 0 < r ^ e := Nat.pow_pos hr
  rw [Nat.mul_div_cancel_left _ hpos] at h0 ⊢
  have hsub : r ^ e * q - q % r * r ^ e = r ^ e * (q - q % r) := by
    rw [Nat.mul_sub, mul_comm (q % r)]
  refine ⟨pos_of_ne_zero h0, Nat.mod_lt _ hr, ?_, ?_⟩
  · rw [hsub, pow_succ]
    exact Nat.mul_dvd_mul_left _ (Nat.dvd_sub_mod q)
  · rw [hsub, Nat.mul_sub, mul_comm (q % r)]
    have := Nat.mul_le_mul_left (r ^ e) (Nat.mod_le q r)
    omega

end Digits
