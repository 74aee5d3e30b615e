/-
Hash functions (`gurt/hash.c`).

`d_hash_mix64` is a chain of two kinds of steps, each of which can be undone: a product with an
odd number, written with shifts, and `x ^ (x >> n)`.  `d_hash_srch_u64` is a binary search for
the last hash that is not above a value.

Main results: `hash_mix64_injective`, `hash_srch_u64`.
-/
import Mathlib.Data.BitVec
import Mathlib.Tactic.IntervalCases
import Mathlib.Tactic.Ring

open Function BitVec

namespace Cart

/-! ### Mixing -/

def dHashMix64 (key : BitVec 64) : BitVec 64 :=
  let key := ~~~key + (key <<< 21)
  let key := key ^^^ (key >>> 24)
  let key := key + (key <<< 3) + (key <<< 8)
  let key := key ^^^ (key >>> 14)
  let key := key + (key <<< 2) + (key <<< 4)
  let key := key ^^^ (key >>> 28)
  key + (key <<< 31)

/-- A product with a number that has an inverse can be undone. -/
theorem injective_of_eq_mul {w : ℕ} {f : BitVec w → BitVec w} {c d b : BitVec w}
    (hf : ∀ x, f x = c * x + b) (h : d * c = 1) : Injective f := by
  refine LeftInverse.injective (g := fun y => d * (y - b)) fun x => ?_
  dsimp only
  rw [hf, add_sub_cancel_right, ← mul_assoc, h, one_mul]

/-- The bits are known from the top down. -/
theorem xor_ushiftRight_injective {w n : ℕ} (hn : 0 < n) :
    Injective fun x : BitVec w => x ^^^ (x >>> n) := by
  intro x y hxy
  have hbit : ∀ k i, w ≤ i + k → x.getLsbD i = y.getLsbD i := by
    intro k
    induction k with
    | zero =>
      intro i hi
      rw [x.getLsbD_of_ge i hi, y.getLsbD_of_ge i hi]
    | succ k ih =>
      intro i hi
      have hi' := congrArg (·.getLsbD i) hxy
      simp only [getLsbD_xor, getLsbD_ushiftRight] at hi'
      rw [ih (n + i) (by omega)] at hi'
      exact Bool.xor_left_inj.mp hi'
  exact eq_of_getLsbD_eq fun i _ => hbit w i (Nat.le_add_left w i)

/-- **`d_hash_mix64`** gives different words for different words. -/
theorem hash_mix64_injective : Injective dHashMix64 := by
  have hnot : Injective fun x : BitVec 64 => ~~~x + x <<< 21 := by
    refine injective_of_eq_mul (c := twoPow 64 21 - 1) (d := 9223367638806167551#64) (b := -1)
      (fun x => ?_) (by decide)
    rw [eq_sub_of_add_eq (neg_eq_not_add x).symm, shiftLeft_eq_mul_twoPow]
    change -x - 1 + _ = _
    ring
  have hmul (m n : ℕ) (d : BitVec 64)
      (h : d * (1 + twoPow 64 m + twoPow 64 n) = 1) :
      Injective fun x : BitVec 64 => x + x <<< m + x <<< n := by
    refine injective_of_eq_mul (b := 0) (fun x => ?_) h
    rw [shiftLeft_eq_mul_twoPow, shiftLeft_eq_mul_twoPow]
    ring
  have hlast : Injective fun x : BitVec 64 => x + x <<< 31 := by
    refine injective_of_eq_mul (c := 1 + twoPow 64 31) (d := 4611686016279904257#64) (b := 0)
      (fun x => ?_) (by decide)
    rw [shiftLeft_eq_mul_twoPow]
    ring
  -- the steps, from the last one to the first
  exact hlast.comp <| (xor_ushiftRight_injective (n := 28) (by decide)).comp <|
    (hmul 2 4 14933078535860113213#64 (by decide)).comp <| (xor_ushiftRight_injective (n := 14) (by decide)).comp <|
    (hmul 3 8 15244667743933553977#64 (by decide)).comp <| (xor_ushiftRight_injective (n := 24) (by decide)).comp hnot

/-! ### Searching -/

/-- The loop of `d_hash_srch_u64`; the first argument bounds the rounds.  A read outside of the
array and an `int` that overflows give nothing. -/
def srchLoop (hashes : ℕ → ℕ) (nhashes value : ℕ) : ℕ → ℕ → ℕ → ℕ → Option (ℕ × ℕ)
  | 0, _, _, _ => none
  | fuel + 1, i, low, high =>
    if 1 < high - low then
      if nhashes ≤ i then none
      else
        let low' := if hashes i ≤ value then i else low
        let high' := if hashes i ≤ value then high else i
        if 2 ^ 31 ≤ low' + high' then none
        else srchLoop hashes nhashes value fuel ((low' + high') / 2) low' high'
    else some (low, high)

def dHashSrchU64 (hashes : ℕ → ℕ) (nhashes value : ℕ) : Option ℕ :=
  let high := nhashes - 1
  match srchLoop hashes nhashes value nhashes (high / 2) 0 high with
  | none => none
  | some (low, high) => if nhashes ≤ high then none else if hashes high ≤ value then high else low

section

variable (hashes : ℕ → ℕ) {nhashes : ℕ} (value : ℕ)

/-- The hash at `low` is not above the value, and the one at `high` is, unless they are the ends. -/
structure Brackets (hashes : ℕ → ℕ) (nhashes value : ℕ) (low high : ℕ) : Prop where
  le : low ≤ high
  lt : high < nhashes
  low : low = 0 ∨ hashes low ≤ value
  high : high + 1 = nhashes ∨ value < hashes high

/-- Every round halves what is between the ends. -/
theorem srchLoop_spec (hmax : nhashes ≤ 2 ^ 30) (fuel : ℕ) : ∀ low high,
    Brackets hashes nhashes value low high → high - low < fuel →
    ∃ low' high', srchLoop hashes nhashes value fuel ((low + high) / 2) low high =
        some (low', high') ∧ Brackets hashes nhashes value low' high' ∧ high' ≤ low' + 1 := by
  induction fuel with
  | zero => exact fun low high _ hfuel => absurd hfuel (Nat.not_lt_zero _)
  | succ fuel ih =>
    intro low high h hfuel
    have hlt := h.lt
    rw [srchLoop]
    split
    · rw [if_neg (by omega)]
      by_cases hi : hashes ((low + high) / 2) ≤ value
      · rw [if_pos hi, if_pos hi, if_neg (by omega)]
        exact ih _ high ⟨by omega, h.lt, .inr hi, h.high⟩ (by omega)
      · rw [if_neg hi, if_neg hi, if_neg (by omega)]
        exact ih low _ ⟨by omega, by omega, h.low, .inr (not_le.mp hi)⟩ (by omega)
    · exact ⟨low, high, rfl, h, by omega⟩

/-- **`d_hash_srch_u64`** ends, and finds the last hash that is not above the value, or `0` if
all of them are. -/
theorem hash_srch_u64 (hpos : 0 < nhashes) (hmax : nhashes ≤ 2 ^ 30)
    (hsorted : ∀ i j, i ≤ j → j < nhashes → hashes i ≤ hashes j) :
    ∃ i, dHashSrchU64 hashes nhashes value = some i ∧ i < nhashes ∧
      (hashes 0 ≤ value → hashes i ≤ value ∧ (i + 1 = nhashes ∨ value < hashes (i + 1))) ∧
      (value < hashes 0 → i = 0) := by
  obtain ⟨low, high, hloop, h, hnext⟩ := srchLoop_spec hashes value hmax nhashes 0
    (nhashes - 1) ⟨Nat.zero_le _, by omega, .inl rfl, .inl (by omega)⟩ (by omega)
  rw [Nat.zero_add] at hloop
  rw [dHashSrchU64, hloop]
  dsimp only
  rw [if_neg (not_le.mpr h.lt)]
  split_ifs with hhigh
  · refine ⟨high, rfl, h.lt, fun _ => ⟨hhigh, ?_⟩, fun hfirst => ?_⟩
    · exact .inl (h.high.resolve_right (not_lt.mpr hhigh))
    · exact absurd (hhigh.trans_lt hfirst) (not_lt.mpr (hsorted 0 high (Nat.zero_le _) h.lt))
  · rw [not_le] at hhigh
    refine ⟨low, rfl, h.le.trans_lt h.lt, fun hfirst => ?_, fun hfirst => ?_⟩
    · have hlow : hashes low ≤ value := h.low.elim (fun hzero => hzero ▸ hfirst) id
      have hne : low ≠ high := by
        rintro rfl
        exact absurd hhigh (not_lt.mpr hlow)
      have hle := h.le
      obtain rfl : high = low + 1 := by omega
      exact ⟨hlow, .inr hhigh⟩
    · refine h.low.resolve_right fun hlow => ?_
      exact absurd (hlow.trans_lt hfirst)
        (not_lt.mpr (hsorted 0 low (Nat.zero_le _) (h.le.trans_lt h.lt)))

/-- The first of two equal hashes is passed over. -/
theorem hash_srch_u64_twice : dHashSrchU64 (fun i => if i < 2 then 5 else 9) 3 7 = some 1 := by
  obtain ⟨i, heq, hlt, hle, _⟩ := hash_srch_u64 (fun i => if i < 2 then 5 else 9) 7
    (show 0 < 3 by decide) (by decide) fun i j hij _ => by split <;> split <;> omega
  rw [heq]
  revert hle
  interval_cases i <;> decide

end

end Cart
