/-
The k-nomial topology (`crt_tree_knomial.c`).

A tree rank is written in base `ratio`.  The children of `self` put one non-zero digit below
its lowest non-zero digit, up to the first rank outside the group; the parent clears this
digit.  The two agree on every group of at most `2 ^ 31` nodes, without a `uint32_t` wrap and
without a failed digit assertion.

Main result: `knomial_law`.
-/
import Cart.Digits
import Cart.TreeRank

open Function List

open Digits

namespace Cart

/-- The array is zeroed before use; positions from `ndigits` on stay zero. -/
structure KnomialNumber where
  digits : ℕ → ℕ
  ndigits : ℕ
  ratio : ℕ

/-- The loop of `knomial_number_2_int`, from the highest digit down. -/
def knomialNumber2IntLoop (n : KnomialNumber) : ℕ → ℕ → ℕ
  | 0, index => index
  | i + 1, index => knomialNumber2IntLoop n i (u32 (index * n.ratio + n.digits i))

def knomialNumber2Int (n : KnomialNumber) : ℕ := knomialNumber2IntLoop n n.ndigits 0

/-- The loop of `int_2_knomial_number`; the assertion fails when no slot is
left. -/
def int2KnomialNumberLoop (ratio : ℕ) : ℕ → ℕ → KnomialNumber → Except Stop KnomialNumber
  | 0, x, n => if x = 0 then .ok n else .error .assertFail
  | slots + 1, x, n =>
    if x = 0 then .ok n
    else int2KnomialNumberLoop ratio slots (x / ratio)
      { n with
        digits := Function.update n.digits n.ndigits (x % ratio)
        ndigits := n.ndigits + 1 }

def int2KnomialNumber (x ratio : ℕ) : Except Stop KnomialNumber :=
  int2KnomialNumberLoop ratio crtTreeMaxRatio x ⟨fun _ => 0, 0, ratio⟩

/-- The inner loop of `knomial_get_children`; a child outside the group ends the function
(`true`). -/
def knomialRowLoop (self size inc : ℕ) : ℕ → ℕ → ChildBuf → Bool × ChildBuf
  | 0, _, b => (false, b)
  | k + 1, i, b =>
    let child := u32 (self + i * inc)
    if size ≤ child then (true, b)
    else knomialRowLoop self size inc k (i + 1) (b.put child)

/-- The outer loop of `knomial_get_children`. -/
def knomialDigitLoop (n : KnomialNumber) (self size ratio : ℕ) :
    ℕ → ℕ → ℕ → ChildBuf → ChildBuf
  | 0, _, _, b => b
  | k + 1, digit, inc, b =>
    if n.ndigits < digit ∨ n.digits digit = 0 then
      match knomialRowLoop self size inc (ratio - 1) 1 b with
      | (true, b') => b'
      | (false, b') => knomialDigitLoop n self size ratio k (digit + 1) (u32 (inc * ratio)) b'
    else b

def knomialGetChildren : ChildKernel := fun children self size ratio => do
  dAssert (self < size)
  let n ← int2KnomialNumber self ratio
  return knomialDigitLoop n self size ratio crtTreeMaxRatio 0 1 ⟨0, children⟩

/-- The loop of `knomial_get_parent`. -/
def clearLowestDigit (n : KnomialNumber) : ℕ → ℕ → KnomialNumber
  | 0, _ => n
  | k + 1, i =>
    if n.digits i ≠ 0 then { n with digits := Function.update n.digits i 0 }
    else clearLowestDigit n k (i + 1)

def knomialGetParent : ParentKernel := fun self ratio => do
  let n ← int2KnomialNumber self ratio
  return knomialNumber2Int (clearLowestDigit n n.ndigits 0)

/-! ### Numbers and their digits -/

/-- `n` holds the base-`ratio` digits of `x`. -/
structure Represents (n : KnomialNumber) (x ratio : ℕ) : Prop where
  digits : ∀ e, n.digits e = x / ratio ^ e % ratio
  high : x / ratio ^ n.ndigits = 0
  ratio_eq : n.ratio = ratio

section

variable {ratio size : ℕ} {n : KnomialNumber}

/-- The conversion invariant: the digits below `ndigits` are written, the rest
of the number is still in `x`. -/
theorem int2KnomialNumberLoop_spec (hr : 2 ≤ ratio) {X : ℕ} :
    ∀ (slots x : ℕ) (n : KnomialNumber), x < 2 ^ slots → x = X / ratio ^ n.ndigits →
      (∀ e, e < n.ndigits → n.digits e = X / ratio ^ e % ratio) →
      (∀ e, n.ndigits ≤ e → n.digits e = 0) → n.ratio = ratio →
      ∃ n', int2KnomialNumberLoop ratio slots x n = .ok n' ∧ Represents n' X ratio := by
  have done : ∀ n : KnomialNumber, 0 = X / ratio ^ n.ndigits →
      (∀ e, e < n.ndigits → n.digits e = X / ratio ^ e % ratio) →
      (∀ e, n.ndigits ≤ e → n.digits e = 0) → n.ratio = ratio → Represents n X ratio := by
    intro n hx hlow hhigh hratio
    refine ⟨fun e => ?_, hx.symm, hratio⟩
    by_cases he : e < n.ndigits
    · exact hlow e he
    · obtain ⟨k, rfl⟩ : ∃ k, e = n.ndigits + k := ⟨e - n.ndigits, by omega⟩
      rw [hhigh _ (Nat.le_add_right _ _), pow_add, ← Nat.div_div_eq_div_mul, ← hx]
      simp
  intro slots
  induction slots with
  | zero =>
    intro x n hx hX hlow hhigh hratio
    have hx0 : x = 0 := by omega
    subst hx0
    exact ⟨n, by rw [int2KnomialNumberLoop, if_pos rfl], done n hX hlow hhigh hratio⟩
  | succ slots ih =>
    intro x n hx hX hlow hhigh hratio
    by_cases hx0 : x = 0
    · subst hx0
      exact ⟨n, by rw [int2KnomialNumberLoop, if_pos rfl], done n hX hlow hhigh hratio⟩
    · rw [int2KnomialNumberLoop, if_neg hx0]
      refine ih _ _ ?_ ?_ ?_ ?_ hratio
      · -- dividing by a ratio of at least two frees one bit
        have hle : x / ratio ≤ x / 2 := Nat.div_le_div_left hr (by omega)
        rw [pow_succ] at hx
        omega
      · rw [hX, Nat.div_div_eq_div_mul, pow_succ]
      · intro e he
        by_cases heq : e = n.ndigits
        · subst heq
          simp only [update_self]
          rw [hX]
        · simp only [update_of_ne heq]
          exact hlow e (by simp only at he; omega)
      · intro e he
        have hne : e ≠ n.ndigits := by
          simp only at he
          omega
        simp only [update_of_ne hne]
        exact hhigh e (by simp only at he; omega)

theorem int2KnomialNumber_spec (hr : 2 ≤ ratio) {x : ℕ} (hx : x < 2 ^ 32) :
    ∃ n, int2KnomialNumber x ratio = .ok n ∧ Represents n x ratio := by
  refine int2KnomialNumberLoop_spec hr _ _ _ (lt_trans hx ?_) (by simp) (by simp) (by simp) rfl
  norm_num [crtTreeMaxRatio]

/-- Horner's scheme recovers a 32-bit number from its digits. -/
theorem knomialNumber2IntLoop_eq {v : ℕ} (hv : v < 2 ^ 32)
    (hd : ∀ e, n.digits e = v / n.ratio ^ e % n.ratio) :
    ∀ i, knomialNumber2IntLoop n i (v / n.ratio ^ i) = v := by
  intro i
  induction i with
  | zero => simp [knomialNumber2IntLoop]
  | succ i ih =>
    have hstep : v / n.ratio ^ (i + 1) * n.ratio + n.digits i = v / n.ratio ^ i := by
      rw [hd, pow_succ, ← Nat.div_div_eq_div_mul]
      exact Nat.div_add_mod' _ _
    rw [knomialNumber2IntLoop, hstep, u32_of_lt (lt_of_le_of_lt (Nat.div_le_self _ _) hv)]
    exact ih

/-! ### The parent -/

/-- The scan stops at the lowest non-zero digit and clears it. -/
theorem clearLowestDigit_spec (hr : 2 ≤ ratio) {x : ℕ} (hn : Represents n x ratio) (hx : 0 < x) :
    ∀ k i, i + k = n.ndigits → ratio ^ i ∣ x →
      ∃ d, x / ratio ^ d % ratio ≠ 0 ∧ ratio ^ d ∣ x ∧
        clearLowestDigit n k i = { n with digits := update n.digits d 0 } := by
  intro k
  induction k with
  | zero =>
    intro i hi hdvd
    -- all digits are zero: only for `x = 0`
    obtain ⟨q, hq⟩ := hdvd
    have hhigh := hn.high
    rw [← hi, Nat.add_zero, hq, Nat.mul_div_cancel_left _ (Nat.pow_pos (by omega))] at hhigh
    rw [hq, hhigh] at hx
    omega
  | succ k ih =>
    intro i hi hdvd
    by_cases h0 : n.digits i = 0
    · have hdvd' : ratio ^ (i + 1) ∣ x := pow_succ_dvd hdvd (by rw [← hn.digits, h0])
      obtain ⟨d, hd0, hd, heq⟩ := ih (i + 1) (by omega) hdvd'
      refine ⟨d, hd0, hd, ?_⟩
      rw [clearLowestDigit, if_neg (by simpa using h0), heq]
    · refine ⟨i, by rwa [← hn.digits], hdvd, ?_⟩
      rw [clearLowestDigit, if_pos h0]

/-- `knomial_get_parent` clears the lowest non-zero digit. -/
theorem knomialGetParent_spec (hr : 2 ≤ ratio) {c : ℕ} (hc : 0 < c) (hlt : c < 2 ^ 32) :
    ∃ p d i, AddsDigit ratio p d i c ∧ knomialGetParent c ratio = .ok p := by
  obtain ⟨n, hrun, hn⟩ := int2KnomialNumber_spec hr hlt
  obtain ⟨d, hd0, hd, hclear⟩ :=
    clearLowestDigit_spec hr hn hc n.ndigits 0 (zero_add _) (by simp)
  have hadd := addsDigit_of_digit (by omega : 0 < ratio) hd hd0
  set p := c - c / ratio ^ d % ratio * ratio ^ d with hp
  refine ⟨p, d, _, hadd, ?_⟩
  -- the cleared digits are the digits of `p`
  have hdigits : ∀ e, update n.digits d 0 e = p / ratio ^ e % ratio := by
    intro e
    rcases lt_trichotomy e d with hlt' | heq | hgt
    · rw [update_of_ne (by omega), hn.digits, digit_eq_zero_of_dvd hd hlt',
        digit_eq_zero_of_dvd hadd.dvd (by omega)]
    · subst heq
      rw [update_self, digit_eq_zero_of_dvd hadd.dvd (Nat.lt_succ_self e)]
    · rw [update_of_ne (by omega), hn.digits, hadd.div_eq hgt]
  have hpc : p < c := hadd.lt
  have hhigh : p / ratio ^ n.ndigits = 0 := by
    have hle : p / ratio ^ n.ndigits ≤ c / ratio ^ n.ndigits := Nat.div_le_div_right hpc.le
    rw [hn.high] at hle
    exact Nat.le_zero.mp hle
  have hval := knomialNumber2IntLoop_eq (n := { n with digits := update n.digits d 0 })
    (lt_trans hpc hlt) (by simpa [hn.ratio_eq] using hdigits) n.ndigits
  rw [show p / n.ratio ^ n.ndigits = 0 by rw [hn.ratio_eq, hhigh]] at hval
  simp only [knomialGetParent, hrun, bind, Except.bind, hclear, knomialNumber2Int, hval]
  rfl

/-! ### The children -/

/-- The children at one digit: those inside the group. -/
def knomialRow (self size inc k i : ℕ) : List ℕ :=
  ((List.range' i k).map fun j => self + j * inc).filter (· < size)

theorem mem_knomialRow {self inc k i c : ℕ} : c ∈ knomialRow self size inc k i ↔
      c < size ∧ ∃ j, i ≤ j ∧ j < i + k ∧ c = self + j * inc := by
  simp only [knomialRow, mem_filter, mem_map, mem_range'_1, decide_eq_true_eq]
  constructor
  · rintro ⟨⟨j, ⟨h1, h2⟩, rfl⟩, hc⟩
    exact ⟨hc, j, h1, h2, rfl⟩
  · rintro ⟨hc, j, h1, h2, rfl⟩
    exact ⟨⟨j, ⟨h1, h2⟩, rfl⟩, hc⟩

theorem pairwise_knomialRow {self inc k i : ℕ} (hinc : 0 < inc) :
    (knomialRow self size inc k i).Pairwise (· < ·) := by
  refine List.Pairwise.filter _ (List.Pairwise.map _ ?_ pairwise_lt_range')
  intro a b hab
  have := Nat.mul_lt_mul_of_pos_right hab hinc
  omega

/-- The row loop computes the row, and stops early iff a child fell outside. -/
theorem knomialRowLoop_eq (self inc : ℕ) (hsize : size ≤ 2 ^ 31) :
    ∀ (k i : ℕ) (b : ChildBuf), 1 ≤ i → self + i * inc < 2 ^ 32 →
      knomialRowLoop self size inc k i b =
        (decide ((knomialRow self size inc k i).length < k),
          b.puts (knomialRow self size inc k i)) := by
  intro k
  induction k with
  | zero =>
    intro i b _ _
    simp [knomialRowLoop, knomialRow]
  | succ k ih =>
    intro i b hi hlt
    rw [knomialRowLoop, u32_of_lt hlt]
    by_cases hout : size ≤ self + i * inc
    · have hnil : knomialRow self size inc (k + 1) i = [] := by
        rw [eq_nil_iff_forall_not_mem]
        intro c hc
        obtain ⟨hcs, j, hj, _, rfl⟩ := mem_knomialRow.mp hc
        have := Nat.mul_le_mul_right inc hj
        omega
      simp [if_pos hout, hnil]
    · have hcons : knomialRow self size inc (k + 1) i =
          (self + i * inc) :: knomialRow self size inc k (i + 1) := by
        rw [knomialRow, range'_succ, map_cons,
          filter_cons_of_pos (by simpa using by omega)]
        rfl
      have hinc : inc ≤ i * inc := Nat.le_mul_of_pos_left inc hi
      have hnext : self + (i + 1) * inc < 2 ^ 32 := by
        rw [add_mul, one_mul]
        omega
      rw [if_neg hout, ih (i + 1) (b.put (self + i * inc)) (by omega) hnext, hcons,
        ChildBuf.put_puts]
      simp

/-- The digit loop enumerates the ranks that add one digit at `digit` or above. -/
theorem knomialDigitLoop_spec (hr : 2 ≤ ratio) {self : ℕ}
    (hn : Represents n self ratio) (hs : self < size) (hsize : size ≤ 2 ^ 31) :
    ∀ k digit inc : ℕ, digit + k = crtTreeMaxRatio → inc = ratio ^ digit →
      ratio ^ digit ∣ self → self + inc < 2 ^ 32 →
      ∃ l : List ℕ, (∀ b, knomialDigitLoop n self size ratio k digit inc b = b.puts l) ∧
        l.Pairwise (· < ·) ∧
        ∀ c, c ∈ l ↔ c < size ∧ ∃ d i, digit ≤ d ∧ AddsDigit ratio self d i c := by
  intro k
  induction k with
  | zero =>
    intro digit inc hdigit hinc _ hbound
    -- position 64 is never reached: its weight does not fit 32 bits
    have hbig : 2 ^ 64 ≤ ratio ^ digit := by
      rw [show digit = 64 from hdigit]
      exact Nat.pow_le_pow_left hr 64
    omega
  | succ k ih =>
    intro digit inc hdigit hinc hdvd hbound
    have hincpos : 0 < inc := by
      rw [hinc]
      exact Nat.pow_pos (by omega)
    by_cases hzero : self / ratio ^ digit % ratio = 0
    · -- the digit is zero: one row of children, then the next digit
      have hcond : n.ndigits < digit ∨ n.digits digit = 0 := Or.inr (by rw [hn.digits, hzero])
      have hdvd' : ratio ^ (digit + 1) ∣ self := pow_succ_dvd hdvd hzero
      have hrow := fun b => knomialRowLoop_eq self inc hsize (ratio - 1) 1 b
        le_rfl (by omega)
      set row := knomialRow self size inc (ratio - 1) 1 with hrowdef
      have hmemrow : ∀ c, c ∈ row ↔ c < size ∧ ∃ i, AddsDigit ratio self digit i c := by
        intro c
        rw [hrowdef, mem_knomialRow]
        constructor
        · rintro ⟨hc, j, h1, h2, hj⟩
          exact ⟨hc, j, h1, by omega, hdvd', by rw [hj, hinc]⟩
        · rintro ⟨hc, i, h⟩
          have := h.lt_base
          exact ⟨hc, i, h.pos, by omega, by rw [h.eq, hinc]⟩
      -- a rank with a digit above this row exceeds every rank of the row
      have habove : ∀ {d i c}, digit + 1 ≤ d → AddsDigit ratio self d i c →
          self + (ratio - 1) * inc < c := by
        intro d i c hd h
        have h1 : ratio ^ (digit + 1) ≤ ratio ^ d := Nat.pow_le_pow_right (by omega) hd
        have h2 : ratio ^ d ≤ i * ratio ^ d := Nat.le_mul_of_pos_left _ h.pos
        have h3 : ratio ^ (digit + 1) = (ratio - 1) * inc + inc := by
          rw [pow_succ, hinc, mul_comm, ← Nat.succ_mul, Nat.succ_eq_add_one,
            Nat.sub_add_cancel (by omega)]
        rw [h.eq]
        omega
      by_cases hstop : row.length < ratio - 1
      · -- some child of this row is outside, so the enumeration ends
        refine ⟨row, fun b => ?_, pairwise_knomialRow hincpos, fun c => ?_⟩
        · rw [knomialDigitLoop, if_pos hcond, hrow b]
          simp [hstop]
        · have hlast : size ≤ self + (ratio - 1) * inc := by
            by_contra hlt
            refine absurd hstop (not_lt.mpr (le_of_eq ?_))
            rw [hrowdef, knomialRow, filter_eq_self.mpr, length_map,
              length_range']
            intro c hc
            obtain ⟨j, hj, rfl⟩ := mem_map.mp hc
            obtain ⟨_, hj2⟩ := mem_range'_1.mp hj
            have := Nat.mul_le_mul_right inc (show j ≤ ratio - 1 by omega)
            simpa using by omega
          rw [hmemrow]
          constructor
          · rintro ⟨hc, i, h⟩
            exact ⟨hc, digit, i, le_rfl, h⟩
          · rintro ⟨hc, d, i, hd, h⟩
            rcases Nat.eq_or_lt_of_le hd with rfl | hlt
            · exact ⟨hc, i, h⟩
            · have := habove hlt h
              omega
      · -- the whole row is inside, and so the next weight still fits
        have hfull : ∀ j, 1 ≤ j → j < ratio → self + j * inc < size := by
          have hlen : row.length = ((range' 1 (ratio - 1)).map
              fun j => self + j * inc).length := by
            refine le_antisymm (length_filter_le _ _) ?_
            simp only [length_map, length_range']
            omega
          intro j h1 h2
          have hall := length_filter_eq_length_iff.mp hlen
          have := hall (self + j * inc)
            (mem_map.mpr ⟨j, mem_range'_1.mpr ⟨h1, by omega⟩, rfl⟩)
          simpa using this
        have hlast := hfull (ratio - 1) (by omega) (by omega)
        have hmul : inc * ratio = (ratio - 1) * inc + inc := by
          rw [mul_comm, ← Nat.succ_mul, Nat.succ_eq_add_one, Nat.sub_add_cancel (by omega)]
        have hle : inc ≤ (ratio - 1) * inc := Nat.le_mul_of_pos_left inc (by omega)
        have hfit : inc * ratio < 2 ^ 32 := by omega
        obtain ⟨l, hl, hsorted, hmem⟩ := ih (digit + 1) (inc * ratio) (by omega)
          (by rw [hinc, pow_succ]) hdvd' (by omega)
        refine ⟨row ++ l, fun b => ?_, ?_, fun c => ?_⟩
        · rw [knomialDigitLoop, if_pos hcond, hrow b]
          simp only [hstop, decide_false]
          rw [u32_of_lt hfit, hl, ChildBuf.puts_puts]
        · refine pairwise_append.mpr ⟨pairwise_knomialRow hincpos, hsorted, ?_⟩
          intro a ha b hb
          obtain ⟨_, i, hi⟩ := (hmemrow a).mp ha
          obtain ⟨_, d, j, hd, hj⟩ := (hmem b).mp hb
          have h1 := habove hd hj
          have h2 : i * inc ≤ (ratio - 1) * inc :=
            Nat.mul_le_mul_right inc (by have := hi.lt_base; omega)
          have h3 : a = self + i * inc := by rw [hi.eq, hinc]
          omega
        · rw [mem_append, hmemrow, hmem]
          constructor
          · rintro (⟨hc, i, h⟩ | ⟨hc, d, i, hd, h⟩)
            · exact ⟨hc, digit, i, le_rfl, h⟩
            · exact ⟨hc, d, i, by omega, h⟩
          · rintro ⟨hc, d, i, hd, h⟩
            rcases Nat.eq_or_lt_of_le hd with rfl | hlt
            · exact Or.inl ⟨hc, i, h⟩
            · exact Or.inr ⟨hc, d, i, hlt, h⟩
    · -- a non-zero digit: nothing from here on
      have hcond : ¬ (n.ndigits < digit ∨ n.digits digit = 0) := by
        rintro (hlt | h0)
        · refine hzero ?_
          obtain ⟨m, rfl⟩ : ∃ m, digit = n.ndigits + m := ⟨digit - n.ndigits, by omega⟩
          rw [pow_add, ← Nat.div_div_eq_div_mul, hn.high]
          simp
        · exact hzero (by rw [← hn.digits, h0])
      refine ⟨[], fun b => ?_, List.Pairwise.nil, fun c => ?_⟩
      · rw [knomialDigitLoop, if_neg hcond, ChildBuf.puts_nil]
      · simp only [not_mem_nil, false_iff, not_and, not_exists]
        intro _ d i hd h
        exact hzero (digit_eq_zero_of_dvd h.dvd (by omega))

theorem knomial_law (hr : 2 ≤ ratio) (hsize : size ≤ 2 ^ 31) :
    ∃ row, KernelLaw knomialGetChildren knomialGetParent size ratio row := by
  have hspec : ∀ self : ℕ, ∃ l : List ℕ, self < size →
      (∀ buf, knomialGetChildren buf self size ratio = .ok ((ChildBuf.mk 0 buf).puts l)) ∧
      l.Nodup ∧ ∀ c, c ∈ l ↔ c < size ∧ ∃ d i, AddsDigit ratio self d i c := by
    intro self
    by_cases hs : self < size
    · obtain ⟨n, hrun, hn⟩ := int2KnomialNumber_spec hr (x := self) (by omega)
      obtain ⟨l, hl, hsorted, hmem⟩ := knomialDigitLoop_spec hr hn hs hsize crtTreeMaxRatio 0 1
        (by simp) (by simp) (by simp) (by omega)
      refine ⟨l, fun _ => ⟨fun buf => ?_, hsorted.imp fun h => ne_of_lt h, fun c => ?_⟩⟩
      · simp only [knomialGetChildren, dAssert_true hs, hrun, bind, Except.bind, hl]
        rfl
      · rw [hmem]
        simp
    · exact ⟨[], fun h => absurd h hs⟩
  choose row hrow using hspec
  refine ⟨row, fun self hs => (hrow self hs).1, fun self hs => (hrow self hs).2.1, ?_, ?_⟩
  · intro self hs c
    rw [(hrow self hs).2.2 c]
    constructor
    · rintro ⟨hc, d, i, h⟩
      have hpos : 0 < c := lt_of_le_of_lt (Nat.zero_le _) h.lt
      obtain ⟨p, d', i', h', hpar⟩ := knomialGetParent_spec hr hpos (by omega)
      exact ⟨hc, hpos, by rw [hpar, (h.unique h').1]⟩
    · rintro ⟨hc, hpos, hpar⟩
      obtain ⟨p, d, i, h, hpar'⟩ := knomialGetParent_spec hr hpos (by omega)
      rw [hpar', Except.ok.injEq] at hpar
      exact ⟨hc, d, i, hpar ▸ h⟩
  · intro c hpos hc
    obtain ⟨p, d, i, h, hpar⟩ := knomialGetParent_spec hr hpos (by omega)
    exact ⟨p, h.lt, hpar⟩

end

end Cart
