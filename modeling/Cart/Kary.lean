/-
The k-ary topology (`crt_tree_kary.c`).

The children of tree rank `self` are the ranks from `self * ratio + 1` on, at most `ratio` of
them; the parent divides back.  The two agree as long as the first child of every node fits
`uint32_t` (`kary_law`); where it does not, the node claims a rank that already has a parent
(`karyGetChildren_wrap`).
-/
import Cart.TreeRank

open List

namespace Cart

open ChildBuf

/-- The loop of `kary_get_children`. -/
def karyLoop (self size ratio : ℕ) : ℕ → ℕ → ChildBuf → ChildBuf
  | 0, _, b => b
  | k + 1, i, b =>
    let rank := u32 (self * ratio + i + 1)
    if size ≤ rank then b
    else karyLoop self size ratio k (i + 1) (b.put rank)

def karyGetChildren : ChildKernel := fun children self size ratio => do
  dAssert (self < size)
  return karyLoop self size ratio ratio 0 ⟨0, children⟩

/-- The tree rank computed by `crt_kary_get_parent`. -/
def karyGetParent : ParentKernel := fun self ratio => .ok ((self - 1) / ratio)

/-- The children of `self`, once nothing wraps. -/
def karyRow (self size ratio k i : ℕ) : List ℕ :=
  ((List.range' i k).map fun j => self * ratio + j + 1).filter (· < size)

theorem mem_karyRow {self size ratio k i c : ℕ} : c ∈ karyRow self size ratio k i ↔
      c < size ∧ ∃ j, i ≤ j ∧ j < i + k ∧ c = self * ratio + j + 1 := by
  simp only [karyRow, mem_filter, List.mem_map, mem_range'_1, decide_eq_true_eq]
  constructor
  · rintro ⟨⟨j, ⟨h1, h2⟩, rfl⟩, hc⟩
    exact ⟨hc, j, h1, h2, rfl⟩
  · rintro ⟨hc, j, h1, h2, rfl⟩
    exact ⟨⟨j, ⟨h1, h2⟩, rfl⟩, hc⟩

theorem nodup_karyRow {self size ratio k i : ℕ} : (karyRow self size ratio k i).Nodup := by
  refine Nodup.filter _ (Nodup.map ?_ nodup_range')
  intro a b hab
  simp only at hab
  omega

/-- Only the first product can wrap: a later rank is one above a rank inside
the group. -/
theorem karyLoop_eq (self ratio : ℕ) {size : ℕ} (hsize : size < 2 ^ 32) :
    ∀ (k i : ℕ) (b : ChildBuf), self * ratio + i + 1 < 2 ^ 32 →
      karyLoop self size ratio k i b = b.puts (karyRow self size ratio k i) := by
  intro k
  induction k with
  | zero =>
    intro i b _
    simp [karyLoop, karyRow]
  | succ k ih =>
    intro i b hlt
    rw [karyLoop, u32_of_lt hlt]
    by_cases hout : size ≤ self * ratio + i + 1
    · have hnil : karyRow self size ratio (k + 1) i = [] := by
        rw [eq_nil_iff_forall_not_mem]
        intro c hc
        obtain ⟨hcs, j, hj, _, rfl⟩ := mem_karyRow.mp hc
        omega
      rw [if_pos hout, hnil, puts_nil]
    · have hcons : karyRow self size ratio (k + 1) i =
          (self * ratio + i + 1) :: karyRow self size ratio k (i + 1) := by
        rw [karyRow, range'_succ, map_cons,
          filter_cons_of_pos (by simpa using by omega)]
        rfl
      rw [if_neg hout, ih (i + 1) _ (by omega), hcons, put_puts]

/-- A node whose first product fits writes its row. -/
theorem karyGetChildren_eq {self size ratio : ℕ} (hsize : size < 2 ^ 32) (hs : self < size)
    (hfit : self * ratio + 1 < 2 ^ 32) (buf : Option (List ℕ)) :
    karyGetChildren buf self size ratio =
      .ok ((mk 0 buf).puts (karyRow self size ratio ratio 0)) := by
  have hloop := karyLoop_eq self ratio hsize ratio 0 ⟨0, buf⟩ (by omega)
  simp only [karyGetChildren, dAssert_true hs, hloop]
  rfl

/-- Parents have smaller tree ranks, however large the products are. -/
theorem karyGetParent_lt (ratio : ℕ) {c : ℕ} (hpos : 0 < c) :
    ∃ p, p < c ∧ karyGetParent c ratio = .ok p := by
  refine ⟨(c - 1) / ratio, ?_, rfl⟩
  have := Nat.div_le_self (c - 1) ratio
  omega

/-- The k-ary kernel satisfies the tree law when the first child of the last
node does not wrap. -/
theorem kary_law {size ratio : ℕ} (hr : 2 ≤ ratio) (hsize : size < 2 ^ 32)
    (hfit : (size - 1) * ratio + 1 < 2 ^ 32) : KernelLaw karyGetChildren karyGetParent size ratio
      fun self => karyRow self size ratio ratio 0 := by
  refine ⟨?_, fun _ _ => nodup_karyRow, ?_, ?_⟩
  · intro self hs buf
    have hle := Nat.mul_le_mul_right ratio (show self ≤ size - 1 by omega)
    exact karyGetChildren_eq hsize hs (by omega) buf
  · intro self hs c
    rw [mem_karyRow]
    simp only [karyGetParent, Except.ok.injEq]
    constructor
    · rintro ⟨hc, j, _, hj, rfl⟩
      refine ⟨hc, by omega, ?_⟩
      rw [Nat.add_sub_cancel, mul_comm, Nat.mul_add_div (by omega),
        Nat.div_eq_of_lt (by omega), add_zero]
    · rintro ⟨hc, hpos, hdiv⟩
      refine ⟨hc, (c - 1) % ratio, Nat.zero_le _, ?_, ?_⟩
      · have := Nat.mod_lt (c - 1) (show ratio > 0 by omega)
        omega
      · have := Nat.div_add_mod' (c - 1) ratio
        rw [hdiv] at this
        omega
  · exact fun c hpos _ => karyGetParent_lt ratio hpos

/-- Whatever wraps, the loop appends ranks of the group, the wrapped product first. -/
theorem exists_karyLoop_puts (self size ratio : ℕ) :
    ∀ k i, ∃ l, (∀ b, karyLoop self size ratio k i b = b.puts l) ∧ (∀ c ∈ l, c < size) ∧
      (0 < k → u32 (self * ratio + i + 1) < size → u32 (self * ratio + i + 1) ∈ l) := by
  intro k
  induction k with
  | zero =>
    intro i
    exact ⟨[], fun b => (puts_nil b).symm, by simp, fun h => absurd h (lt_irrefl 0)⟩
  | succ k ih =>
    intro i
    by_cases hout : size ≤ u32 (self * ratio + i + 1)
    · refine ⟨[], fun b => ?_, by simp, fun _ hlt => absurd hlt (by omega)⟩
      rw [karyLoop, if_pos hout, puts_nil]
    · obtain ⟨l, hrun, hlt, _⟩ := ih (i + 1)
      refine ⟨u32 (self * ratio + i + 1) :: l, fun b => ?_, ?_, fun _ _ => mem_cons_self⟩
      · rw [karyLoop, if_neg hout, hrun, put_puts]
      · intro c hc
        rcases mem_cons.mp hc with rfl | hc
        · omega
        · exact hlt c hc

/-- A node whose first product wraps into the group claims the wrapped rank. -/
theorem karyGetChildren_wrap {self size ratio : ℕ} (hr : 2 ≤ ratio) (hs : self < size)
    (hwrap : u32 (self * ratio + 1) < size) :
    ∃ l, (∀ buf, karyGetChildren buf self size ratio = .ok ((mk 0 buf).puts l)) ∧
      (∀ c ∈ l, c < size) ∧ u32 (self * ratio + 1) ∈ l := by
  obtain ⟨l, hrun, hlt, hmem⟩ := exists_karyLoop_puts self size ratio ratio 0
  refine ⟨l, fun buf => ?_, hlt, hmem (by omega) hwrap⟩
  simp only [karyGetChildren, dAssert_true hs, hrun]
  rfl

/-- In a group that is too large, some product is the first to wrap. -/
theorem exists_first_wrap {size ratio : ℕ} (hr : ratio < 2 ^ 32)
    (hwrap : 2 ^ 32 ≤ (size - 1) * ratio + 1) :
    ∃ s, 0 < s ∧ s < size ∧ (∀ t, t < s → t * ratio + 1 < 2 ^ 32) ∧
      u32 (s * ratio + 1) < ratio := by
  have hex : ∃ s, 2 ^ 32 ≤ s * ratio + 1 := ⟨size - 1, hwrap⟩
  have hspec := Nat.find_spec hex
  have hmin : ∀ t, t < Nat.find hex → t * ratio + 1 < 2 ^ 32 := fun t ht =>
    not_le.mp (Nat.find_min hex ht)
  have hle : Nat.find hex ≤ size - 1 := Nat.find_min' hex hwrap
  generalize Nat.find hex = s at hspec hmin hle
  have hpos : 0 < s := by
    by_contra h0
    rw [show s = 0 by omega, zero_mul] at hspec
    omega
  have hprev := hmin (s - 1) (by omega)
  have hstep : s * ratio = (s - 1) * ratio + ratio := by
    rw [← Nat.succ_mul, Nat.succ_eq_add_one, Nat.sub_add_cancel hpos]
  refine ⟨s, hpos, by omega, hmin, ?_⟩
  rw [u32, show s * ratio + 1 = s * ratio + 1 - 2 ^ 32 + 2 ^ 32 by omega, Nat.add_mod_right,
    Nat.mod_eq_of_lt (by omega)]
  omega

end Cart
