/-
The tree topologies of a collective (`crt_tree.h`, `crt_tree_flat.c`).

The table `crtTops` gives each tree type its three operations on group ranks:
the number of children of a node, the children, and the parent.  The main
result is **`crtTops_spanning_tree`**: on every group the three agree on one
spanning tree rooted at `root`.
-/
import Cart.Broadcast
import Cart.Kary
import Cart.Knomial
import Mathlib.Logic.Relation

open List

namespace Cart

/-- `struct crt_topo_ops`: group size, ratio, root, self. -/
structure TopoOps where
  toGetChildrenCnt : ℕ → ℕ → ℕ → ℕ → Except Stop ℕ
  toGetChildren : ℕ → ℕ → ℕ → ℕ → Except Stop (List ℕ)
  toGetParent : ℕ → ℕ → ℕ → ℕ → Except Stop ℕ

/-! ### The flat topology -/

def crtFlatGetChildrenCnt (grpSize _branchRatio grpRoot grpSelf : ℕ) : Except Stop ℕ := do
  dAssert (0 < grpSize)
  if grpSelf = grpRoot then return grpSize - 1 else return 0

/-- The root writes every other rank, in order. -/
def crtFlatGetChildren (grpSize _branchRatio grpRoot grpSelf : ℕ) :
    Except Stop (List ℕ) := do
  dAssert (0 < grpSize)
  if grpSelf ≠ grpRoot then throw (.rc (-derInval))
  return (List.range grpSize).filter fun i => grpRoot ≠ i

def crtFlatGetParent (grpSize _branchRatio grpRoot grpSelf : ℕ) : Except Stop ℕ := do
  dAssert (0 < grpSize)
  if grpSelf = grpRoot then throw (.rc (-derInval))
  return grpRoot

def crtFlatOps : TopoOps :=
  ⟨crtFlatGetChildrenCnt, crtFlatGetChildren, crtFlatGetParent⟩

def crtKaryOps : TopoOps :=
  ⟨getChildrenCntBy karyGetChildren, getChildrenBy karyGetChildren, getParentBy karyGetParent⟩

def crtKnomialOps : TopoOps :=
  ⟨getChildrenCntBy knomialGetChildren, getChildrenBy knomialGetChildren,
    getParentBy knomialGetParent⟩

/-- `enum crt_tree_type`, without the invalid one. -/
inductive TreeType where
  | flat
  | kary
  | knomial
  deriving DecidableEq, Repr

/-- The table `crt_tops`. -/
def crtTops : TreeType → TopoOps
  | .flat => crtFlatOps
  | .kary => crtKaryOps
  | .knomial => crtKnomialOps

/-- The entries `to_get_children` writes; none when it refuses. -/
def TopoOps.written (ops : TopoOps) (grpSize ratio grpRoot grpSelf : ℕ) : List ℕ :=
  match ops.toGetChildren grpSize ratio grpRoot grpSelf with
  | .ok l => l
  | .error _ => []

/-- One step of the parent function. -/
def TopoOps.ParentStep (ops : TopoOps) (n ratio root a b : ℕ) : Prop :=
  ops.toGetParent n ratio root a = .ok b

/-! ### Encoded topologies -/

/-- The bits above `CRT_TREE_TYPE_SHIFT`. -/
def crtTreeType (treeTopo : ℤ) : ℤ := treeTopo / 2 ^ 16

/-- The bits below it. -/
def crtTreeRatio (treeTopo : ℤ) : ℕ := (treeTopo % 2 ^ 16).toNat

/-- The index into `crt_tops`. -/
def treeTypeOf (t : ℤ) : Option TreeType :=
  if t = 1 then some .flat
  else if t = 2 then some .kary
  else if t = 3 then some .knomial
  else none

def crtTreeTopoValid (treeTopo : ℤ) : Bool :=
  match treeTypeOf (crtTreeType treeTopo) with
  | none => false
  | some .flat => true
  | some _ => crtTreeMinRatio ≤ crtTreeRatio treeTopo && crtTreeRatio treeTopo ≤ crtTreeMaxRatio

/-! ### The spanning tree -/

/-- The products of the child enumeration fit `uint32_t`. -/
def TreeType.Fits (t : TreeType) (n ratio : ℕ) : Prop :=
  t = .kary → (n - 1) * ratio + 1 < 2 ^ 32

/-- The tree law on a group of `n` ranks: parents are nearer to the root, and children are who
has the node as parent. -/
structure TopoOps.Spans (ops : TopoOps) (n ratio root : ℕ) (dist : ℕ → ℕ) : Prop where
  cnt : ∀ s, s < n →
    ops.toGetChildrenCnt n ratio root s = .ok (ops.written n ratio root s).length
  nodup : ∀ s, s < n → (ops.written n ratio root s).Nodup
  mem : ∀ s, s < n → ∀ c, c ∈ ops.written n ratio root s ↔
    c < n ∧ c ≠ root ∧ ops.toGetParent n ratio root c = .ok s
  parent : ∀ c, c < n → c ≠ root →
    ∃ p, p < n ∧ dist p < dist c ∧ ops.toGetParent n ratio root c = .ok p
  parent_root : ops.toGetParent n ratio root root = .error (.rc (-derInval))
  dist_lt : ∀ c, c < n → dist c < n

section

variable {n ratio root s : ℕ} {dist : ℕ → ℕ} {ops : TopoOps} {l : List ℕ}

theorem written_of_ok (ops : TopoOps)
    (h : ops.toGetChildren n ratio root s = .ok l) : ops.written n ratio root s = l := by
  rw [TopoOps.written, h]

/-- A lawful kernel, rotated, is a spanning tree measured by the tree rank. -/
theorem KernelLaw.spans {kids : ChildKernel} {parent : ParentKernel} {row : ℕ → List ℕ}
    (h : KernelLaw kids parent n ratio row) (hn : n ≤ 2 ^ 31)
    (hr : crtTreeMinRatio ≤ ratio ∧ ratio ≤ crtTreeMaxRatio) (hroot : root < n) :
    TopoOps.Spans ⟨getChildrenCntBy kids, getChildrenBy kids, getParentBy parent⟩ n ratio root
      (treeRank n root) := by
  set ops : TopoOps := ⟨getChildrenCntBy kids, getChildrenBy kids, getParentBy parent⟩
  have hwritten : ∀ s, s < n → ops.written n ratio root s = KernelLaw.rotated row n root s :=
    fun s hs => written_of_ok ops (h.getChildrenBy_eq hn hr hroot hs)
  refine ⟨?_, ?_, ?_, ?_, KernelLaw.getParentBy_root (by omega) hr, fun c _ => treeRank_lt hroot⟩
  · intro s hs
    rw [hwritten s hs]
    exact h.getChildrenCntBy_eq hn hr hroot hs
  · intro s hs
    rw [hwritten s hs]
    exact h.nodup_rotated hroot
  · intro s hs c
    rw [hwritten s hs]
    exact h.mem_rotated hn hr hroot hs
  · intro c hc hne
    obtain ⟨p, hp, _, hget⟩ := h.exists_getParentBy hn hr hroot hc hne
    refine ⟨grpRank n root p, grpRank_lt hroot, ?_, hget⟩
    rwa [treeRank_grpRank hroot (lt_trans hp (treeRank_lt hroot))]

/-- What a k-ary node writes, whether or not its products fit. -/
theorem kary_written (hn : n ≤ 2 ^ 31) (hr : crtTreeMinRatio ≤ ratio ∧ ratio ≤ crtTreeMaxRatio)
    (hroot : root < n) (hs : s < n)
    (hrun : ∀ buf, karyGetChildren buf (treeRank n root s) n ratio = .ok ((ChildBuf.mk 0 buf).puts l))
    (hlt : ∀ c ∈ l, c < n) : (crtTops .kary).written n ratio root s = l.map (grpRank n root) ∧
      (crtTops .kary).toGetChildrenCnt n ratio root s
        = .ok ((crtTops .kary).written n ratio root s).length := by
  have hwritten : (crtTops .kary).written n ratio root s = l.map (grpRank n root) :=
    written_of_ok (crtTops .kary) (getChildrenBy_of_run hn hr hroot hs hrun hlt)
  refine ⟨hwritten, ?_⟩
  rw [hwritten, length_map]
  exact getChildrenCntBy_of_run hn hr hroot hs hrun

section

variable (ratio : ℕ) (hroot : root < n)

include hroot

theorem crtFlatGetChildren_root : crtFlatGetChildren n ratio root root =
      .ok ((List.range n).filter fun i => root ≠ i) := by
  have hpos : 0 < n := by omega
  simp only [crtFlatGetChildren, dAssert_true hpos, bind, Except.bind, ne_eq, not_true_eq_false,
    if_false]
  rfl

theorem crtFlatGetChildren_ne (hs : s ≠ root) :
    crtFlatGetChildren n ratio root s = .error (.rc (-derInval)) := by
  have hpos : 0 < n := by omega
  simp only [crtFlatGetChildren, dAssert_true hpos, bind, Except.bind, ne_eq, hs,
    not_false_eq_true, if_true]
  rfl

theorem crtFlatGetParent_ne (hs : s ≠ root) : crtFlatGetParent n ratio root s = .ok root := by
  have hpos : 0 < n := by omega
  simp only [crtFlatGetParent, dAssert_true hpos, bind, Except.bind, if_neg hs]
  rfl

theorem crtFlatGetParent_root : crtFlatGetParent n ratio root root = .error (.rc (-derInval)) := by
  have hpos : 0 < n := by omega
  simp only [crtFlatGetParent, dAssert_true hpos, bind, Except.bind, if_true]
  rfl

end

theorem flat_spans (hroot : root < n) : crtFlatOps.Spans n ratio root (treeRank n root) := by
  have hpos : 0 < n := by omega
  have hroots : crtFlatOps.written n ratio root root = (range n).filter fun i => root ≠ i :=
    written_of_ok crtFlatOps (crtFlatGetChildren_root ratio hroot)
  have hothers : ∀ s, s ≠ root → crtFlatOps.written n ratio root s = [] := by
    intro s hs
    rw [TopoOps.written, show crtFlatOps.toGetChildren n ratio root s = _ from
      crtFlatGetChildren_ne ratio hroot hs]
  refine ⟨?_, ?_, ?_, ?_, crtFlatGetParent_root ratio hroot, fun c _ => treeRank_lt hroot⟩
  · intro s _
    show crtFlatGetChildrenCnt n ratio root s = _
    simp only [crtFlatGetChildrenCnt, dAssert_true hpos, bind, Except.bind]
    by_cases hs : s = root
    · subst hs
      -- all of the range but the root itself
      have hlen : ((range n).filter fun i => s ≠ i).length = n - 1 := by
        have herase : ((range n).filter fun i => s ≠ i) = (range n).erase s := by
          rw [nodup_range.erase_eq_filter]
          refine filter_congr fun x _ => ?_
          rw [Bool.eq_iff_iff, decide_eq_true_eq, bne_iff_ne]
          exact ne_comm
        rw [herase, length_erase_of_mem (mem_range.mpr hroot), length_range]
      rw [if_pos rfl, hroots, hlen]
      rfl
    · rw [if_neg hs, hothers s hs]
      rfl
  · intro s _
    by_cases hs : s = root
    · subst hs
      rw [hroots]
      exact nodup_range.filter _
    · rw [hothers s hs]
      exact nodup_nil
  · intro s _ c
    show _ ↔ c < n ∧ c ≠ root ∧ crtFlatGetParent n ratio root c = .ok s
    by_cases hs : s = root
    · subst hs
      rw [hroots, mem_filter, mem_range]
      constructor
      · rintro ⟨hc, hne⟩
        have hne' : c ≠ s := (of_decide_eq_true hne).symm
        exact ⟨hc, hne', crtFlatGetParent_ne ratio hroot hne'⟩
      · rintro ⟨hc, hne, _⟩
        exact ⟨hc, decide_eq_true hne.symm⟩
    · rw [hothers s hs]
      constructor
      · intro h
        simp at h
      · rintro ⟨_, hne, hpar⟩
        rw [crtFlatGetParent_ne ratio hroot hne, Except.ok.injEq] at hpar
        exact absurd hpar.symm hs
  · intro c hc hne
    refine ⟨root, hroot, ?_, crtFlatGetParent_ne ratio hroot hne⟩
    rw [treeRank_root hroot]
    exact Nat.pos_of_ne_zero fun h0 => hne ((treeRank_eq_zero hroot hc).mp h0)

/-- Every topology whose products fit spans the group. -/
theorem crtTops_spans (t : TreeType) (root : ℕ) (hn : n < 2 ^ 31) (hroot : root < n)
    (hr : t ≠ .flat → crtTreeMinRatio ≤ ratio ∧ ratio ≤ crtTreeMaxRatio) (hfit : t.Fits n ratio) :
    (crtTops t).Spans n ratio root (treeRank n root) := by
  cases t with
  | flat => exact flat_spans hroot
  | kary =>
    have hr' := hr (by decide)
    exact (kary_law hr'.1 (by omega) (hfit rfl)).spans hn.le hr' hroot
  | knomial =>
    have hr' := hr (by decide)
    obtain ⟨row, hrow⟩ := knomial_law hr'.1 hn.le
    exact hrow.spans hn.le hr' hroot

/-- Every node but the root has a parent that is nearer to the root. -/
theorem crtTops_parent (t : TreeType) (hn : n < 2 ^ 31) (hroot : root < n)
    (hr : t ≠ .flat → crtTreeMinRatio ≤ ratio ∧ ratio ≤ crtTreeMaxRatio) {c : ℕ} (hc : c < n)
    (hne : c ≠ root) : ∃ p, p < n ∧ treeRank n root p < treeRank n root c ∧
      (crtTops t).toGetParent n ratio root c = .ok p := by
  -- a kernel whose parents have smaller tree ranks will do
  have hkernel : ∀ {parent : ParentKernel},
      (∀ c, 0 < c → c < n → ∃ p, p < c ∧ parent c ratio = .ok p) →
      crtTreeMinRatio ≤ ratio ∧ ratio ≤ crtTreeMaxRatio →
      ∃ p, p < n ∧ treeRank n root p < treeRank n root c ∧
        getParentBy parent n ratio root c = .ok p := by
    intro parent hlt hratio
    obtain ⟨p, hp, _, hget⟩ := getParentBy_of_lt hlt hn.le hratio hroot hc hne
    refine ⟨grpRank n root p, grpRank_lt hroot, ?_, hget⟩
    rwa [treeRank_grpRank hroot (lt_trans hp (treeRank_lt hroot))]
  cases t with
  | flat => exact (@flat_spans n ratio root hroot).parent c hc hne
  | kary => exact hkernel (fun c hpos _ => karyGetParent_lt ratio hpos) (hr (by decide))
  | knomial =>
    obtain ⟨row, hrow⟩ := knomial_law (hr (by decide)).1 hn.le
    exact hkernel hrow.parent_lt (hr (by decide))

/-- Following the parents from any node ends at the root. -/
theorem TopoOps.Spans.reaches_root (h : ops.Spans n ratio root dist) :
    ∀ s, s < n → Relation.ReflTransGen (ops.ParentStep n ratio root) s root := by
  intro s
  induction hd : dist s using Nat.strongRecOn generalizing s with
  | ind d ih =>
    intro hs
    by_cases heq : s = root
    · rw [heq]
    · obtain ⟨p, hp, hlt, hget⟩ := h.parent s hs heq
      exact Relation.ReflTransGen.head hget (ih (dist p) (hd ▸ hlt) p rfl hp)

/-- The parent, with the root as its own. -/
def TopoOps.parentOr (ops : TopoOps) (n ratio root c : ℕ) : ℕ :=
  match ops.toGetParent n ratio root c with
  | .ok p => p
  | .error _ => root

/-- The positions of a spanning topology relay a broadcast. -/
theorem TopoOps.Spans.relayTree (h : ops.Spans n ratio root dist) (hroot : root < n) :
    Broadcast.RelayTree (ops.written n ratio root) root (· < n) (ops.parentOr n ratio root)
      dist := by
  refine ⟨hroot, h.nodup, ?_, ?_⟩
  · intro a ha c
    rw [h.mem a ha c]
    refine and_congr_right fun hc => and_congr_right fun hne => ?_
    obtain ⟨p, _, _, hp⟩ := h.parent c hc hne
    rw [TopoOps.parentOr, hp, Except.ok.injEq]
  · intro c hc hne
    obtain ⟨p, hpn, hlt, hp⟩ := h.parent c hc hne
    rw [TopoOps.parentOr, hp]
    exact ⟨hpn, hlt⟩

end

/-- **Counts, children and parents of every topology describe one spanning tree**, and no
assertion fails. -/
theorem crtTops_spanning_tree (t : TreeType) (n ratio root : ℕ)
    (hratio : 2 ≤ ratio ∧ ratio ≤ 64) (hn : 1 ≤ n) (hfit : n * (ratio + 1) < 2 ^ 32)
    (hroot : root < n) :
    (∀ s, s < n →
      (crtTops t).toGetChildrenCnt n ratio root s
        = .ok ((crtTops t).written n ratio root s).length ∧
      (if t = .flat ∧ s ≠ root then
        (crtTops t).toGetChildren n ratio root s = .error (.rc (-derInval)) ∧
        (crtTops t).toGetChildrenCnt n ratio root s = .ok 0
      else
        (crtTops t).toGetChildren n ratio root s
          = .ok ((crtTops t).written n ratio root s)) ∧
      ((crtTops t).written n ratio root s).Nodup ∧
      (∀ c ∈ (crtTops t).written n ratio root s, c < n ∧ c ≠ root) ∧
      (∀ c, c < n → (c ∈ (crtTops t).written n ratio root s ↔
        c ≠ root ∧ (crtTops t).toGetParent n ratio root c = .ok s)) ∧
      (s ≠ root → ∃ p, p < n ∧ (crtTops t).toGetParent n ratio root s = .ok p) ∧
      Relation.ReflTransGen ((crtTops t).ParentStep n ratio root) s root) ∧
    (crtTops t).toGetParent n ratio root root = .error (.rc (-derInval)) := by
  have h3 : n * 3 ≤ n * (ratio + 1) := Nat.mul_le_mul_left n (by omega)
  have hkary : (n - 1) * ratio + 1 < 2 ^ 32 := by
    have hle : (n - 1) * ratio ≤ n * ratio := Nat.mul_le_mul_right ratio (Nat.sub_le n 1)
    have hsplit : n * (ratio + 1) = n * ratio + n := Nat.mul_succ n ratio
    omega
  have hspans := crtTops_spans t root (by omega) hroot (fun _ => hratio) fun _ => hkary
  refine ⟨fun s hs => ⟨hspans.cnt s hs, ?_, hspans.nodup s hs, ?_, ?_, ?_,
    hspans.reaches_root s hs⟩, hspans.parent_root⟩
  · by_cases hrefuse : t = .flat ∧ s ≠ root
    · obtain ⟨rfl, hs'⟩ := hrefuse
      rw [if_pos ⟨rfl, hs'⟩]
      have hno := crtFlatGetChildren_ne ratio hroot hs'
      refine ⟨hno, ?_⟩
      rw [hspans.cnt s hs, TopoOps.written, show (crtTops .flat).toGetChildren n ratio root s = _
        from hno]
      rfl
    · rw [if_neg hrefuse]
      cases t with
      | flat =>
        have hs' : s = root := by
          by_contra hne
          exact hrefuse ⟨rfl, hne⟩
        subst hs'
        have hok := crtFlatGetChildren_root ratio hroot
        rw [show (crtTops .flat).toGetChildren n ratio s s = _ from hok,
          written_of_ok (crtTops .flat) hok]
      | kary =>
        have hok := (kary_law hratio.1 (by omega) hkary).getChildrenBy_eq (by omega) hratio hroot hs
        rw [show (crtTops .kary).toGetChildren n ratio root s = _ from hok,
          written_of_ok (crtTops .kary) hok]
      | knomial =>
        obtain ⟨row, hrow⟩ := knomial_law hratio.1 (show n ≤ 2 ^ 31 by omega)
        have hok := hrow.getChildrenBy_eq (by omega) hratio hroot hs
        rw [show (crtTops .knomial).toGetChildren n ratio root s = _ from hok,
          written_of_ok (crtTops .knomial) hok]
  · intro c hc
    obtain ⟨hcn, hne, _⟩ := (hspans.mem s hs c).mp hc
    exact ⟨hcn, hne⟩
  · intro c hc
    rw [hspans.mem s hs c]
    exact ⟨fun h => h.2, fun h => ⟨hc, h⟩⟩
  · intro hne
    obtain ⟨p, hp, _, hget⟩ := hspans.parent s hs hne
    exact ⟨p, hp, hget⟩

/-- Six ranks rooted at `1`. -/
theorem crtTops_spanning_tree_six :
    (2 ≤ 2 ∧ 2 ≤ 64) ∧ 1 ≤ 6 ∧ 6 * (2 + 1) < 2 ^ 32 ∧ 1 < 6 ∧
    (crtTops .knomial).written 6 2 1 1 = [2, 3, 5] ∧
    (crtTops .knomial).toGetChildrenCnt 6 2 1 1
      = .ok ((crtTops .knomial).written 6 2 1 1).length ∧
    Relation.ReflTransGen ((crtTops .knomial).ParentStep 6 2 1) 0 1 := by
  have h := crtTops_spanning_tree .knomial 6 2 1 (by decide) (by decide) (by decide) (by decide)
  exact ⟨by decide, by decide, by decide, by decide, by decide +kernel,
    (h.1 1 (by decide)).1, (h.1 0 (by decide)).2.2.2.2.2.2⟩

end Cart
