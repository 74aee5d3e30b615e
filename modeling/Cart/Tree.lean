/-
The children of a node in a collective's tree (`crt_tree.c`).

Every node sorts a copy of the member list, applies the filter ranks of the request
(`targets`), and asks the topology for its children at the positions of the root and itself.

Main results: `crtGetFilteredGrpRankList_ok`, `crtGetFilteredGrpRankList_fails`,
`exists_crtTreeGetChildren`.
-/
import Cart.RankList
import Cart.Topology

open List Option

namespace Cart

open DRankList

variable {filter members : List ℕ} {v : ℕ} {l : DRankList} {exclusive : Bool}

/-- The fields of `struct crt_grp_priv` that a collective reads.  `gpMembs` is
`cgm_linear_list`. -/
structure CrtGrpPriv where
  gpMembs : Option DRankList
  gpMembsVer : ℕ
  gpSelf : ℕ
  gpPrimary : Bool
  gpS2pTable : ℕ → Option ℕ

/-- The filtered list with the positions of the root and of the calling node. -/
structure FilteredList where
  grpRankList : DRankList
  grpRoot : ℕ
  grpSelf : ℕ

/-- The two lookups at the end of `crt_get_filtered_grp_rank_list`. -/
def locate (grpRankList : DRankList) (root self : ℕ) : Except Stop (Option FilteredList) := do
  let grpRoot ← dIdxInRankList (some grpRankList) root
  let grpSelf ← dIdxInRankList (some grpRankList) self
  return some ⟨grpRankList, grpRoot, grpSelf⟩

section

variable (grp : CrtGrpPriv) (exclusive : Bool) (filter : List ℕ)

def crtGetFilteredGrpRankList (filterRanks : Option DRankList) (root self : ℕ) :
    Except Stop (Option FilteredList) :=
  match dRankListDupSortUniq grp.gpMembs with
  | none => .error .assertFail
  | some membs =>
    if exclusive then
      match filterRanks with
      | none => .error .nullDeref
      | some filter =>
        let grpRankList := dRankListFilter filterRanks membs false
        if grpRankList.rlNr ≠ filter.rlNr then .error (.rc (-derOog))
        else locate grpRankList root self
    else if filterRanks.any fun filter => 0 < filter.rlNr then
      let grpRankList := dRankListFilter filterRanks membs true
      if grpRankList.rlNr = 0 then .ok none
      else locate grpRankList root self
    else locate membs root self

/-- No children is `NULL`. -/
def crtTreeGetChildren (grpVer : ℕ) (exclusive : Bool) (filterRanks : Option DRankList)
    (treeTopo : ℤ) (root self : ℕ) : Except Stop (Option DRankList) := do
  if grpVer ≠ grp.gpMembsVer then throw (.rc (-derGrpver))
  dAssert (crtTreeTopoValid treeTopo)
  dAssert (root ≠ crtNoRank)
  dAssert (self ≠ crtNoRank)
  match treeTypeOf (crtTreeType treeTopo) with
  | none => throw .assertFail
  | some treeType =>
    match ← crtGetFilteredGrpRankList grp exclusive filterRanks root self with
    | none => return none
    | some fl =>
      let tops := crtTops treeType
      let grpSize := fl.grpRankList.rlNr
      let treeRatio := crtTreeRatio treeTopo
      let nchildren ← tops.toGetChildrenCnt grpSize treeRatio fl.grpRoot fl.grpSelf
      if nchildren = 0 then return none
      let treeChildren ← tops.toGetChildren grpSize treeRatio fl.grpRoot fl.grpSelf
      return some (.ofList ((List.range nchildren).map fun i =>
        fl.grpRankList.toList.getD (treeChildren.getD i 0) 0))

/-! ### The list every node derives -/

/-- Whether a filter selects a rank: exclusively those in it, or all but
those. -/
def selects (rank : ℕ) : Bool :=
  decide (rank ∈ filter) == exclusive

/-- The selected members, sorted. -/
def targets (members : List ℕ) : List ℕ :=
  (members.insertionSort (· ≤ ·)).filter (selects exclusive filter)

end

theorem mem_targets :
    v ∈ targets exclusive filter members ↔ v ∈ members ∧ selects exclusive filter v = true := by
  rw [targets, mem_filter, mem_insertionSort]

theorem nodup_targets (h : members.Nodup) : (targets exclusive filter members).Nodup :=
  ((perm_insertionSort _ _).nodup_iff.mpr h).filter _

theorem length_targets_le : (targets exclusive filter members).length ≤ members.length := by
  have h := length_filter_le (selects exclusive filter) (members.insertionSort (· ≤ ·))
  rwa [length_insertionSort] at h

theorem selects_exclusive : selects true filter v = true ↔ v ∈ filter := by simp [selects]

theorem selects_exclude : selects false filter v = true ↔ v ∉ filter := by simp [selects]

/-- Filtering the sorted members is what the two calls of `d_rank_list_filter`
do. -/
theorem toList_filter_eq_targets {filter membs : DRankList} (exclusive : Bool)
    (hfilter : filter.toList ≠ []) (hmembs : membs.toList = members.insertionSort (· ≤ ·)) :
    (dRankListFilter (some filter) membs (!exclusive)).toList =
      targets exclusive filter.toList members := by
  rw [toList_dRankListFilter (rlRanks_ne_none hfilter), hmembs, targets]
  refine filter_congr fun r _ => ?_
  have hin : dRankInRankList (some filter) r = decide (r ∈ filter.toList) := by
    rw [Bool.eq_iff_iff, dRankInRankList_iff, decide_eq_true_eq, ranksOf_some]
  rw [hin, selects]
  cases exclusive <;> cases decide (r ∈ filter.toList) <;> rfl

theorem locate_of_mem {root self : ℕ} (hroot : root ∈ l.toList) (hself : self ∈ l.toList) :
    locate l root self = .ok (some ⟨l, l.toList.idxOf root, l.toList.idxOf self⟩) := by
  rw [locate, dIdxInRankList_of_mem hroot, dIdxInRankList_of_mem hself]
  rfl

theorem locate_of_notMem {root self : ℕ} (hroot : root ∉ l.toList) :
    locate l root self = .error (.rc (-derNonexist)) := by
  rw [locate, dIdxInRankList_of_notMem hroot]
  rfl

section

variable {grp : CrtGrpPriv} {filterRanks : Option DRankList}
variable {root self : ℕ}

theorem exists_sorted_membs (hgrp : grp.gpMembs = some (.ofList members)) (hnodup : members.Nodup) :
    ∃ membs, dRankListDupSortUniq grp.gpMembs = some membs ∧
      membs.toList = members.insertionSort (· ≤ ·) := by
  rw [hgrp]
  have h := dRankListDupSortUniq_of_nodup
    (show (ofList members).toList.Nodup by rwa [toList_ofList])
  rwa [toList_ofList] at h

theorem targets_of_empty (h : filter = []) :
    targets false filter members = members.insertionSort (· ≤ ·) := by
  rw [targets, filter_eq_self, h]
  intro v _
  exact selects_exclude.mpr not_mem_nil

theorem ranksOf_ne_nil_of_any (h : filterRanks.any (fun filter => 0 < filter.rlNr) = true) :
    ∃ filter, filterRanks = some filter ∧ filter.toList ≠ [] := by
  cases filterRanks with
  | none => simp at h
  | some filter =>
    refine ⟨filter, rfl, ?_⟩
    rw [any_some, decide_eq_true_eq] at h
    rw [← length_pos_iff, DRankList.length_toList]
    exact h

theorem ranksOf_eq_nil_of_not_any
    (h : ¬ filterRanks.any (fun filter => 0 < filter.rlNr) = true) : ranksOf filterRanks = [] := by
  cases filterRanks with
  | none => rfl
  | some filter =>
    rw [any_some, decide_eq_true_eq, Nat.not_lt, Nat.le_zero] at h
    rw [ranksOf_some, ← length_eq_zero_iff, DRankList.length_toList, h]

/-- **A target finds the targets**, whichever node it is. -/
theorem crtGetFilteredGrpRankList_ok (hgrp : grp.gpMembs = some (.ofList members))
    (hnodup : members.Nodup) (hroot : root ∈ targets exclusive (ranksOf filterRanks) members)
    (hself : self ∈ targets exclusive (ranksOf filterRanks) members)
    (hlen : exclusive = true →
      (targets true (ranksOf filterRanks) members).length = (ranksOf filterRanks).length) :
    ∃ l : DRankList, l.toList = targets exclusive (ranksOf filterRanks) members ∧
      crtGetFilteredGrpRankList grp exclusive filterRanks root self =
        .ok (some ⟨l, l.toList.idxOf root, l.toList.idxOf self⟩) := by
  obtain ⟨membs, hdup, hmembs⟩ := exists_sorted_membs hgrp hnodup
  simp only [crtGetFilteredGrpRankList, hdup]
  cases exclusive with
  | true =>
    have hin : root ∈ ranksOf filterRanks := selects_exclusive.mp (mem_targets.mp hroot).2
    cases filterRanks with
    | none => exact absurd hin not_mem_nil
    | some filter =>
      have hl := toList_filter_eq_targets true (ne_nil_of_mem hin) hmembs
      refine ⟨dRankListFilter (some filter) membs false, hl, ?_⟩
      have hnr : (dRankListFilter (some filter) membs false).rlNr = filter.rlNr := by
        rw [← DRankList.length_toList, ← DRankList.length_toList]
        exact (congrArg length hl).trans (hlen rfl)
      rw [if_pos rfl]
      exact (if_neg (not_not_intro hnr)).trans (locate_of_mem (hl ▸ hroot) (hl ▸ hself))
  | false =>
    rw [if_neg Bool.false_ne_true]
    by_cases hany : filterRanks.any (fun filter => 0 < filter.rlNr) = true
    · obtain ⟨filter, rfl, hne⟩ := ranksOf_ne_nil_of_any hany
      have hl := toList_filter_eq_targets false hne hmembs
      refine ⟨dRankListFilter (some filter) membs true, hl, ?_⟩
      have hnr : (dRankListFilter (some filter) membs true).rlNr ≠ 0 := by
        rw [← DRankList.length_toList]
        exact length_pos_iff.mpr (ne_nil_of_mem (hl ▸ hroot)) |>.ne'
      rw [if_pos hany, if_neg hnr]
      exact locate_of_mem (hl ▸ hroot) (hl ▸ hself)
    · have hl := hmembs.trans (targets_of_empty (ranksOf_eq_nil_of_not_any hany)).symm
      refine ⟨membs, hl, ?_⟩
      rw [if_neg hany]
      exact locate_of_mem (hl ▸ hroot) (hl ▸ hself)

/-- If the root is not a target, or an exclusive filter reaches outside, there is no list. -/
theorem crtGetFilteredGrpRankList_fails (self : ℕ) (hgrp : grp.gpMembs = some (.ofList members))
    (hnodup : members.Nodup)
    (hfail : root ∉ targets exclusive (ranksOf filterRanks) members ∨ exclusive = true ∧
      (targets true (ranksOf filterRanks) members).length ≠ (ranksOf filterRanks).length) :
    (∃ e, crtGetFilteredGrpRankList grp exclusive filterRanks root self = .error e) ∨
      exclusive = false ∧
        crtGetFilteredGrpRankList grp exclusive filterRanks root self = .ok none := by
  obtain ⟨membs, hdup, hmembs⟩ := exists_sorted_membs hgrp hnodup
  simp only [crtGetFilteredGrpRankList, hdup]
  cases exclusive with
  | true =>
    refine .inl ?_
    rw [if_pos rfl]
    cases filterRanks with
    | none => exact ⟨_, rfl⟩
    | some filter =>
      by_cases hnr : (dRankListFilter (some filter) membs false).rlNr ≠ filter.rlNr
      · exact ⟨_, if_pos hnr⟩
      · refine ⟨_, (if_neg hnr).trans (locate_of_notMem ?_)⟩
        rw [not_not] at hnr
        by_cases hne : filter.toList = []
        · -- an empty filter leaves an empty list behind, or none that passes
          rw [← DRankList.length_toList, ← DRankList.length_toList, hne, length_nil,
            length_eq_zero_iff] at hnr
          rw [hnr]
          exact not_mem_nil
        · have hl := toList_filter_eq_targets true hne hmembs
          rcases hfail with hroot | ⟨_, hlen⟩
          · rw [show (dRankListFilter (some filter) membs false).toList = _ from hl]
            exact hroot
          · refine absurd ?_ hlen
            rw [← DRankList.length_toList, ← DRankList.length_toList] at hnr
            exact (congrArg length hl).symm.trans hnr
  | false =>
    have hroot : root ∉ targets false (ranksOf filterRanks) members :=
      hfail.resolve_right fun h => Bool.false_ne_true h.1
    rw [if_neg Bool.false_ne_true]
    by_cases hany : filterRanks.any (fun filter => 0 < filter.rlNr) = true
    · obtain ⟨filter, rfl, hne⟩ := ranksOf_ne_nil_of_any hany
      have hl := toList_filter_eq_targets false hne hmembs
      rw [if_pos hany]
      by_cases hnr : (dRankListFilter (some filter) membs true).rlNr = 0
      · exact .inr ⟨rfl, if_pos hnr⟩
      · exact .inl ⟨_, (if_neg hnr).trans (locate_of_notMem (hl ▸ hroot))⟩
    · have hl := hmembs.trans (targets_of_empty (ranksOf_eq_nil_of_not_any hany)).symm
      rw [if_neg hany]
      exact .inl ⟨_, locate_of_notMem (hl ▸ hroot)⟩

/-! ### The children -/

variable {grpVer : ℕ} {treeTopo : ℤ} {t : TreeType}

section

variable (hver : grpVer = grp.gpMembsVer) (htype : treeTypeOf (crtTreeType treeTopo) = some t)
  (hvalid : crtTreeTopoValid treeTopo = true) (hroot : root ≠ crtNoRank) (hself : self ≠ crtNoRank)

include hver htype hvalid hroot hself

/-- Once the parameters are checked, the outcome depends on the list alone. -/
theorem crtTreeGetChildren_checked :
    crtTreeGetChildren grp grpVer exclusive filterRanks treeTopo root self = (do
      match ← crtGetFilteredGrpRankList grp exclusive filterRanks root self with
      | none => return none
      | some fl =>
        let nchildren ← (crtTops t).toGetChildrenCnt fl.grpRankList.rlNr (crtTreeRatio treeTopo)
          fl.grpRoot fl.grpSelf
        if nchildren = 0 then return none
        let treeChildren ← (crtTops t).toGetChildren fl.grpRankList.rlNr (crtTreeRatio treeTopo)
          fl.grpRoot fl.grpSelf
        return some (.ofList ((range nchildren).map fun i =>
          fl.grpRankList.toList.getD (treeChildren.getD i 0) 0))) := by
  simp only [crtTreeGetChildren, hver, ne_eq, not_true_eq_false, if_false, hvalid, dAssert_true,
    hroot, not_false_eq_true, hself, htype]
  rfl

/-- The children are the written positions, read back through the list. -/
theorem exists_crtTreeGetChildren {fl : FilteredList}
    (hfl : crtGetFilteredGrpRankList grp exclusive filterRanks root self = .ok (some fl))
    {w : List ℕ} (hw : (crtTops t).written fl.grpRankList.rlNr
    (crtTreeRatio treeTopo) fl.grpRoot fl.grpSelf = w) (hcnt :
    (crtTops t).toGetChildrenCnt fl.grpRankList.rlNr
    (crtTreeRatio treeTopo) fl.grpRoot fl.grpSelf = .ok w.length) :
    ∃ res, crtTreeGetChildren grp grpVer exclusive filterRanks treeTopo root self = .ok res ∧
      ranksOf res = w.map fun i => fl.grpRankList.toList.getD i 0 := by
  rw [crtTreeGetChildren_checked hver htype hvalid hroot hself]
  simp only [hfl, bind, Except.bind, hcnt]
  by_cases hzero : w.length = 0
  · refine ⟨none, by rw [if_pos hzero]; rfl, ?_⟩
    rw [length_eq_zero_iff.mp hzero]
    rfl
  · -- a topology that wrote something did not refuse
    rw [if_neg hzero]
    rw [TopoOps.written] at hw
    cases hget : (crtTops t).toGetChildren fl.grpRankList.rlNr (crtTreeRatio treeTopo) fl.grpRoot
        fl.grpSelf with
    | error e =>
      rw [hget] at hw
      exact absurd (congrArg length hw.symm) hzero
    | ok l =>
      rw [hget] at hw
      obtain rfl : l = w := hw
      refine ⟨_, rfl, ?_⟩
      rw [ranksOf_some, toList_ofList]
      apply ext_getElem
      · simp
      · intro i h1 h2
        rw [getElem_map, getElem_map, getElem_range]
        congr 1
        rw [getD_eq_getElem?_getD, getElem?_eq_getElem (by simpa using h2),
          getD_some]

end

end

end Cart
