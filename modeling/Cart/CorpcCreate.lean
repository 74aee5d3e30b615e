/-
Creating and relaying a collective RPC (`crt_corpc.c`).

The initiator puts its filter ranks into the header of the request, rewritten so that it stays
in the tree itself, and remembers whether to run the handler.  Every other node copies the
header's list and passes it on.

Main results: `exists_crtCorpcReqCreate`, `CrtCorpcInfo.Describes.at`.
-/
import Cart.Tree

open List

namespace Cart

open Broadcast

def crtGrpPrivGetPrimaryRank (priv : CrtGrpPriv) (rank : ℕ) : ℕ :=
  if priv.gpPrimary then rank else (priv.gpS2pTable rank).getD crtNoRank

/-- The fields of `struct crt_corpc_info` that determine the tree. -/
structure CrtCorpcInfo where
  coFilterRanks : Option DRankList
  coGrpVer : ℕ
  coTreeTopo : ℤ
  coRoot : ℕ
  coRootExcluded : Bool

/-- The fields of `struct crt_corpc_hdr` that determine the tree. -/
structure CrtCorpcHdr where
  cohFilterRanks : Option DRankList
  cohGrpVer : ℕ
  cohTreeTopo : ℤ
  cohRoot : ℕ

def crtCorpcInfoInit (filterRanks : Option DRankList) (grpVer : ℕ) (treeTopo : ℤ) (grpRoot : ℕ)
    (rootExcluded : Bool) : CrtCorpcInfo :=
  ⟨dRankListDupSortUniq filterRanks, grpVer, treeTopo, grpRoot, rootExcluded⟩

/-- The header that `crt_corpc_info_init` fills in on the initiator
(`init_hdr`). -/
def CrtCorpcInfo.hdr (co : CrtCorpcInfo) : CrtCorpcHdr :=
  ⟨co.coFilterRanks, co.coGrpVer, co.coTreeTopo, co.coRoot⟩

/-- From the check of the topology on. -/
def crtCorpcReqCreate (grp : CrtGrpPriv) (exclusive : Bool) (filterRanks : Option DRankList)
    (treeTopo : ℤ) : Except Stop CrtCorpcInfo := do
  if crtTreeTopoValid treeTopo = false then throw (.rc (-derInval))
  let grpRoot := grp.gpSelf
  if grpRoot = crtNoRank then throw (.rc (-derGrpver))
  let priRoot := crtGrpPrivGetPrimaryRank grp grpRoot
  let grpVer := grp.gpMembsVer
  let inList := dRankInRankList filterRanks priRoot
  if exclusive && !inList || !exclusive && inList then
    -- make sure that the root is in the tree
    let tobeFilterRanks := dRankListDup filterRanks
    if exclusive then
      let tobeFilterRanks ← dRankListAppend tobeFilterRanks priRoot
      return crtCorpcInfoInit tobeFilterRanks grpVer treeTopo grpRoot true
    else
      let tobeFilterRanks := tobeFilterRanks.map fun l =>
        dRankListFilter (some (.ofList [priRoot])) l true
      return crtCorpcInfoInit tobeFilterRanks grpVer treeTopo grpRoot true
  else
    return crtCorpcInfoInit filterRanks grpVer treeTopo grpRoot false

/-- A header as it arrives at a child. -/
def CrtCorpcHdr.received (hdr : CrtCorpcHdr) : CrtCorpcHdr :=
  { hdr with cohFilterRanks := crtProcDRankList hdr.cohFilterRanks }

/-- On a node that received the request. -/
def crtCorpcInitiate (hdr : CrtCorpcHdr) : CrtCorpcInfo :=
  crtCorpcInfoInit hdr.cohFilterRanks hdr.cohGrpVer hdr.cohTreeTopo hdr.cohRoot false

/-- The child computation of `crt_corpc_req_hdlr`. -/
def corpcChildren (grp : CrtGrpPriv) (exclusive : Bool) (co : CrtCorpcInfo) :
    Except Stop (Option DRankList) := do
  if grp.gpSelf = crtNoRank then throw (.rc (-derGrpver))
  crtTreeGetChildren grp co.coGrpVer exclusive co.coFilterRanks co.coTreeTopo co.coRoot grp.gpSelf

/-! ### A group and a collective on it -/

/-- A group as all its members see it, with the primary rank of a member. -/
structure CrtGroup where
  members : List ℕ
  membsVer : ℕ
  primary : Bool
  primRank : ℕ → ℕ
  members_nodup : members.Nodup
  members_int : members.length < 2 ^ 31
  rank_ne : ∀ m ∈ members, m ≠ crtNoRank
  primRank_inj : ∀ a ∈ members, ∀ b ∈ members, primRank a = primRank b → a = b
  primRank_primary : primary = true → ∀ m, primRank m = m

/-- The group on the node with group rank `self`. -/
def CrtGroup.view (g : CrtGroup) (self : ℕ) : CrtGrpPriv where
  gpMembs := some (.ofList g.members)
  gpMembsVer := g.membsVer
  gpSelf := self
  gpPrimary := g.primary
  gpS2pTable m := if m ∈ g.members then some (g.primRank m) else none

section

variable (g : CrtGroup) (self : ℕ)

@[simp] theorem CrtGroup.view_gpMembs : (g.view self).gpMembs = some (.ofList g.members) := rfl

@[simp] theorem CrtGroup.view_gpMembsVer : (g.view self).gpMembsVer = g.membsVer := rfl

@[simp] theorem CrtGroup.view_gpSelf : (g.view self).gpSelf = self := rfl

end

theorem CrtGroup.primaryRank_view (g : CrtGroup) {self : ℕ} (h : self ∈ g.members) :
    crtGrpPrivGetPrimaryRank (g.view self) self = g.primRank self := by
  rw [crtGrpPrivGetPrimaryRank]
  cases hp : g.primary with
  | true =>
    rw [if_pos (show (g.view self).gpPrimary = true from hp), g.primRank_primary hp]
  | false =>
    rw [if_neg (show ¬ (g.view self).gpPrimary = true by simp [CrtGroup.view, hp])]
    simp [CrtGroup.view, h]

section

variable (g : CrtGroup) (exclusive : Bool) (co : CrtCorpcInfo) (v : ℕ)

/-- What a node knows about the request: the initiator what it created, any
other node what the header tells it. -/
def CrtCorpcInfo.at : CrtCorpcInfo :=
  if v = co.coRoot then co else crtCorpcInitiate co.hdr.received

/-- The children of the node `v`, by its own computation. -/
def childrenOn : Except Stop (Option DRankList) :=
  corpcChildren (g.view v) exclusive (co.at v)

/-- Whom `v` sends the request to; nobody if the computation fails. -/
def relay : List ℕ :=
  match childrenOn g exclusive co v with
  | .ok l => ranksOf l
  | .error _ => []

/-- The nodes that run the handler, each as often as it does. -/
def handlerRuns (hops : ℕ) : List ℕ :=
  (if co.coRootExcluded then [] else [co.coRoot]) ++ sends (relay g exclusive co) co.coRoot hops

/-! ### The header -/

/-- The ranks in the header: the filter, changed so that it selects the
initiator. -/
def headerFilter (filter : List ℕ) (priRoot : ℕ) : List ℕ :=
  if exclusive then if priRoot ∈ filter then filter else filter ++ [priRoot]
  else filter.filter fun r => r ≠ priRoot

end

theorem selects_headerFilter {exclusive : Bool} {filter : List ℕ} {priRoot m : ℕ} :
    selects exclusive (headerFilter exclusive filter priRoot) m = true ↔
      selects exclusive filter m = true ∨ m = priRoot := by
  cases exclusive with
  | true =>
    rw [selects_exclusive, selects_exclusive, headerFilter, if_pos rfl]
    split_ifs with hin
    · exact ⟨Or.inl, fun h => h.elim id fun h => h ▸ hin⟩
    · rw [mem_append, mem_singleton]
  | false =>
    rw [selects_exclude, selects_exclude, headerFilter, if_neg Bool.false_ne_true,
      mem_filter, decide_eq_true_eq]
    by_cases hm : m = priRoot
    · simp [hm]
    · simp [hm]

theorem nodup_headerFilter {filter : List ℕ} (h : filter.Nodup) (exclusive : Bool)
    (priRoot : ℕ) : (headerFilter exclusive filter priRoot).Nodup := by
  cases exclusive with
  | true =>
    rw [headerFilter, if_pos rfl]
    by_cases hin : priRoot ∈ filter
    · rwa [if_pos hin]
    · rw [if_neg hin]
      exact List.Nodup.append h (nodup_singleton _) (by simpa using hin)
  | false => exact h.filter _

/-- What every node knows about one collective. -/
structure CrtCorpcInfo.Describes (co : CrtCorpcInfo) (g : CrtGroup) (header : List ℕ)
    (treeTopo : ℤ) (root : ℕ) : Prop where
  grpVer : co.coGrpVer = g.membsVer
  treeTopo : co.coTreeTopo = treeTopo
  root : co.coRoot = root
  filter : (ranksOf co.coFilterRanks).Perm header

theorem perm_dRankListDupSortUniq {src : Option DRankList} (h : (ranksOf src).Nodup) :
    (ranksOf (dRankListDupSortUniq src)).Perm (ranksOf src) := by
  rw [ranksOf_dRankListDupSortUniq h]
  exact perm_insertionSort _ _

/-- The header is the same on every node. -/
theorem CrtCorpcInfo.Describes.at {co : CrtCorpcInfo} {g : CrtGroup} {header : List ℕ}
    {treeTopo : ℤ} {root : ℕ} (h : co.Describes g header treeTopo root) (hnodup : header.Nodup)
    (v : ℕ) : (co.at v).Describes g header treeTopo root := by
  rw [CrtCorpcInfo.at]
  by_cases hv : v = co.coRoot
  · rwa [if_pos hv]
  · rw [if_neg hv]
    have hranks : ranksOf (crtProcDRankList co.coFilterRanks) = ranksOf co.coFilterRanks :=
      ranksOf_crtProcDRankList _
    refine ⟨h.grpVer, h.treeTopo, h.root, ?_⟩
    refine (perm_dRankListDupSortUniq ?_).trans ?_
    · exact hranks ▸ h.filter.nodup_iff.mpr hnodup
    · exact hranks ▸ h.filter

/-- Filtering by a list of one rank deletes that rank. -/
theorem ranksOf_map_filter_singleton (l : Option DRankList) (rank : ℕ) :
    ranksOf (l.map fun l => dRankListFilter (some (.ofList [rank])) l true) =
      (ranksOf l).filter fun r => r ≠ rank := by
  cases l with
  | none => rfl
  | some l =>
    rw [Option.map_some, ranksOf_some, toList_dRankListFilter (by simp), ranksOf_some]
    refine filter_congr fun r _ => ?_
    rw [Bool.eq_iff_iff, bne_iff_ne, decide_eq_true_eq, ne_eq, dRankInRankList_iff, ranksOf_some,
      DRankList.toList_ofList, mem_singleton]

theorem exists_dRankListAppend {l : Option DRankList} (h : l ≠ none) (rank : ℕ) :
    ∃ l', dRankListAppend (dRankListDup l) rank = .ok l' ∧ ranksOf l' = ranksOf l ++ [rank] := by
  have hdup := ranksOf_dRankListDup l
  cases l with
  | none => exact absurd rfl h
  | some l =>
    cases hd : dRankListDup (some l) with
    | none => exact absurd hd (by rw [dRankListDup]; split <;> simp)
    | some d =>
      refine ⟨_, rfl, ?_⟩
      rw [hd, ranksOf_some] at hdup
      rw [ranksOf_some, DRankList.toList_ofList, hdup]

/-- Creating a request succeeds, with the rewritten filter in the header. -/
theorem exists_crtCorpcReqCreate (g : CrtGroup) {exclusive : Bool} {filterRanks : Option DRankList}
    {treeTopo : ℤ} {root : ℕ} (hroot : root ∈ g.members) (hvalid : crtTreeTopoValid treeTopo = true)
    (hnull : exclusive = true → filterRanks ≠ none) (hnodup : (ranksOf filterRanks).Nodup) :
    ∃ co, crtCorpcReqCreate (g.view root) exclusive filterRanks treeTopo = .ok co ∧
      co.Describes g (headerFilter exclusive (ranksOf filterRanks) (g.primRank root)) treeTopo
        root ∧
      co.coRootExcluded = !selects exclusive (ranksOf filterRanks) (g.primRank root) := by
  have hself : root ≠ crtNoRank := g.rank_ne root hroot
  have hdescribes : ∀ {tobe : Option DRankList} {excluded : Bool},
      ranksOf tobe = headerFilter exclusive (ranksOf filterRanks) (g.primRank root) →
      (crtCorpcInfoInit tobe g.membsVer treeTopo root excluded).Describes g
        (headerFilter exclusive (ranksOf filterRanks) (g.primRank root)) treeTopo root := by
    intro tobe excluded htobe
    refine ⟨rfl, rfl, rfl, ?_⟩
    rw [← htobe]
    exact perm_dRankListDupSortUniq (htobe ▸ nodup_headerFilter hnodup _ _)
  have hin : dRankInRankList filterRanks (g.primRank root) =
      decide (g.primRank root ∈ ranksOf filterRanks) := by
    rw [Bool.eq_iff_iff, dRankInRankList_iff, decide_eq_true_eq]
  simp only [crtCorpcReqCreate, hvalid, Bool.true_eq_false, if_false, CrtGroup.view_gpSelf, hself,
    g.primaryRank_view hroot, CrtGroup.view_gpMembsVer, hin]
  by_cases hp : g.primRank root ∈ ranksOf filterRanks
  · cases exclusive with
    | true =>
      refine ⟨_, by simp [hp]; rfl, hdescribes (by simp [headerFilter, hp]), ?_⟩
      simp [crtCorpcInfoInit, selects, hp]
    | false =>
      -- the initiator is taken out of the excluded ranks
      refine ⟨_, by simp [hp]; rfl, hdescribes ?_, ?_⟩
      · rw [ranksOf_map_filter_singleton, ranksOf_dRankListDup]
        rfl
      · simp [crtCorpcInfoInit, selects, hp]
  · cases exclusive with
    | true =>
      obtain ⟨l, happend, hl⟩ := exists_dRankListAppend (hnull rfl) (g.primRank root)
      refine ⟨_, by simp [hp, happend]; rfl, hdescribes ?_, ?_⟩
      · rw [hl, headerFilter, if_pos rfl, if_neg hp]
      · simp [crtCorpcInfoInit, selects, hp]
    | false =>
      refine ⟨_, by simp [hp]; rfl, hdescribes ?_, ?_⟩
      · -- nothing to take out
        rw [headerFilter, if_neg Bool.false_ne_true, filter_eq_self.mpr]
        intro r hr
        exact decide_eq_true fun heq => hp (heq ▸ hr)
      · simp [crtCorpcInfoInit, selects, hp]

end Cart
