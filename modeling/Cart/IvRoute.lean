/-
Whom a node asks for an incast variable (`crt_iv.c`, `crt_tree.c`, `crt_rpc.c`).

A fetch or an update goes to the parent in the tree that the group of the namespace spans
towards the root of the key, or straight to the root.  The parent is computed in the ranks of
this group, but the RPC is created with `ep_grp` set to `NULL`, for the primary group.

Main results: `crtTreeGetParent_eq`, `exists_treeParent`, `iv_route_iff`.
-/
import Cart.CorpcScope

namespace Cart

/-! ### The parent -/

/-- It does not look at `grp_ver`. An error of `to_get_parent` is returned. -/
def crtTreeGetParent (grp : CrtGrpPriv) (excludeRanks : Option DRankList) (treeTopo : ℤ)
    (root self : ℕ) : Except Stop ℕ := do
  dAssert (crtTreeTopoValid treeTopo)
  dAssert (root ≠ crtNoRank)
  dAssert (self ≠ crtNoRank)
  match treeTypeOf (crtTreeType treeTopo) with
  | none => throw .assertFail
  | some treeType =>
    match ← crtGetFilteredGrpRankList grp false excludeRanks root self with
    | none => throw (.rc (-derInval))
    | some fl =>
      let treeParent ← (crtTops treeType).toGetParent fl.grpRankList.rlNr (crtTreeRatio treeTopo)
        fl.grpRoot fl.grpSelf
      return fl.grpRankList.toList.getD treeParent 0

/-- What a namespace knows about its tree: the group and the topology. -/
structure IvnsTree where
  ciiGrpPriv : CrtGrpPriv
  gnTreeTopo : ℤ

/-- The root is its own parent. -/
def crtIvRanksParentGet (ns : IvnsTree) (curNode rootNode : ℕ) : Except Stop ℕ :=
  if curNode = rootNode then .ok rootNode
  else crtTreeGetParent ns.ciiGrpPriv none ns.gnTreeTopo rootNode curNode

def crtIvParentGet (ns : IvnsTree) (rootNode : ℕ) : Except Stop ℕ :=
  if ns.ciiGrpPriv.gpSelf = crtNoRank then .error (.rc (-derGrpver))
  else crtIvRanksParentGet ns ns.ciiGrpPriv.gpSelf rootNode

/-- `crt_iv_shortcut_t`. -/
inductive IvShortcut where
  | toRoot
  | none
  | unknown
  deriving DecidableEq, Repr

def getShortcutPath (ns : IvnsTree) (rootRank : ℕ) : IvShortcut → Except Stop ℕ
  | .toRoot => .ok rootRank
  | .none =>
    match crtIvParentGet ns rootRank with
    | .error (.rc _) => .error (.rc (-derOog))
    | r => r
  | .unknown => .error (.rc (-derInval))

/-! ### The endpoint -/

/-- `crt_endpoint_t`; `none` is `NULL`. -/
structure CrtEndpoint where
  epGrp : Option CrtGrpPriv
  epRank : ℕ

/-- The process that a request goes to, by its rank in the primary group. -/
def CrtEndpoint.target (primary : CrtGrpPriv) (ep : CrtEndpoint) : ℕ :=
  crtGrpPrivGetPrimaryRank (ep.epGrp.getD primary) ep.epRank

/-- The two RPCs. -/
inductive IvRpc where
  | fetch
  | update
  deriving DecidableEq, Repr

/-- The endpoint that `crt_ivf_rpc_issue` and `crt_ivu_rpc_issue` make of `dest`. -/
def IvRpc.endpoint (dest : ℕ) : IvRpc → CrtEndpoint
  | .fetch => ⟨none, dest⟩
  | .update => ⟨none, dest⟩

/-- Where an RPC is issued: by the originator, or by a handler that forwards. -/
inductive IvIssue where
  | call (shortcut : IvShortcut)
  | forward
  deriving DecidableEq, Repr

/-- The node that is asked next. -/
def IvIssue.nextNode (ns : IvnsTree) (root : ℕ) : IvIssue → Except Stop ℕ
  | .call shortcut => getShortcutPath ns root shortcut
  | .forward => crtIvParentGet ns root

/-- The process that the RPC is addressed to. -/
def IvIssue.target (primary : CrtGrpPriv) (ns : IvnsTree) (root : ℕ) (rpc : IvRpc)
    (issue : IvIssue) : Except Stop ℕ := do
  let dest ← issue.nextNode ns root
  return (rpc.endpoint dest).target primary

/-! ### The tree of a group -/

namespace CrtGroup

variable (g : CrtGroup) (topo : ℤ)

/-- The list whose positions make up the tree. -/
def treeList : List ℕ := targets false [] g.members

/-- How far a member is from the root. -/
def treeDist (root v : ℕ) : ℕ :=
  treeRank g.treeList.length (g.treeList.idxOf root) (g.treeList.idxOf v)

/-- `p` is the parent of `v` in the tree towards `root`. -/
def TreeParent (root v p : ℕ) : Prop :=
  ∃ t i, treeTypeOf (crtTreeType topo) = some t ∧
    (crtTops t).toGetParent g.treeList.length (crtTreeRatio topo) (g.treeList.idxOf root)
      (g.treeList.idxOf v) = .ok i ∧ g.treeList[i]? = some p

/-- The node that the member `v` is to ask. -/
def RoutesTo (root v : ℕ) (issue : IvIssue) (p : ℕ) : Prop :=
  match issue with
  | .call .toRoot => p = root
  | .call .none | .forward => if v = root then p = root else g.TreeParent topo root v p
  | .call .unknown => False

/-- The namespace on the member `v`. -/
def ivns (v : ℕ) : IvnsTree := ⟨g.view v, topo⟩

variable {g topo} {root v p : ℕ}

theorem mem_treeList : v ∈ g.treeList ↔ v ∈ g.members := by
  rw [treeList, mem_targets]
  exact and_iff_left (selects_exclude.mpr List.not_mem_nil)

theorem length_treeList_lt : g.treeList.length < 2 ^ 31 :=
  length_targets_le.trans_lt g.members_int

theorem idxOf_lt (hv : v ∈ g.members) : g.treeList.idxOf v < g.treeList.length :=
  List.idxOf_lt_length_iff.mpr (mem_treeList.mpr hv)

/-- A valid topology is one of the table, with a ratio for it. -/
theorem treeType_of_valid (hvalid : crtTreeTopoValid topo = true) :
    ∃ t, treeTypeOf (crtTreeType topo) = some t ∧
      (t ≠ .flat → crtTreeMinRatio ≤ crtTreeRatio topo ∧ crtTreeRatio topo ≤ crtTreeMaxRatio) := by
  rw [crtTreeTopoValid] at hvalid
  cases htype : treeTypeOf (crtTreeType topo) with
  | none =>
    rw [htype] at hvalid
    cases hvalid
  | some t =>
    refine ⟨t, rfl, ?_⟩
    intro hflat
    rw [htype] at hvalid
    cases t with
    | flat => exact absurd rfl hflat
    | kary => simpa using hvalid
    | knomial => simpa using hvalid

theorem exists_treeParent (hvalid : crtTreeTopoValid topo = true) (hroot : root ∈ g.members)
    (hv : v ∈ g.members) (hne : v ≠ root) :
    ∃ p, g.TreeParent topo root v p ∧ p ∈ g.members ∧ g.treeDist root p < g.treeDist root v := by
  obtain ⟨t, htype, hratio⟩ := treeType_of_valid hvalid
  have hidx : g.treeList.idxOf v ≠ g.treeList.idxOf root := by
    intro heq
    exact hne ((List.idxOf_inj (mem_treeList.mpr hv)).mp heq)
  obtain ⟨i, hi, hdist, hget⟩ := crtTops_parent t length_treeList_lt (idxOf_lt hroot) hratio
    (idxOf_lt hv) hidx
  have hnodup : g.treeList.Nodup := nodup_targets g.members_nodup
  refine ⟨g.treeList[i], ⟨t, i, htype, hget, List.getElem?_eq_getElem hi⟩, ?_, ?_⟩
  · exact mem_treeList.mp (List.getElem_mem hi)
  · rw [treeDist, hnodup.idxOf_getElem i hi]
    exact hdist

end CrtGroup

open CrtGroup

variable {g : CrtGroup} {topo : ℤ} {root v p : ℕ} {issue : IvIssue}

section

variable (hvalid : crtTreeTopoValid topo = true) (hroot : root ∈ g.members) (hv : v ∈ g.members)

include hvalid hroot hv

/-- **The parent is found.** -/
theorem crtTreeGetParent_eq (hparent : g.TreeParent topo root v p) (self : ℕ) :
    crtTreeGetParent (g.view self) none topo root v = .ok p := by
  obtain ⟨t, i, htype, hget, hi⟩ := hparent
  have hfound : ∃ l : DRankList, l.toList = targets false (ranksOf none) g.members ∧
      crtGetFilteredGrpRankList (g.view self) false none root v =
        .ok (some ⟨l, l.toList.idxOf root, l.toList.idxOf v⟩) :=
    crtGetFilteredGrpRankList_ok rfl g.members_nodup (mem_treeList.mpr hroot)
      (mem_treeList.mpr hv) (by rintro ⟨⟩)
  obtain ⟨l, hl, hfl⟩ := hfound
  have hlist : l.toList = g.treeList := hl
  have hnr : l.rlNr = g.treeList.length := by rw [← DRankList.length_toList, hlist]
  simp only [crtTreeGetParent, dAssert_true hvalid, dAssert_true (g.rank_ne root hroot),
    dAssert_true (g.rank_ne v hv), htype, bind, Except.bind, hfl, hlist, hnr, hget]
  rw [List.getD_eq_getElem?_getD, hi]
  rfl

theorem nextNode_eq (hroute : g.RoutesTo topo root v issue p) :
    issue.nextNode (g.ivns topo v) root = .ok p := by
  have hparent : (if v = root then p = root else g.TreeParent topo root v p) →
      crtIvParentGet (g.ivns topo v) root = .ok p := by
    intro h
    have hknown : (g.ivns topo v).ciiGrpPriv.gpSelf ≠ crtNoRank := g.rank_ne v hv
    rw [crtIvParentGet, if_neg hknown]
    show crtIvRanksParentGet (g.ivns topo v) v root = _
    rw [crtIvRanksParentGet]
    split_ifs at h ⊢ with hself
    · rw [h]
    · exact crtTreeGetParent_eq hvalid hroot hv h v
  cases issue with
  | forward => exact hparent hroute
  | call shortcut =>
    cases shortcut with
    | toRoot =>
      have heq : p = root := hroute
      rw [heq]
      rfl
    | none =>
      show getShortcutPath (g.ivns topo v) root .none = _
      rw [getShortcutPath, hparent hroute]
    | unknown => exact absurd hroute id

theorem exists_routesTo (hknown : issue ≠ .call .unknown) :
    ∃ p ∈ g.members, g.RoutesTo topo root v issue p := by
  have hparent : ∃ p ∈ g.members, if v = root then p = root else g.TreeParent topo root v p := by
    by_cases hself : v = root
    · exact ⟨root, hroot, by rw [if_pos hself]⟩
    · obtain ⟨p, hp, hmem, _⟩ := exists_treeParent hvalid hroot hv hself
      exact ⟨p, hmem, by rwa [if_neg hself]⟩
  cases issue with
  | forward => exact hparent
  | call shortcut =>
    cases shortcut with
    | toRoot => exact ⟨root, hroot, rfl⟩
    | none => exact hparent
    | unknown => exact absurd rfl hknown

/-- The rank of the next node is taken for one of the primary group. -/
theorem target_eq (hroute : g.RoutesTo topo root v issue p) {primary : CrtGrpPriv}
    (hprimary : primary.gpPrimary = true) (rpc : IvRpc) :
    issue.target primary (g.ivns topo v) root rpc = .ok p := by
  have hendpoint : (rpc.endpoint p).target primary = p := by
    cases rpc with
    | fetch => exact if_pos hprimary
    | update => exact if_pos hprimary
  rw [IvIssue.target, nextNode_eq hvalid hroot hv hroute]
  show Except.ok ((rpc.endpoint p).target primary) = _
  rw [hendpoint]

end

/-- **Routing in a group.** An RPC goes to the node that is to be asked if and only if this has
the same rank in the primary group. -/
theorem iv_route_iff (g : CrtGroup) {topo : ℤ} (hvalid : crtTreeTopoValid topo = true)
    {primary : CrtGrpPriv} (hprimary : primary.gpPrimary = true) :
    (∀ root ∈ g.members, ∀ v ∈ g.members, ∀ issue, issue ≠ .call .unknown →
      ∃ p ∈ g.members, g.RoutesTo topo root v issue p) ∧
    (∀ rpc, ∀ root ∈ g.members, ∀ v ∈ g.members, ∀ issue p, g.RoutesTo topo root v issue p →
      (issue.target primary (g.ivns topo v) root rpc = .ok (g.primRank p) ↔ g.primRank p = p)) ∧
    ((∀ rpc, ∀ root ∈ g.members, ∀ v ∈ g.members, ∀ issue p, g.RoutesTo topo root v issue p →
      issue.target primary (g.ivns topo v) root rpc = .ok (g.primRank p)) ↔
        ∀ m ∈ g.members, g.primRank m = m) := by
  have hone : ∀ rpc, ∀ root ∈ g.members, ∀ v ∈ g.members, ∀ issue p,
      g.RoutesTo topo root v issue p →
      (issue.target primary (g.ivns topo v) root rpc = .ok (g.primRank p) ↔
        g.primRank p = p) := by
    intro rpc root hroot v hv issue p hroute
    rw [target_eq hvalid hroot hv hroute hprimary rpc, Except.ok.injEq]
    exact eq_comm
  refine ⟨?_, hone, ?_⟩
  · intro root hroot v hv issue hknown
    exact exists_routesTo hvalid hroot hv hknown
  · constructor
    · -- every member can be a root that is asked directly
      intro hall m hm
      exact (hone .fetch m hm m hm (.call .toRoot) m rfl).mp
        (hall .fetch m hm m hm (.call .toRoot) m rfl)
    · intro hsame rpc root hroot v hv issue p hroute
      have hknown : issue ≠ .call .unknown := by
        rintro rfl
        exact hroute
      obtain ⟨q, hq, hroute'⟩ := exists_routesTo hvalid hroot hv hknown
      have heq : p = q := by
        have hp := nextNode_eq hvalid hroot hv hroute
        have hq := nextNode_eq hvalid hroot hv hroute'
        exact Except.ok.inj (hp.symm.trans hq)
      rw [heq] at hroute ⊢
      exact (hone rpc root hroot v hv issue q hroute).mpr (hsame q hq)

/-- A flat tree. -/
def flatTopo : ℤ := 2 ^ 16

/-- The primary group of two processes. -/
def pairGroup : CrtGroup := rangeGroup 2 (by decide)

/-- In the primary group, 1 asks 0. -/
theorem iv_route_pair :
    IvIssue.forward.target (pairGroup.view 1) (pairGroup.ivns flatTopo 1) 0 .fetch = .ok 0 := by
  obtain ⟨_, hone, _⟩ := iv_route_iff pairGroup (by decide : crtTreeTopoValid flatTopo = true)
    (by decide : (pairGroup.view 1).gpPrimary = true)
  have hroute : pairGroup.RoutesTo flatTopo 0 1 .forward 0 :=
    ⟨.flat, 0, rfl, by decide +kernel, by decide +kernel⟩
  exact (hone .fetch 0 (by decide) 1 (by decide) .forward 0 hroute).mpr rfl

/-- Member 1, which is process 2, is to ask process 1 and asks process 0. -/
theorem iv_route_broken :
    shiftedGroup.RoutesTo flatTopo 0 1 .forward 0 ∧ shiftedGroup.primRank 0 = 1 ∧
      ∀ rpc, IvIssue.forward.target ((rangeGroup 3 (by decide)).view 2)
        (shiftedGroup.ivns flatTopo 1) 0 rpc = .ok 0 := by
  have hroute : shiftedGroup.RoutesTo flatTopo 0 1 .forward 0 :=
    ⟨.flat, 0, rfl, by decide +kernel, by decide +kernel⟩
  refine ⟨hroute, rfl, fun rpc => ?_⟩
  exact target_eq (by decide) (by decide) (by decide) hroute rfl rpc

end Cart
