/-
The tree that a collective RPC spans.

Every node computes its children by itself, from the header it received; what
the nodes compute together is a broadcast over the ranks of the group.

Main results: `delivers_of_found`, `not_delivers_of_wrap`, `delivers_iff`.
-/
import Cart.CorpcCreate

open List Option

namespace Cart

open Broadcast

/-! ### The tree of a collective -/

theorem targets_congr {exclusive : Bool} {filter filter' members : List ℕ}
    (h : filter.Perm filter') :
    targets exclusive filter members = targets exclusive filter' members := by
  rw [targets, targets]
  refine filter_congr fun v _ => ?_
  simp only [selects, h.mem_iff]

section

variable {g : CrtGroup} {exclusive : Bool} {header l : List ℕ} {treeTopo : ℤ} {t : TreeType}
  {i v : ℕ}
variable {root : ℕ} {co : CrtCorpcInfo}

/-- The nodes find a list for the tree: the initiator is selected, and an
exclusive filter names members only. -/
structure Found (g : CrtGroup) (exclusive : Bool) (header : List ℕ) (root : ℕ) : Prop where
  root_mem : root ∈ targets exclusive header g.members
  length : exclusive = true → (targets true header g.members).length = header.length

theorem relay_eq {l : Option DRankList} (h : childrenOn g exclusive co v = .ok l) :
    relay g exclusive co v = ranksOf l := by
  rw [relay, h]

theorem getD_idxOf (h : v ∈ l) : l.getD (l.idxOf v) 0 = v := by
  rw [getD_eq_getElem?_getD, getElem?_eq_getElem (idxOf_lt_length_of_mem h),
    getD_some, getElem_idxOf]

theorem idxOf_getD (hl : l.Nodup) (h : i < l.length) : l.idxOf (l.getD i 0) = i := by
  rw [getD_eq_getElem?_getD, getElem?_eq_getElem h, getD_some, hl.idxOf_getElem]

theorem getD_mem (h : i < l.length) : l.getD i 0 ∈ l := by
  rw [getD_eq_getElem?_getD, getElem?_eq_getElem h, getD_some]
  exact getElem_mem h

theorem ratio_of_valid (htype : treeTypeOf (crtTreeType treeTopo) = some t)
    (hvalid : crtTreeTopoValid treeTopo = true) :
    t ≠ .flat → crtTreeMinRatio ≤ crtTreeRatio treeTopo ∧
      crtTreeRatio treeTopo ≤ crtTreeMaxRatio := by
  intro hflat
  rw [crtTreeTopoValid, htype] at hvalid
  cases t with
  | flat => exact absurd rfl hflat
  | kary | knomial => simpa using hvalid

section

variable (hco : co.Describes g header treeTopo root) (hnodup : header.Nodup)
  (htype : treeTypeOf (crtTreeType treeTopo) = some t) (hvalid : crtTreeTopoValid treeTopo = true)
  (hfound : Found g exclusive header root)

include hco hnodup htype hvalid hfound

/-- A target writes the positions of its children in the list of targets. -/
theorem exists_childrenOn {L w : List ℕ} (hL : targets exclusive header g.members = L) (hv : v ∈ L)
    (hw : (crtTops t).written L.length (crtTreeRatio treeTopo) (L.idxOf root) (L.idxOf v) = w)
    (hcnt : (crtTops t).toGetChildrenCnt L.length (crtTreeRatio treeTopo) (L.idxOf root)
      (L.idxOf v) = .ok w.length) :
    ∃ res, childrenOn g exclusive co v = .ok res ∧ ranksOf res = w.map fun i => L.getD i 0 := by
  subst hL
  have hd := hco.at hnodup v
  have htargets : ∀ b, targets b (ranksOf (co.at v).coFilterRanks) g.members =
      targets b header g.members := fun b => targets_congr hd.filter
  have hrootM : root ∈ g.members := (mem_targets.mp hfound.root_mem).1
  have hvM : v ∈ g.members := (mem_targets.mp hv).1
  obtain ⟨l, hl, hget⟩ := crtGetFilteredGrpRankList_ok (g.view_gpMembs v) g.members_nodup
    (htargets exclusive ▸ hfound.root_mem) (htargets exclusive ▸ hv)
    (fun he => by rw [htargets, hfound.length he, hd.filter.length_eq])
  rw [htargets] at hl
  have hnr : l.rlNr = (targets exclusive header g.members).length := by
    rw [← hl, DRankList.length_toList]
  rw [hl] at hget
  obtain ⟨res, hres, hranks⟩ := exists_crtTreeGetChildren
    (show (co.at v).coGrpVer = (g.view v).gpMembsVer from hd.grpVer) htype hvalid
    (g.rank_ne root hrootM) (g.rank_ne v hvM) hget (w := w)
    (by rw [hnr]; exact hw) (by rw [hnr]; exact hcnt)
  refine ⟨res, ?_, by rw [hranks, hl]⟩
  simp only [childrenOn, corpcChildren, hd.treeTopo, hd.root, CrtGroup.view_gpSelf]
  rw [if_neg (g.rank_ne v hvM)]
  exact hres

/-- **The request reaches exactly the selected members**, if the list is found and the products
fit. -/
theorem delivers_of_found
    (hfit : t.Fits (targets exclusive header g.members).length (crtTreeRatio treeTopo)) :
    Delivers (relay g exclusive co) root (· ∈ targets exclusive header g.members) ∧
      ∀ v ∈ targets exclusive header g.members, ∃ l, childrenOn g exclusive co v = .ok l := by
  have hLnodup : (targets exclusive header g.members).Nodup := nodup_targets g.members_nodup
  have hn : (targets exclusive header g.members).length < 2 ^ 31 :=
    lt_of_le_of_lt length_targets_le g.members_int
  set L := targets exclusive header g.members with hL
  have hidx : ∀ v, v ∈ L → L.idxOf v < L.length := fun v hv => idxOf_lt_length_of_mem hv
  have hspans := crtTops_spans t (L.idxOf root) hn (hidx root hfound.root_mem)
    (ratio_of_valid htype hvalid) hfit
  have hkids : ∀ v, v ∈ L → ∃ res, childrenOn g exclusive co v = .ok res ∧
      ranksOf res = ((crtTops t).written L.length (crtTreeRatio treeTopo) (L.idxOf root)
        (L.idxOf v)).map fun i => L.getD i 0 := fun v hv =>
    exists_childrenOn hco hnodup htype hvalid hfound hL.symm hv rfl (hspans.cnt _ (hidx v hv))
  refine ⟨?_, fun v hv => (hkids v hv).imp fun _ h => h.1⟩
  have htree := (hspans.relayTree (hidx root hfound.root_mem)).map (fun i => L.getD i 0) L.idxOf
    (· ∈ L) (relay g exclusive co)
    (fun b hb => ⟨hidx b hb, getD_idxOf hb⟩) (fun a ha => ⟨getD_mem ha, idxOf_getD hLnodup ha⟩)
    (fun b hb => by
      obtain ⟨res, hres, hranks⟩ := hkids b hb
      rw [relay_eq hres, hranks])
  rw [getD_idxOf hfound.root_mem] at htree
  exact htree.delivers fun v hv => hspans.dist_lt _ (hidx v hv)

end

/-- The member at a tree rank of the list `l`. -/
def place (l : List ℕ) (root i : ℕ) : ℕ := l.getD (grpRank l.length (l.idxOf root) i) 0

section Place

variable {l : List ℕ} (hroot : root ∈ l)

include hroot

theorem place_zero : place l root 0 = root := by
  rw [place, grpRank_zero (idxOf_lt_length_of_mem hroot), getD_idxOf hroot]

theorem place_mem (i : ℕ) : place l root i ∈ l :=
  getD_mem (grpRank_lt (idxOf_lt_length_of_mem hroot))

theorem idxOf_place (hl : l.Nodup) (i : ℕ) :
    l.idxOf (place l root i) = grpRank l.length (l.idxOf root) i :=
  idxOf_getD hl (grpRank_lt (idxOf_lt_length_of_mem hroot))

theorem place_inj (hl : l.Nodup) {j : ℕ} (hi : i < l.length) (hj : j < l.length)
    (h : place l root i = place l root j) : i = j := by
  have hlt := idxOf_lt_length_of_mem hroot
  have hidx := congrArg l.idxOf h
  rw [idxOf_place hroot hl, idxOf_place hroot hl] at hidx
  rw [← treeRank_grpRank hlt hi, hidx, treeRank_grpRank hlt hj]

end Place

section

variable (hco : co.Describes g header treeTopo root) (hnodup : header.Nodup)
  (htype : treeTypeOf (crtTreeType treeTopo) = some .kary)
  (hvalid : crtTreeTopoValid treeTopo = true) (hfound : Found g exclusive header root)

include hco hnodup htype hvalid hfound

/-- A k-ary node writes the row it enumerates. -/
theorem relay_kary (hl : targets exclusive header g.members = l) (hi : i < l.length)
    {row : List ℕ} (hrun : ∀ buf, karyGetChildren buf i l.length (crtTreeRatio treeTopo) = .ok
    ((ChildBuf.mk 0 buf).puts row)) (hlt : ∀ c ∈ row, c < l.length) :
    relay g exclusive co (place l root i) = row.map (place l root) := by
  have hroot : root ∈ l := hl ▸ hfound.root_mem
  have hidx := idxOf_lt_length_of_mem hroot
  have hnodupL : l.Nodup := hl ▸ nodup_targets g.members_nodup
  have hn : l.length ≤ 2 ^ 31 := hl ▸ (lt_of_le_of_lt length_targets_le g.members_int).le
  obtain ⟨hw, hcnt⟩ := kary_written hn (ratio_of_valid htype hvalid (by decide)) hidx
    (grpRank_lt hidx) (by rwa [treeRank_grpRank hidx hi]) hlt
  rw [← idxOf_place hroot hnodupL i] at hw hcnt
  rw [hw] at hcnt
  subst hl
  obtain ⟨res, hres, hranks⟩ := exists_childrenOn hco hnodup htype hvalid hfound rfl
    (place_mem hroot i) hw hcnt
  rw [relay_eq hres, hranks, List.map_map]
  rfl

/-- **A k-ary tree whose products do not fit is no tree.** -/
theorem not_delivers_of_wrap (hwrap : ¬ TreeType.kary.Fits
    (targets exclusive header g.members).length (crtTreeRatio treeTopo)) (target : ℕ → Prop) :
    ¬ Delivers (relay g exclusive co) root target := by
  have hr := ratio_of_valid htype hvalid (by decide)
  simp only [crtTreeMinRatio, crtTreeMaxRatio] at hr
  obtain ⟨l, hl⟩ : ∃ l, targets exclusive header g.members = l := ⟨_, rfl⟩
  have hnodupL : l.Nodup := hl ▸ nodup_targets g.members_nodup
  have hlen : l.length < 2 ^ 31 := hl ▸ lt_of_le_of_lt length_targets_le g.members_int
  have hroot : root ∈ l := hl ▸ hfound.root_mem
  have hwrap' : 2 ^ 32 ≤ (l.length - 1) * crtTreeRatio treeTopo + 1 := by
    simpa [TreeType.Fits, hl] using hwrap
  obtain ⟨s, hspos, hsn, hfit, hsmall⟩ :=
    exists_first_wrap (show crtTreeRatio treeTopo < 2 ^ 32 by omega) hwrap'
  have hratio : crtTreeRatio treeTopo < l.length := by
    by_contra hge
    have := Nat.mul_le_mul (show l.length - 1 ≤ 64 by omega) hr.2
    omega
  -- below the first wrap every node writes its row
  have hrow : ∀ i, i < s → relay g exclusive co (place l root i) =
      (karyRow i l.length (crtTreeRatio treeTopo) (crtTreeRatio treeTopo) 0).map
        (place l root) := fun i hi =>
    relay_kary hco hnodup htype hvalid hfound hl (by omega)
      (karyGetChildren_eq (by omega) (by omega) (hfit i hi)) fun c hc => (mem_karyRow.mp hc).1
  -- so all nodes up to it are reached
  have hreach : ∀ i, i ≤ s →
      ∃ k, place l root i ∈ root :: sends (relay g exclusive co) root k := by
    intro i
    induction i using Nat.strongRecOn with
    | ind i ih =>
      intro hi
      by_cases hzero : i = 0
      · exact ⟨0, by rw [hzero, place_zero hroot]; exact mem_cons_self⟩
      · have hlt : (i - 1) / crtTreeRatio treeTopo < i := by
          have := Nat.div_le_self (i - 1) (crtTreeRatio treeTopo)
          omega
        obtain ⟨k, hk⟩ := ih _ hlt (by omega)
        refine ⟨k + 1, mem_cons_of_mem _ (kids_subset_sends hk ?_)⟩
        rw [hrow _ (by omega)]
        refine mem_map_of_mem (mem_karyRow.mpr ⟨by omega, (i - 1) % crtTreeRatio treeTopo,
          Nat.zero_le _, ?_, ?_⟩)
        · rw [Nat.zero_add]
          exact Nat.mod_lt _ (by omega)
        · have := Nat.div_add_mod' (i - 1) (crtTreeRatio treeTopo)
          omega
  obtain ⟨k, hk⟩ := hreach s le_rfl
  obtain ⟨row, hrun, hrowlt, hmem⟩ := karyGetChildren_wrap hr.1 hsn (by omega)
  have hkids : relay g exclusive co (place l root s) = row.map (place l root) :=
    relay_kary hco hnodup htype hvalid hfound hl hsn hrun hrowlt
  have hsent : place l root (u32 (s * crtTreeRatio treeTopo + 1)) ∈
      relay g exclusive co (place l root s) := hkids ▸ mem_map_of_mem hmem
  by_cases hzero : u32 (s * crtTreeRatio treeTopo + 1) = 0
  · rw [hzero, place_zero hroot] at hsent
    exact not_delivers_of_root_kid hk hsent
  · -- the wrapped rank is one of the initiator's own children
    have hfirst : place l root (u32 (s * crtTreeRatio treeTopo + 1)) ∈
        relay g exclusive co root := by
      have h0 := hrow 0 hspos
      rw [place_zero hroot] at h0
      rw [h0]
      refine mem_map_of_mem (mem_karyRow.mpr
        ⟨by omega, u32 (s * crtTreeRatio treeTopo + 1) - 1, Nat.zero_le _, by omega, by omega⟩)
    have hne : root ≠ place l root s := by
      intro heq
      have := place_inj hroot hnodupL (show 0 < l.length by omega) hsn ((place_zero hroot).trans heq)
      omega
    exact not_delivers_of_shared_kid mem_cons_self hk hne hfirst hsent

end

section

variable (hco : co.Describes g header treeTopo root) (hnodup : header.Nodup)
  (htype : treeTypeOf (crtTreeType treeTopo) = some t) (hvalid : crtTreeTopoValid treeTopo = true)
  (hrootM : root ∈ g.members)

include hco hnodup htype hvalid hrootM

/-- Without a list the initiator has no children, and in exclusive mode it
fails. -/
theorem childrenOn_of_not_found (hfound : ¬ Found g exclusive header root) :
    (∃ e, childrenOn g exclusive co root = .error e) ∨
      exclusive = false ∧ childrenOn g exclusive co root = .ok none := by
  have hd := hco.at hnodup root
  have hne : root ≠ crtNoRank := g.rank_ne root hrootM
  have htargets : ∀ b, targets b (ranksOf (co.at root).coFilterRanks) g.members =
      targets b header g.members := fun b => targets_congr hd.filter
  have hfail : root ∉ targets exclusive (ranksOf (co.at root).coFilterRanks) g.members ∨
      exclusive = true ∧ (targets true (ranksOf (co.at root).coFilterRanks) g.members).length ≠
        (ranksOf (co.at root).coFilterRanks).length := by
    rw [htargets, htargets, hd.filter.length_eq]
    by_contra hcon
    rw [not_or, not_not] at hcon
    exact hfound ⟨hcon.1, fun he => by_contra fun h => hcon.2 ⟨he, h⟩⟩
  have hchildren : childrenOn g exclusive co root = crtTreeGetChildren (g.view root)
      (co.at root).coGrpVer exclusive (co.at root).coFilterRanks treeTopo root root := by
    simp only [childrenOn, corpcChildren, hd.treeTopo, hd.root, CrtGroup.view_gpSelf]
    rw [if_neg hne]
  rw [hchildren, crtTreeGetChildren_checked
    (show (co.at root).coGrpVer = (g.view root).gpMembsVer from hd.grpVer) htype hvalid hne hne]
  rcases crtGetFilteredGrpRankList_fails root (g.view_gpMembs root) g.members_nodup hfail
    with ⟨e, he⟩ | ⟨hexcl, hnone⟩
  · exact Or.inl ⟨e, by rw [he]; rfl⟩
  · exact Or.inr ⟨hexcl, by rw [hnone]; rfl⟩

theorem relay_of_not_found (hfound : ¬ Found g exclusive header root) :
    relay g exclusive co root = [] := by
  rw [relay]
  rcases childrenOn_of_not_found hco hnodup htype hvalid hrootM hfound with ⟨e, he⟩ | ⟨_, he⟩
  · rw [he]
  · rw [he]
    rfl

/-- **Whom a collective is delivered to**, in terms of the header. -/
theorem delivers_iff (scope : ℕ → Prop) : Delivers (relay g exclusive co) root scope ↔
      Found g exclusive header root ∧
          t.Fits (targets exclusive header g.members).length (crtTreeRatio treeTopo) ∧
          (∀ v, v ≠ root → (v ∈ targets exclusive header g.members ↔ scope v)) ∨
        ¬ Found g exclusive header root ∧ ∀ v, v ≠ root → ¬ scope v := by
  by_cases hfound : Found g exclusive header root
  · simp only [hfound, true_and, not_true_eq_false, false_and, or_false]
    by_cases hfit : t.Fits (targets exclusive header g.members).length (crtTreeRatio treeTopo)
    · rw [(delivers_of_found hco hnodup htype hvalid hfound hfit).1.iff]
      exact ⟨fun h => ⟨hfit, h⟩, fun h => h.2⟩
    · obtain rfl : t = .kary := by
        by_contra hne
        exact hfit fun h => absurd h hne
      constructor
      · intro h
        exact absurd h (not_delivers_of_wrap hco hnodup htype hvalid hfound hfit scope)
      · exact fun h => absurd h.1 hfit
  · have hnil := relay_of_not_found hco hnodup htype hvalid hrootM hfound
    simp only [hfound, false_and, not_false_eq_true, true_and, false_or]
    rw [(delivers_of_no_kids hnil).iff]
    exact forall_congr' fun v => imp_congr_right fun _ => iff_of_eq (false_iff _)

end

end

end Cart
