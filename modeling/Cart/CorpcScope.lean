/-
The scope of a collective RPC.

A caller asks for the members whose primary rank is, or is not, in the filter.
The filter is numbered in the primary group, the member list of a secondary
group in that group's own ranks, and the code compares the two as plain
numbers.

Main results: `corpc_scope_primary`, `corpc_scope_secondary`.
-/
import Cart.CorpcRelay

open List

namespace Cart

open Broadcast

variable {exclusive : Bool} {g : CrtGroup} {co : CrtCorpcInfo} {root : ℕ}

/-- After `hops` hops the handler has run on the nodes of `scope`, once each. -/
structure RunsExactly (g : CrtGroup) (exclusive : Bool) (co : CrtCorpcInfo) (scope : ℕ → Prop)
    (hops : ℕ) : Prop where
  ended : sends (relay g exclusive co) co.coRoot (hops + 1) =
    sends (relay g exclusive co) co.coRoot hops
  nodup : (handlerRuns g exclusive co hops).Nodup
  mem : ∀ v, v ∈ handlerRuns g exclusive co hops ↔ scope v

section

variable {scope : ℕ → Prop} {hops : ℕ}

theorem RunsExactly.mem_sends (h : RunsExactly g exclusive co scope hops)
    (hroot : co.coRootExcluded = true ↔ ¬ scope co.coRoot) (v : ℕ) :
    v ∈ sends (relay g exclusive co) co.coRoot hops ↔ scope v ∧ v ≠ co.coRoot := by
  have hmem := h.mem v
  have hnodup := h.nodup
  rw [handlerRuns] at hmem hnodup
  by_cases hex : co.coRootExcluded = true
  · rw [if_pos hex, nil_append] at hmem
    rw [hmem]
    refine ⟨fun hv => ⟨hv, ?_⟩, fun hv => hv.1⟩
    rintro rfl
    exact hroot.mp hex hv
  · rw [if_neg hex, singleton_append] at hmem hnodup
    rw [← hmem, mem_cons]
    constructor
    · intro hv
      refine ⟨.inr hv, ?_⟩
      rintro rfl
      exact (nodup_cons.mp hnodup).1 hv
    · rintro ⟨rfl | hv, hne⟩
      · exact absurd rfl hne
      · exact hv

theorem exists_runsExactly_iff (hroot : co.coRootExcluded = true ↔ ¬ scope co.coRoot) :
    (∃ hops, RunsExactly g exclusive co scope hops) ↔
      Delivers (relay g exclusive co) co.coRoot scope := by
  constructor
  · rintro ⟨hops, h⟩
    exact ⟨hops, h.ended, h.nodup.sublist (sublist_append_right _ _), h.mem_sends hroot⟩
  · rintro ⟨hops, hover, hnodup, hmem⟩
    have hnot : co.coRoot ∉ sends (relay g exclusive co) co.coRoot hops := fun h =>
      ((hmem _).mp h).2 rfl
    refine ⟨hops, hover, ?_, fun v => ?_⟩
    · rw [handlerRuns]
      by_cases hex : co.coRootExcluded = true
      · rwa [if_pos hex, nil_append]
      · rw [if_neg hex]
        exact nodup_cons.mpr ⟨hnot, hnodup⟩
    · rw [handlerRuns, mem_append, hmem v]
      by_cases hex : co.coRootExcluded = true
      · rw [if_pos hex]
        refine ⟨fun h => h.elim (fun h => absurd h not_mem_nil) fun h => h.1, fun hv => ?_⟩
        refine .inr ⟨hv, ?_⟩
        rintro rfl
        exact hroot.mp hex hv
      · have hscope : scope co.coRoot := not_not.mp fun h => hex (hroot.mpr h)
        rw [if_neg hex, mem_singleton]
        constructor
        · rintro (rfl | h)
          · exact hscope
          · exact h.1
        · intro hv
          by_cases hv' : v = co.coRoot
          · exact .inl hv'
          · exact .inr ⟨hv, hv'⟩

end

section

variable (g : CrtGroup) (exclusive : Bool) (filter : List ℕ)

/-- The scope of a filter on a group: the members whose primary rank it
selects. -/
def CrtGroup.scope (v : ℕ) : Prop :=
  v ∈ g.members ∧ selects exclusive filter (g.primRank v) = true

/-- How many members the tree has to connect: those in scope and the
initiator. -/
def CrtGroup.treeSize (root : ℕ) : ℕ :=
  (g.members.filter fun m => selects exclusive filter (g.primRank m) || m = root).length

/-- The collective reaches the scope and the initiator, once each, and runs the handler on the
scope. -/
def ExactScope (filterRanks : Option DRankList) (treeTopo : ℤ) (root : ℕ) (scope : ℕ → Prop) :
    Prop :=
  ∃ co hops, crtCorpcReqCreate (g.view root) exclusive filterRanks treeTopo = .ok co ∧
    RunsExactly g exclusive co scope hops ∧
    (∀ v, v ∈ root :: sends (relay g exclusive co) root hops ↔ scope v ∨ v = root) ∧
    (∀ v, v ≠ root → scope v → (sends (relay g exclusive co) root hops).count v = 1) ∧
    root ∉ sends (relay g exclusive co) root hops ∧
    ∀ v ∈ root :: sends (relay g exclusive co) root hops,
      ∃ l, childrenOn g exclusive co v = .ok l

end

/-! ### The filter as numbers -/

section

variable {filter : List ℕ}

theorem mem_targets_header {v : ℕ} :
    v ∈ targets exclusive (headerFilter exclusive filter (g.primRank root)) g.members ↔
      v ∈ g.members ∧ (selects exclusive filter v = true ∨ v = g.primRank root) := by
  rw [mem_targets, selects_headerFilter]

/-- An exclusive filter is found in full exactly if it names members only. -/
theorem length_targets_exclusive {members header : List ℕ} (hm : members.Nodup)
    (hh : header.Nodup) :
    (targets true header members).length = header.length ↔ ∀ r ∈ header, r ∈ members := by
  have hsub : targets true header members ⊆ header := fun v hv =>
    selects_exclusive.mp (mem_targets.mp hv).2
  have hsubperm := (nodup_targets hm).subperm hsub
  constructor
  · intro hlen r hr
    have hperm := hsubperm.perm_of_length_le hlen.ge
    exact (mem_targets.mp (hperm.mem_iff.mpr hr)).1
  · intro hall
    refine (Perm.length_eq ?_)
    rw [perm_ext_iff_of_nodup (nodup_targets hm) hh]
    intro v
    exact ⟨fun hv => hsub hv, fun hv => mem_targets.mpr ⟨hall v hv, selects_exclusive.mpr hv⟩⟩

theorem mem_headerFilter_exclusive {r priRoot : ℕ} :
    r ∈ headerFilter true filter priRoot ↔ r ∈ filter ∨ r = priRoot := by
  rw [← selects_exclusive, selects_headerFilter, selects_exclusive]

theorem found_iff (hroot : root ∈ g.members) (hnodup : filter.Nodup) :
    Found g exclusive (headerFilter exclusive filter (g.primRank root)) root ↔
      (selects exclusive filter root = true ∨ root = g.primRank root) ∧
        (exclusive = true → ∀ r, r ∈ filter ∨ r = g.primRank root → r ∈ g.members) := by
  have hlen : exclusive = true →
      ((targets true (headerFilter exclusive filter (g.primRank root)) g.members).length =
          (headerFilter exclusive filter (g.primRank root)).length ↔
        ∀ r, r ∈ filter ∨ r = g.primRank root → r ∈ g.members) := by
    rintro rfl
    rw [length_targets_exclusive g.members_nodup (nodup_headerFilter hnodup _ _)]
    exact forall_congr' fun r => by rw [mem_headerFilter_exclusive]
  constructor
  · intro h
    exact ⟨(mem_targets_header.mp h.root_mem).2, fun he => (hlen he).mp (h.length he)⟩
  · rintro ⟨hsel, hall⟩
    exact ⟨mem_targets_header.mpr ⟨hroot, hsel⟩, fun he => (hlen he).mpr (hall he)⟩

/-- If the numbers in the header select the scope and the initiator, the tree
has `treeSize` nodes. -/
theorem length_targets_header
    (h : ∀ m ∈ g.members, (selects exclusive filter m = true ∨ m = g.primRank root) ↔
      (selects exclusive filter (g.primRank m) = true ∨ m = root)) :
    (targets exclusive (headerFilter exclusive filter (g.primRank root)) g.members).length =
      g.treeSize exclusive filter root := by
  rw [targets, CrtGroup.treeSize,
    ((perm_insertionSort (· ≤ ·) g.members).filter _).length_eq]
  congr 1
  refine filter_congr fun m hm => ?_
  rw [Bool.eq_iff_iff, selects_headerFilter, h m hm, Bool.or_eq_true, decide_eq_true_eq]

/-- The header selects the scope if it selects the same members by both ranks. -/
theorem header_agrees_iff : (∀ v, v ≠ root →
      (v ∈ targets exclusive (headerFilter exclusive filter (g.primRank root)) g.members ↔
        g.scope exclusive filter v)) ↔
    ∀ m ∈ g.members, m ≠ root → ((selects exclusive filter m = true ∨ m = g.primRank root) ↔
      selects exclusive filter (g.primRank m) = true) := by
  simp only [mem_targets_header, CrtGroup.scope, and_congr_right_iff]
  exact ⟨fun h m hm hmr => h m hmr hm, fun h v hv hm => h v hm hv⟩

end

/-! ### Primary and secondary groups -/

theorem exists_treeType {treeTopo : ℤ} (hvalid : crtTreeTopoValid treeTopo = true) :
    ∃ t, treeTypeOf (crtTreeType treeTopo) = some t := by
  cases h : treeTypeOf (crtTreeType treeTopo) with
  | none =>
    rw [crtTreeTopoValid, h] at hvalid
    exact absurd hvalid Bool.false_ne_true
  | some t => exact ⟨t, rfl⟩

theorem fits_iff {treeTopo : ℤ} {t : TreeType} {n : ℕ}
    (htype : treeTypeOf (crtTreeType treeTopo) = some t) :
    t.Fits n (crtTreeRatio treeTopo) ↔ (treeTypeOf (crtTreeType treeTopo) = some .kary →
      (n - 1) * crtTreeRatio treeTopo + 1 < 2 ^ 32) := by
  rw [TreeType.Fits, htype, Option.some.injEq]

/-- The initiator runs the handler exactly if it is in scope. -/
theorem rootExcluded_iff {g : CrtGroup} {exclusive : Bool} {filter : List ℕ} {root : ℕ}
    {co : CrtCorpcInfo} (hroot : root ∈ g.members) (hco : co.coRoot = root)
    (hex : co.coRootExcluded = !selects exclusive filter (g.primRank root)) :
    co.coRootExcluded = true ↔ ¬ g.scope exclusive filter co.coRoot := by
  rw [hex, hco, CrtGroup.scope, Bool.not_eq_true', not_and]
  exact ⟨fun h _ => by rw [h]; exact Bool.false_ne_true, fun h => Bool.not_eq_true _ ▸ h hroot⟩

section

variable {filterRanks : Option DRankList} {treeTopo : ℤ}

section

variable {hdr : List ℕ} (hroot : root ∈ g.members) (hvalid : crtTreeTopoValid treeTopo = true)
  (hnodup : hdr.Nodup) (hco : co.Describes g hdr treeTopo root)
  (hex : co.coRootExcluded = !selects exclusive (ranksOf filterRanks) (g.primRank root))

include hroot hvalid hnodup hco hex

/-- Where the header agrees with the scope and the products fit, the handler runs on the scope. -/
theorem exists_runsExactly_of_agree (hfound : Found g exclusive hdr root) (hscope : ∀ v, v ≠ root →
      (v ∈ targets exclusive hdr g.members ↔ g.scope exclusive (ranksOf filterRanks) v))
    (hfit : treeTypeOf (crtTreeType treeTopo) = some .kary →
      ((targets exclusive hdr g.members).length - 1) * crtTreeRatio treeTopo + 1 < 2 ^ 32) :
    ∃ hops, RunsExactly g exclusive co (g.scope exclusive (ranksOf filterRanks)) hops ∧
      (∀ v, v ∈ sends (relay g exclusive co) root hops ↔
        g.scope exclusive (ranksOf filterRanks) v ∧ v ≠ root) ∧
      ∀ v ∈ root :: sends (relay g exclusive co) root hops,
        ∃ l, childrenOn g exclusive co v = .ok l := by
  obtain ⟨t, htype⟩ := exists_treeType hvalid
  have hout := rootExcluded_iff hroot hco.root hex
  obtain ⟨hdel, hok⟩ := delivers_of_found hco hnodup htype hvalid hfound
    ((fits_iff htype).mpr hfit)
  have hdel' := hdel.iff.mpr hscope
  rw [← hco.root] at hdel'
  obtain ⟨hops, hruns⟩ := (exists_runsExactly_iff hout).mpr hdel'
  have hmem := hruns.mem_sends hout
  rw [hco.root] at hmem
  refine ⟨hops, hruns, hmem, fun v hv => hok v ?_⟩
  rcases mem_cons.mp hv with rfl | hv
  · exact hfound.root_mem
  · exact (hscope v ((hmem v).mp hv).2).mpr ((hmem v).mp hv).1

/-- What exact handlers imply, in terms of the header. -/
theorem RunsExactly.header {hops : ℕ}
    (hruns : RunsExactly g exclusive co (g.scope exclusive (ranksOf filterRanks)) hops) :
    Found g exclusive hdr root ∧
        (treeTypeOf (crtTreeType treeTopo) = some .kary →
          ((targets exclusive hdr g.members).length - 1) * crtTreeRatio treeTopo + 1 < 2 ^ 32) ∧
        (∀ v, v ≠ root →
          (v ∈ targets exclusive hdr g.members ↔ g.scope exclusive (ranksOf filterRanks) v)) ∨
      ¬ Found g exclusive hdr root ∧
        ∀ v, v ≠ root → ¬ g.scope exclusive (ranksOf filterRanks) v := by
  obtain ⟨t, htype⟩ := exists_treeType hvalid
  have hdel := (exists_runsExactly_iff (rootExcluded_iff hroot hco.root hex)).mp ⟨hops, hruns⟩
  rw [hco.root, delivers_iff hco hnodup htype hvalid hroot,
    fits_iff htype] at hdel
  exact hdel

end

/-! ### Primary groups -/

theorem found_of_primary (hprim : g.primary = true) (hroot : root ∈ g.members)
    (hnodup : (ranksOf filterRanks).Nodup)
    (hexcl : exclusive = true → ∀ r ∈ ranksOf filterRanks, r ∈ g.members) :
    Found g exclusive (headerFilter exclusive (ranksOf filterRanks) (g.primRank root)) root := by
  have hid := g.primRank_primary hprim
  refine (found_iff hroot hnodup).mpr ⟨.inr (hid root).symm, fun he r hr => ?_⟩
  rcases hr with hr | rfl
  · exact hexcl he r hr
  · rwa [hid root]

theorem length_targets_of_primary (hprim : g.primary = true) :
    (targets exclusive (headerFilter exclusive (ranksOf filterRanks) (g.primRank root))
      g.members).length = g.treeSize exclusive (ranksOf filterRanks) root := by
  have hid := g.primRank_primary hprim
  exact length_targets_header fun m _ => by rw [hid, hid]

/-- On a primary group an exact collective has products that fit. -/
theorem fits_of_exactScope (hprim : g.primary = true) (hroot : root ∈ g.members)
    (hvalid : crtTreeTopoValid treeTopo = true) (hnodup : (ranksOf filterRanks).Nodup)
    (hexcl : exclusive = true → filterRanks ≠ none ∧ ∀ r ∈ ranksOf filterRanks, r ∈ g.members)
    (h : ExactScope g exclusive filterRanks treeTopo root
      (g.scope exclusive (ranksOf filterRanks))) :
    treeTypeOf (crtTreeType treeTopo) = some .kary →
      (g.treeSize exclusive (ranksOf filterRanks) root - 1) * crtTreeRatio treeTopo + 1
        < 2 ^ 32 := by
  obtain ⟨co, hcreate, hco, hex⟩ :=
    exists_crtCorpcReqCreate g hroot hvalid (fun he => (hexcl he).1) hnodup
  obtain ⟨co', hops, hcreate', hruns, _⟩ := h
  obtain rfl : co' = co := by
    rw [hcreate, Except.ok.injEq] at hcreate'
    exact hcreate'.symm
  rw [← length_targets_of_primary hprim]
  have hheader := nodup_headerFilter hnodup exclusive (g.primRank root)
  rcases hruns.header hroot hvalid hheader hco hex with ⟨_, hfit, _⟩ | ⟨hnot, _⟩
  · exact hfit
  · exact absurd (found_of_primary hprim hroot hnodup fun he => (hexcl he).2) hnot

end

/-- **Collectives on a primary group** do what they are asked for exactly if the k-ary products
fit. -/
theorem corpc_scope_primary (g : CrtGroup) (hprim : g.primary = true) (exclusive : Bool)
    (filterRanks : Option DRankList) (treeTopo : ℤ) (root : ℕ) (hroot : root ∈ g.members)
    (hvalid : crtTreeTopoValid treeTopo = true) (hnodup : (ranksOf filterRanks).Nodup)
    (hexcl : exclusive = true → filterRanks ≠ none ∧ ∀ r ∈ ranksOf filterRanks, r ∈ g.members) :
    ExactScope g exclusive filterRanks treeTopo root (g.scope exclusive (ranksOf filterRanks)) ↔
      (treeTypeOf (crtTreeType treeTopo) = some .kary →
        (g.treeSize exclusive (ranksOf filterRanks) root - 1) * crtTreeRatio treeTopo + 1
          < 2 ^ 32) := by
  constructor
  · exact fits_of_exactScope hprim hroot hvalid hnodup hexcl
  · intro hfit
    obtain ⟨co, hcreate, hco, hex⟩ :=
      exists_crtCorpcReqCreate g hroot hvalid (fun he => (hexcl he).1) hnodup
    have hid := g.primRank_primary hprim
    -- the tree is the scope with the initiator
    have hscope := header_agrees_iff.mpr fun m (_ : m ∈ g.members) (hmr : m ≠ root) =>
      show selects exclusive (ranksOf filterRanks) m = true ∨ m = g.primRank root ↔ _ by
        simp [hid, hmr]
    rw [← length_targets_of_primary hprim] at hfit
    obtain ⟨hops, hruns, hmem, hok⟩ := exists_runsExactly_of_agree hroot hvalid
      (nodup_headerFilter hnodup _ _) hco hex
      (found_of_primary hprim hroot hnodup fun he => (hexcl he).2) hscope hfit
    refine ⟨co, hops, hcreate, hruns, ?_, ?_, fun h => ((hmem root).mp h).2 rfl, hok⟩
    · intro v
      rw [mem_cons, hmem v]
      by_cases hv : v = root
      · simp [hv]
      · simp [hv]
    · intro v hv hs
      have hnd : (sends (relay g exclusive co) root hops).Nodup := by
        have h := hruns.nodup.sublist (sublist_append_right _ _)
        rwa [hco.root] at h
      exact count_eq_one_of_mem hnd ((hmem v).mpr ⟨hs, hv⟩)

/-- The primary group of the ranks below `n`. -/
def rangeGroup (n : ℕ) (hn : n < 2 ^ 31) : CrtGroup where
  members := List.range n
  membsVer := 0
  primary := true
  primRank m := m
  members_nodup := List.nodup_range
  members_int := by rwa [List.length_range]
  rank_ne m hm := by
    rw [List.mem_range] at hm
    rw [crtNoRank]
    omega
  primRank_inj _ _ _ _ h := h
  primRank_primary _ _ := rfl

/-- Four ranks, of which `1` and `3` are addressed by `0` in a k-ary tree. -/
theorem corpc_scope_primary_four :
    0 ∈ (rangeGroup 4 (by decide)).members ∧ crtTreeTopoValid (2 * 2 ^ 16 + 2) = true ∧
    ExactScope (rangeGroup 4 (by decide)) true (some (.ofList [1, 3])) (2 * 2 ^ 16 + 2) 0
      ((rangeGroup 4 (by decide)).scope true [1, 3]) := by
  refine ⟨by decide, by decide, ?_⟩
  refine (corpc_scope_primary (rangeGroup 4 (by decide)) rfl true (some (.ofList [1, 3]))
    (2 * 2 ^ 16 + 2) 0 (by decide) (by decide) (by decide) ?_).mpr ?_
  · exact fun _ => ⟨Option.some_ne_none _, by decide⟩
  · intro _
    decide

/-- With `2 ^ 26 + 1` ranks and ratio 64 the product of the last rank wraps to `1`. -/
theorem corpc_scope_primary_wraps :
    ¬ ExactScope (rangeGroup (2 ^ 26 + 1) (by decide)) false none (2 * 2 ^ 16 + 64) 0
      ((rangeGroup (2 ^ 26 + 1) (by decide)).scope false []) := by
  intro h
  have hsize : ∀ n hn, (rangeGroup n hn).treeSize false [] 0 = n := by
    intro n hn
    have hall : ((range n).filter fun m => selects false [] m || m = 0) = range n :=
      filter_eq_self.mpr fun m _ => by simp [selects]
    exact (congrArg List.length hall).trans length_range
  have hfit := fits_of_exactScope (g := rangeGroup (2 ^ 26 + 1) (by norm_num)) rfl
    (mem_range.mpr (by norm_num)) (by decide) (show (ranksOf none).Nodup from nodup_nil)
    (fun he => absurd he Bool.false_ne_true) h (by decide)
  rw [ranksOf_none, hsize, show crtTreeRatio (2 * 2 ^ 16 + 64) = 64 by decide] at hfit
  norm_num at hfit

/-! ### Secondary groups -/

section

variable (g : CrtGroup) (exclusive : Bool) (filter : List ℕ) (root : ℕ)

/-- The handler runs on the members whose primary rank the filter selects, once each. -/
def ExactHandlers (filterRanks : Option DRankList) (treeTopo : ℤ) (root : ℕ) : Prop :=
  ∃ co hops, crtCorpcReqCreate (g.view root) exclusive filterRanks treeTopo = .ok co ∧
    RunsExactly g exclusive co (g.scope exclusive (ranksOf filterRanks)) hops ∧
    (exclusive = true → (∀ r ∈ ranksOf filterRanks, ∃ m ∈ g.members, g.primRank m = r) →
      ∀ v ∈ root :: sends (relay g exclusive co) root hops,
        ∃ l, childrenOn g exclusive co v = .ok l)

/-- What the code selects: it compares the filter with the ranks of the group. -/
def CrtGroup.Shown (m : ℕ) : Prop :=
  selects exclusive filter m = true ∨ m = g.primRank root

/-- The initiator is shown, and an exclusive filter shows members only. -/
def CrtGroup.TreeExists : Prop :=
  g.Shown exclusive filter root root ∧
    (exclusive = true → ∀ r, r ∈ filter ∨ r = g.primRank root → r ∈ g.members)

end

theorem exists_runsExactly_of_no_scope {g : CrtGroup} {exclusive : Bool} {co : CrtCorpcInfo}
    {filter : List ℕ} (hnil : relay g exclusive co co.coRoot = [])
    (hout : co.coRootExcluded = true ↔ ¬ g.scope exclusive filter co.coRoot)
    (hscope : ∀ v, v ≠ co.coRoot → ¬ g.scope exclusive filter v) :
    ∃ hops, RunsExactly g exclusive co (g.scope exclusive filter) hops := by
  refine (exists_runsExactly_iff hout).mpr ((delivers_of_no_kids hnil).iff.mpr fun v hv => ?_)
  exact iff_of_false not_false (hscope v hv)

/-- **Collectives on a secondary group** do what they are asked for exactly if the filter
selects the same members by both ranks, or nobody but the initiator. -/
theorem corpc_scope_secondary (g : CrtGroup) (exclusive : Bool) (filterRanks : Option DRankList)
    (treeTopo : ℤ) (root : ℕ) (hroot : root ∈ g.members)
    (hvalid : crtTreeTopoValid treeTopo = true) (hnodup : (ranksOf filterRanks).Nodup)
    (hnull : exclusive = true → filterRanks ≠ none) :
    ExactHandlers g exclusive filterRanks treeTopo root ↔
      g.TreeExists exclusive (ranksOf filterRanks) root ∧
          (∀ m ∈ g.members, m ≠ root → (g.Shown exclusive (ranksOf filterRanks) root m ↔
            selects exclusive (ranksOf filterRanks) (g.primRank m) = true)) ∧
          (treeTypeOf (crtTreeType treeTopo) = some .kary →
            (g.treeSize exclusive (ranksOf filterRanks) root - 1) * crtTreeRatio treeTopo + 1
              < 2 ^ 32) ∨
        ¬ g.TreeExists exclusive (ranksOf filterRanks) root ∧
          (∀ m ∈ g.members, m ≠ root →
            selects exclusive (ranksOf filterRanks) (g.primRank m) = false) ∧
          (exclusive = true → ∃ r ∈ ranksOf filterRanks, ∀ m ∈ g.members, g.primRank m ≠ r) := by
  obtain ⟨t, htype⟩ := exists_treeType hvalid
  obtain ⟨co, hcreate, hco, hex⟩ := exists_crtCorpcReqCreate g hroot hvalid hnull hnodup
  have hheader := nodup_headerFilter hnodup exclusive (g.primRank root)
  have hfound : Found g exclusive
      (headerFilter exclusive (ranksOf filterRanks) (g.primRank root)) root ↔
      g.TreeExists exclusive (ranksOf filterRanks) root := found_iff hroot hnodup
  have hsize : g.TreeExists exclusive (ranksOf filterRanks) root →
      (∀ m ∈ g.members, m ≠ root → (g.Shown exclusive (ranksOf filterRanks) root m ↔
        selects exclusive (ranksOf filterRanks) (g.primRank m) = true)) →
      (targets exclusive (headerFilter exclusive (ranksOf filterRanks) (g.primRank root))
        g.members).length = g.treeSize exclusive (ranksOf filterRanks) root := by
    intro htree hagree
    refine length_targets_header fun m hm => ?_
    by_cases hmr : m = root
    · rw [hmr]
      exact iff_of_true htree.1 (Or.inr rfl)
    · exact (hagree m hm hmr).trans ⟨Or.inl, fun h => h.resolve_right hmr⟩
  constructor
  · rintro ⟨co', hops, hcreate', hruns, hok⟩
    obtain rfl : co' = co := by
      rw [hcreate, Except.ok.injEq] at hcreate'
      exact hcreate'.symm
    rcases hruns.header hroot hvalid hheader hco hex with ⟨hf, hfit, hscope⟩ | ⟨hf, hscope⟩
    · have hagree := header_agrees_iff.mp hscope
      exact Or.inl ⟨hfound.mp hf, hagree, hsize (hfound.mp hf) hagree ▸ hfit⟩
    · refine Or.inr ⟨fun h => hf (hfound.mpr h), ?_, ?_⟩
      · intro m hm hmr
        exact Bool.not_eq_true _ ▸ fun hs => hscope m hmr ⟨hm, hs⟩
      · -- a failing initiator is only excused by a rank outside the group
        intro he
        by_contra hall
        push Not at hall
        obtain ⟨l, hl⟩ := hok he hall root mem_cons_self
        rcases childrenOn_of_not_found hco hheader htype hvalid hroot hf
          with ⟨e, herr⟩ | ⟨hfalse, _⟩
        · rw [herr] at hl
          cases hl
        · rw [he] at hfalse
          cases hfalse
  · rintro (⟨htree, hagree, hfit⟩ | ⟨htree, hnobody, hout⟩)
    · obtain ⟨hops, hruns, _, hok⟩ := exists_runsExactly_of_agree hroot hvalid hheader hco hex
        (hfound.mpr htree) (header_agrees_iff.mpr hagree) (hsize htree hagree ▸ hfit)
      exact ⟨co, hops, hcreate, hruns, fun _ _ => hok⟩
    · have hnil : relay g exclusive co root = [] :=
        relay_of_not_found hco hheader htype hvalid hroot
          fun h => htree (hfound.mp h)
      obtain ⟨hops, hruns⟩ := exists_runsExactly_of_no_scope (hco.root.symm ▸ hnil)
        (rootExcluded_iff hroot hco.root hex) (fun v hv hs => by
          rw [hco.root] at hv
          rw [CrtGroup.scope, hnobody v hs.1 hv] at hs
          exact Bool.false_ne_true hs.2)
      refine ⟨co, hops, hcreate, hruns, fun he hall => ?_⟩
      obtain ⟨r, hr, hno⟩ := hout he
      obtain ⟨m, hm, hmr⟩ := hall r hr
      exact absurd hmr (hno m hm)

/-- A secondary group of three whose ranks are those of the primary group,
shifted by one. -/
def shiftedGroup : CrtGroup where
  members := [0, 1, 2]
  membsVer := 0
  primary := false
  primRank m := (m + 1) % 3
  members_nodup := by decide
  members_int := by decide
  rank_ne := by decide
  primRank_inj := by decide
  primRank_primary h := absurd h Bool.false_ne_true

/-- The filter has both primary ranks but that of the initiator, so the shift does not matter. -/
theorem corpc_scope_secondary_others :
    1 ∈ shiftedGroup.members ∧ crtTreeTopoValid (1 * 2 ^ 16) = true ∧
    ExactHandlers shiftedGroup true (some (.ofList [0, 1])) (1 * 2 ^ 16) 1 := by
  refine ⟨by decide, by decide, ?_⟩
  refine (corpc_scope_secondary shiftedGroup true (some (.ofList [0, 1])) (1 * 2 ^ 16) 1 (by decide)
    (by decide) (by decide) (by decide)).mpr (Or.inl ⟨⟨?_, ?_⟩, ?_, ?_⟩)
  · exact Or.inl (by decide)
  · rintro - r (hr | rfl)
    · revert r
      decide
    · decide
  · simp only [CrtGroup.Shown]
    decide
  · exact fun h => absurd h (by decide)

/-- Excluding primary rank `0`, rank `2` of the shifted group: the handler runs on `2` and not
on `0`. -/
theorem corpc_scope_secondary_shifted :
    (∃ co, crtCorpcReqCreate (shiftedGroup.view 1) false (some (.ofList [0])) (1 * 2 ^ 16) = .ok co ∧
      sends (relay shiftedGroup false co) 1 2 = sends (relay shiftedGroup false co) 1 1 ∧
      handlerRuns shiftedGroup false co 1 = [1, 2]) ∧
    ¬ ExactHandlers shiftedGroup false (some (.ofList [0])) (1 * 2 ^ 16) 1 := by
  refine ⟨⟨_, rfl, by decide, by decide⟩, ?_⟩
  rintro ⟨co, hops, hcreate, hruns, _⟩
  obtain ⟨co', hcreate', hco, hex⟩ := @exists_crtCorpcReqCreate shiftedGroup false
    (some (.ofList [0])) (1 * 2 ^ 16) 1 (by decide) (by decide) (by decide) (by decide)
  obtain rfl : co' = co := by
    rw [hcreate, Except.ok.injEq] at hcreate'
    exact hcreate'.symm
  rcases hruns.header (by decide) (by decide) (by decide) hco hex with ⟨_, _, hscope⟩ | ⟨_, hscope⟩
  · have h := (hscope 2 (by decide)).mp (by decide)
    exact absurd h.2 (by decide)
  · exact hscope 0 (by decide) ⟨by decide, by decide⟩

end Cart
