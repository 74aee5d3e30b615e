/-
What calls do to the mapping of a secondary group.

The mapping is read off the table from secondary to primary ranks; the other table follows
(`Mapped.inverse`).  A modification enters the requested pairs before it takes anything out.

Main results: `cleanup_tables`, `Mapped.s2p_removePrimary`,
`Mapped.rankAddInternal_of_free`, `rankAddInternal_free`, `Mapped.modifyAdd_pairs`,
`Mapped.modifyAdd_of_free`.
-/
import Cart.Faults
import Cart.GroupMapping

open Function List Option

namespace Cart

variable {toAdd : List (ℕ × ℕ)} {g₁ : GrpPriv} {op : GroupModOp}

open CrtSwimMembs (RankAddEnv)
open Faults (exists_of_bind_eq_ok of_guard)

/-! ### The two lists of a modification -/

/-- A modification takes a member out. -/
def GroupModOp.Drops (op : GroupModOp) (modMembs : List ℕ) (rank : ℕ) : Prop :=
  match op with
  | .replace => rank ∉ modMembs
  | .add => False
  | .remove => rank ∈ modMembs

instance (op : GroupModOp) (modMembs : List ℕ) (rank : ℕ) : Decidable (op.Drops modMembs rank) := by
  cases op <;> dsimp only [GroupModOp.Drops] <;> infer_instance

/-- The entries of the caller's list that are new, with their positions. -/
def newEntries (grpMembs modMembs : List ℕ) : List (ℕ × ℕ) :=
  modMembs.zipIdx.filter fun entry => entry.1 ∉ grpMembs

theorem mem_newEntries {grpMembs modMembs : List ℕ} {rank i : ℕ} :
    (rank, i) ∈ newEntries grpMembs modMembs ↔ modMembs[i]? = some rank ∧ rank ∉ grpMembs := by
  rw [newEntries, mem_filter, mem_zipIdx_iff_getElem?, decide_eq_true_iff]

theorem map_fst_newEntries (grpMembs modMembs : List ℕ) :
    (newEntries grpMembs modMembs).map Prod.fst = modMembs.filter fun rank => rank ∉ grpMembs := by
  have hmap := filter_map (p := fun rank => decide (rank ∉ grpMembs)) (f := Prod.fst)
    (l := modMembs.zipIdx)
  rw [zipIdx_map_fst] at hmap
  exact hmap.symm

/-- The ranks that a modification has to add, with their positions in the caller's list. -/
def modEntries (op : GroupModOp) (members ranks : List ℕ) : List (ℕ × ℕ) :=
  if op = .remove then [] else newEntries members ranks

theorem mem_modEntries {members ranks : List ℕ} {rank i : ℕ} :
    (rank, i) ∈ modEntries op members ranks ↔
      op ≠ .remove ∧ ranks[i]? = some rank ∧ rank ∉ members := by
  rw [modEntries]
  split_ifs with hop
  · exact iff_of_false not_mem_nil fun hand => hand.1 hop
  · rw [mem_newEntries]
    exact (and_iff_right hop).symm

theorem mem_map_modEntries {members ranks : List ℕ} {rank : ℕ} :
    rank ∈ (modEntries op members ranks).map Prod.fst ↔
      op ≠ .remove ∧ rank ∈ ranks ∧ rank ∉ members := by
  constructor
  · intro hmem
    obtain ⟨⟨r, i⟩, he, rfl⟩ := mem_map.mp hmem
    obtain ⟨hop, hi, hno⟩ := mem_modEntries.mp he
    exact ⟨hop, mem_of_getElem? hi, hno⟩
  · rintro ⟨hop, hmem, hno⟩
    obtain ⟨i, hi⟩ := getElem?_of_mem hmem
    exact mem_map_of_mem (mem_modEntries.mpr ⟨hop, hi, hno⟩)

theorem nodup_modEntries {ranks : List ℕ} (h : ranks.Nodup) (op : GroupModOp) (members : List ℕ) :
    ((modEntries op members ranks).map Prod.fst).Nodup := by
  rw [modEntries]
  split
  · exact .nil
  · rw [map_fst_newEntries]
    exact h.filter _

theorem crtGroupModGet_eq_ok {grpMembs modMembs : List ℕ}
    {toRemove : List ℕ} (h : crtGroupModGet grpMembs modMembs op = .ok (toAdd, toRemove)) :
    toAdd = modEntries op grpMembs modMembs ∧
      ∀ rank, rank ∈ toRemove ↔ rank ∈ grpMembs ∧ op.Drops modMembs rank := by
  cases op with
  | replace =>
    cases h
    refine ⟨rfl, fun rank => ?_⟩
    rw [mem_filter, decide_eq_true_iff]
    rfl
  | add =>
    cases h
    exact ⟨rfl, fun rank => iff_of_false not_mem_nil And.right⟩
  | remove =>
    rw [crtGroupModGet] at h
    split at h
    · cases h
    · cases h
      refine ⟨rfl, fun rank => ?_⟩
      rw [mem_filter, decide_eq_true_iff]
      exact And.comm

namespace GrpPriv

variable {g g' : GrpPriv} {rank : ℕ} {membs : List ℕ} {envs : ℕ → RankAddEnv}

/-! ### Removals -/

theorem removeInternal_tables (h : g.gpPrimary = false) (rank : ℕ) :
    (g.crtGroupRankRemoveInternal rank).2.gpPrimary = false ∧
    (∀ s, (g.crtGroupRankRemoveInternal rank).2.gpS2pTable s =
      if s = rank then none else g.gpS2pTable s) ∧
    ∀ p, (g.crtGroupRankRemoveInternal rank).2.gpP2sTable p =
      if g.gpS2pTable rank = some p then none else g.gpP2sTable p := by
  have hno : ¬ g.gpPrimary = true := Bool.eq_false_iff.mp h
  rw [crtGroupRankRemoveInternal, if_neg hno]
  cases hs : g.gpS2pTable rank with
  | none =>
    refine ⟨h, fun s => ?_, fun p => ?_⟩
    · split_ifs with heq
      · rw [heq, hs]
      · rfl
    · rw [if_neg (some_ne_none p).symm]
  | some primRank =>
    have hsame := sameBut_removeSlot { g with
      gpS2pTable := update g.gpS2pTable rank none
      gpP2sTable := update g.gpP2sTable primRank none } rank
    refine ⟨hsame.primary.trans h, fun s => ?_, fun p => ?_⟩
    · rw [hsame.s2p]
      exact update_apply _ _ _ _
    · rw [hsame.p2s]
      refine (update_apply _ _ _ _).trans (if_congr ?_ rfl rfl)
      rw [some.injEq]
      exact eq_comm

theorem s2p_removeInternal (h : g.gpPrimary = false) (rank s : ℕ) :
    (g.crtGroupRankRemoveInternal rank).2.gpS2pTable s = if s = rank then none else g.gpS2pTable s :=
  (removeInternal_tables h rank).2.1 s

theorem gpSelf_removeInternal (g : GrpPriv) (rank : ℕ) :
    (g.crtGroupRankRemoveInternal rank).2.gpSelf = g.gpSelf := by
  rw [crtGroupRankRemoveInternal]
  split
  · split
    · exact (sameBut_removeSlot _ rank).own
    · rfl
  · split
    · rfl
    · exact (sameBut_removeSlot _ rank).own

theorem cleanup_tables (h : g.gpPrimary = false) (ranks : List ℕ) :
    (∀ s, (g.cleanup ranks).gpS2pTable s = if s ∈ ranks then none else g.gpS2pTable s) ∧
    ∀ p, (g.cleanup ranks).gpP2sTable p =
      if ∃ s ∈ ranks, g.gpS2pTable s = some p then none else g.gpP2sTable p := by
  induction ranks generalizing g with
  | nil =>
    refine ⟨fun s => (if_neg not_mem_nil).symm, fun p => (if_neg ?_).symm⟩
    rintro ⟨s, hs, _⟩
    exact not_mem_nil hs
  | cons rank ranks ih =>
    obtain ⟨hsec, hs2p, hp2s⟩ := removeInternal_tables h rank
    obtain ⟨ihs, ihp⟩ := ih hsec
    refine ⟨fun s => (ihs s).trans ?_, fun p => (ihp p).trans ?_⟩
    · rw [hs2p]
      by_cases hs : s = rank
      · rw [if_pos hs, if_pos (mem_cons.mpr (.inl hs)), ite_self]
      · rw [if_neg hs]
        refine if_congr ?_ rfl rfl
        rw [mem_cons]
        exact ⟨.inr, fun hor => hor.resolve_left hs⟩
    · rw [hp2s]
      by_cases hfirst : g.gpS2pTable rank = some p
      · rw [if_pos hfirst, ite_self]
        exact (if_pos ⟨rank, mem_cons_self, hfirst⟩).symm
      · rw [if_neg hfirst]
        refine if_congr ?_ rfl rfl
        constructor
        · rintro ⟨s, hs, heq⟩
          rw [hs2p] at heq
          split at heq
          · cases heq
          · exact ⟨s, mem_cons_of_mem _ hs, heq⟩
        · rintro ⟨s, hs, heq⟩
          have hne : s ≠ rank := by
            rintro rfl
            exact hfirst heq
          refine ⟨s, (mem_cons.mp hs).resolve_left hne, ?_⟩
          rw [hs2p, if_neg hne, heq]

theorem gpSelf_cleanup (g : GrpPriv) (ranks : List ℕ) : (g.cleanup ranks).gpSelf = g.gpSelf := by
  induction ranks generalizing g with
  | nil => rfl
  | cons rank ranks ih => exact (ih _).trans (g.gpSelf_removeInternal rank)

theorem Mapped.s2p_removePrimary (h : Mapped membs g) (p s : ℕ) :
    (g.removePrimary p).gpS2pTable s = if g.gpS2pTable s = some p then none else g.gpS2pTable s := by
  rw [GrpPriv.removePrimary]
  split
  · rename_i hnone
    rw [if_neg]
    rw [h.inverse s p, hnone]
    exact (some_ne_none s).symm
  · rename_i secRank hsome
    rw [s2p_removeInternal h.secondary]
    refine if_congr ?_ rfl rfl
    rw [h.inverse s p, hsome, some.injEq]
    exact eq_comm

theorem gpSelf_removePrimary (g : GrpPriv) (p : ℕ) : (g.removePrimary p).gpSelf = g.gpSelf := by
  rw [GrpPriv.removePrimary]
  split
  · rfl
  · exact g.gpSelf_removeInternal _

/-! ### Additions -/

/-- The pair of a secondary and a primary rank can be entered. -/
structure Free (prim g : GrpPriv) (s p : ℕ) : Prop where
  member : p ∈ prim.gpMembs.cgmLinearList
  sec : g.gpS2pTable s = none
  prim : g.gpP2sTable p = none

/-- `g'` is `g` with one more pair of ranks; `own` is the self rank of the primary group. -/
structure Paired (membs : List ℕ) (own s p : ℕ) (g g' : GrpPriv) : Prop where
  mapped : Mapped membs g'
  s2p : g'.gpS2pTable = Function.update g.gpS2pTable s (some p)
  p2s : g'.gpP2sTable = Function.update g.gpP2sTable p (some s)
  self : g'.gpSelf = if p = own then s else g.gpSelf

variable {prim : GrpPriv} {service : Bool} {env : RankAddEnv} {s p : ℕ}

theorem rankAddInternal_free {rc : ℤ} (hrc : rc = 0)
    (h : g.crtGroupSecondaryRankAddInternal service env prim s p = .ok (rc, g')) :
    prim.gpSelf ≠ crtNoRank ∧ Free prim g s p := by
  rw [crtGroupSecondaryRankAddInternal] at h
  split at h
  · cases h
    cases hrc
  · rename_i hmem
    split at h
    · cases h
    · rename_i hself
      have htables : ∀ c : Prop, ∀ [Decidable c],
          (if c then { g with gpSelf := s } else g).gpS2pTable = g.gpS2pTable ∧
          (if c then { g with gpSelf := s } else g).gpP2sTable = g.gpP2sTable := by
        intro c _
        split
        · exact ⟨rfl, rfl⟩
        · exact ⟨rfl, rfl⟩
      dsimp only at h
      rw [(htables _).1, (htables _).2] at h
      split at h
      · cases h
        cases hrc
      · rename_i hs
        split at h
        · cases h
          cases hrc
        · rename_i hp
          exact ⟨hself, not_not.mp hmem, not_isSome_iff_eq_none.mp hs,
            not_isSome_iff_eq_none.mp hp⟩

theorem Mapped.rankAddInternal_of_free (h : Mapped prim.gpMembs.cgmLinearList g) (service : Bool)
    (env : RankAddEnv) (hs : s ≠ crtNoRank) (hself : prim.gpSelf ≠ crtNoRank) (hfree : Free prim g s p) :
    ∃ g', g.crtGroupSecondaryRankAddInternal service env prim s p = .ok (0, g') ∧
      Paired prim.gpMembs.cgmLinearList prim.gpSelf s p g g' := by
  rw [crtGroupSecondaryRankAddInternal, if_neg (not_not.mpr hfree.member), if_neg hself]
  have hmapped := h.setSelf s p prim.gpSelf
  have hs2p : (if p = prim.gpSelf then { g with gpSelf := s } else g).gpS2pTable = g.gpS2pTable := by
    split
    · rfl
    · rfl
  have hp2s : (if p = prim.gpSelf then { g with gpSelf := s } else g).gpP2sTable = g.gpP2sTable := by
    split
    · rfl
    · rfl
  have hown : (if p = prim.gpSelf then { g with gpSelf := s } else g).gpSelf =
      if p = prim.gpSelf then s else g.gpSelf := by
    split
    · rfl
    · rfl
  generalize (if p = prim.gpSelf then { g with gpSelf := s } else g) = g₁ at hmapped hs2p hp2s hown
  have hs₁ : g₁.gpS2pTable s = none := by rw [hs2p, hfree.sec]
  have hp₁ : g₁.gpP2sTable p = none := by rw [hp2s, hfree.prim]
  rw [if_neg (by rw [hs₁]; exact Bool.false_ne_true), if_neg (by rw [hp₁]; exact Bool.false_ne_true)]
  obtain ⟨⟨rc, g'⟩, hok, hadded⟩ := grpAddToMembsList_spec service env
    (g := g₁.mapRank s p) ⟨hmapped.slots.free, hmapped.slots.size⟩ hs
  obtain ⟨hrc, hmapped'⟩ := hmapped.insert hs₁ hp₁ hfree.member hadded
  rw [hok]
  simp only [bind, Except.bind]
  rw [if_neg (not_not.mpr hrc)]
  refine ⟨g', rfl, hmapped', ?_, ?_, hadded.same.own.trans hown⟩
  · rw [← hs2p]
    exact hadded.same.s2p
  · rw [← hp2s]
    exact hadded.same.p2s

theorem Mapped.paired_of_rankAddInternal (h : Mapped prim.gpMembs.cgmLinearList g) (hs : s ≠ crtNoRank)
    (hok : g.crtGroupSecondaryRankAddInternal service env prim s p = .ok (0, g')) :
    prim.gpSelf ≠ crtNoRank ∧ Free prim g s p ∧
      Paired prim.gpMembs.cgmLinearList prim.gpSelf s p g g' := by
  obtain ⟨hself, hfree⟩ := rankAddInternal_free rfl hok
  obtain ⟨g'', hok', hpaired⟩ := h.rankAddInternal_of_free service env hs hself hfree
  rw [hok] at hok'
  cases hok'
  exact ⟨hself, hfree, hpaired⟩

/-! ### Several additions -/

/-- The pairs of a modification. -/
def pairsOf (primRanks : List ℕ) (toAdd : List (ℕ × ℕ)) : List (ℕ × ℕ) :=
  toAdd.map fun entry => (entry.1, primRanks.getD entry.2 0)

/-- `g'` is `g` with the pairs, which were free. -/
structure PairedAll (prim : GrpPriv) (pairs : List (ℕ × ℕ)) (g g' : GrpPriv) : Prop where
  mapped : Mapped prim.gpMembs.cgmLinearList g'
  free : ∀ e ∈ pairs, Free prim g e.1 e.2
  entered : ∀ e ∈ pairs, g'.gpS2pTable e.1 = some e.2
  kept : ∀ s, s ∉ pairs.map Prod.fst → g'.gpS2pTable s = g.gpS2pTable s
  -- without its self rank the primary group takes no pairs
  own : pairs ≠ [] → prim.gpSelf ≠ crtNoRank
  self_new : ∀ s, (s, prim.gpSelf) ∈ pairs → g'.gpSelf = s
  self_old : (∀ s, (s, prim.gpSelf) ∉ pairs) → g'.gpSelf = g.gpSelf

theorem PairedAll.nil (h : Mapped prim.gpMembs.cgmLinearList g) : PairedAll prim [] g g :=
  ⟨h, fun _ he => absurd he not_mem_nil, fun _ he => absurd he not_mem_nil, fun _ _ => rfl,
    fun hne => absurd rfl hne, fun _ hs => absurd hs not_mem_nil, fun _ => rfl⟩

theorem PairedAll.cons {pairs : List (ℕ × ℕ)} (hself : prim.gpSelf ≠ crtNoRank)
    (hfree : Free prim g s p) (hpaired : Paired prim.gpMembs.cgmLinearList prim.gpSelf s p g g₁)
    (h : PairedAll prim pairs g₁ g') : PairedAll prim ((s, p) :: pairs) g g' := by
  have hne : ∀ e ∈ pairs, e.1 ≠ s ∧ e.2 ≠ p := by
    intro e he
    have hsec := (h.free e he).sec
    have hprim := (h.free e he).prim
    rw [hpaired.s2p] at hsec
    rw [hpaired.p2s] at hprim
    constructor
    · intro heq
      rw [heq, update_self] at hsec
      cases hsec
    · intro heq
      rw [heq, update_self] at hprim
      cases hprim
  have hfst : s ∉ pairs.map Prod.fst := by
    intro hmem
    obtain ⟨e, he, heq⟩ := mem_map.mp hmem
    exact (hne e he).1 heq
  refine ⟨h.mapped, fun e he => ?_, fun e he => ?_, fun x hx => ?_, fun _ => hself, fun x hx => ?_,
    fun hno => ?_⟩
  · rcases mem_cons.mp he with rfl | he
    · exact hfree
    · obtain ⟨hmember, hsec, hprim⟩ := h.free e he
      rw [hpaired.s2p, update_of_ne (hne e he).1] at hsec
      rw [hpaired.p2s, update_of_ne (hne e he).2] at hprim
      exact ⟨hmember, hsec, hprim⟩
  · rcases mem_cons.mp he with rfl | he
    · rw [h.kept s hfst, hpaired.s2p, update_self]
    · exact h.entered e he
  · rw [map_cons, mem_cons, not_or] at hx
    rw [h.kept x hx.2, hpaired.s2p, update_of_ne hx.1]
  · rcases mem_cons.mp hx with heq | hx
    · -- no later pair has the same primary rank
      obtain ⟨rfl, hown⟩ := Prod.mk.inj heq
      rw [h.self_old fun y hy => (hne _ hy).2 hown, hpaired.self, if_pos hown.symm]
    · exact h.self_new x hx
  · rw [h.self_old fun y hy => hno y (mem_cons_of_mem _ hy), hpaired.self, if_neg]
    intro heq
    exact hno s (heq ▸ mem_cons_self)

section

variable (service : Bool) (envs : ℕ → RankAddEnv) (primRanks : List ℕ) (toAdd : List (ℕ × ℕ))

theorem Mapped.modifyAdd_pairs :
    ∀ {added added' : List ℕ} {g : GrpPriv}, Mapped prim.gpMembs.cgmLinearList g →
      (∀ entry ∈ toAdd, entry.1 ≠ crtNoRank) →
      GrpPriv.secondaryModifyAdd service envs prim primRanks toAdd added g = .ok (0, added', g') →
      PairedAll prim (pairsOf primRanks toAdd) g g' := by
  induction toAdd with
  | nil =>
    intro added added' g h _ hok
    cases hok
    exact .nil h
  | cons entry toAdd ih =>
    intro added added' g h hne hok
    rw [GrpPriv.secondaryModifyAdd] at hok
    obtain ⟨⟨rc, g₁⟩, hcall, hok⟩ := exists_of_bind_eq_ok hok
    obtain ⟨hrc, hok⟩ := of_guard hok id
    rw [not_not.mp hrc] at hcall
    obtain ⟨hself, hfree, hpaired⟩ := h.paired_of_rankAddInternal (hne _ mem_cons_self) hcall
    exact .cons hself hfree hpaired
      (ih hpaired.mapped (fun entry he => hne entry (mem_cons_of_mem _ he)) hok)

/-- Pairs that are free and have no rank in common are all entered. -/
theorem Mapped.modifyAdd_of_free :
    ∀ (added : List ℕ) {g : GrpPriv}, Mapped prim.gpMembs.cgmLinearList g →
      (toAdd ≠ [] → prim.gpSelf ≠ crtNoRank) → (∀ entry ∈ toAdd, entry.1 ≠ crtNoRank) →
      (∀ e ∈ pairsOf primRanks toAdd, Free prim g e.1 e.2) →
      ((pairsOf primRanks toAdd).map Prod.fst).Nodup → ((pairsOf primRanks toAdd).map Prod.snd).Nodup →
      ∃ added' g', GrpPriv.secondaryModifyAdd service envs prim primRanks toAdd added g =
        .ok (0, added', g') := by
  induction toAdd with
  | nil =>
    intro added g h _ _ _ _ _
    exact ⟨added, g, rfl⟩
  | cons entry toAdd ih =>
    intro added g h hown hne hfree hfst hsnd
    have hself := hown (cons_ne_nil _ _)
    obtain ⟨rank, i⟩ := entry
    obtain ⟨hfst, hfsts⟩ := nodup_cons.mp hfst
    obtain ⟨hsnd, hsnds⟩ := nodup_cons.mp hsnd
    obtain ⟨g₁, hok, hpaired⟩ := h.rankAddInternal_of_free service (envs i)
      (hne _ mem_cons_self) hself (hfree (rank, primRanks.getD i 0) mem_cons_self)
    rw [GrpPriv.secondaryModifyAdd, hok]
    simp only [bind, Except.bind]
    rw [if_neg (not_not.mpr rfl)]
    refine ih _ hpaired.mapped (fun _ => hself) (fun entry he => hne entry (mem_cons_of_mem _ he)) ?_
      hfsts hsnds
    -- the pair has no rank in common with those to come
    intro e he
    obtain ⟨hmember, hsec, hprim⟩ := hfree e (mem_cons_of_mem _ he)
    have hs : e.1 ≠ rank := fun heq => hfst (mem_map.mpr ⟨e, he, heq⟩)
    have hp : e.2 ≠ primRanks.getD i 0 := fun heq => hsnd (mem_map.mpr ⟨e, he, heq⟩)
    refine ⟨hmember, ?_, ?_⟩
    · rw [hpaired.s2p, update_of_ne hs]
      exact hsec
    · rw [hpaired.p2s, update_of_ne hp]
      exact hprim

end

/-! ### Modifications -/

/-- The pairs that a modification has to enter. -/
def modPairs (g : GrpPriv) (secRanks primRanks : List ℕ) (op : GroupModOp) : List (ℕ × ℕ) :=
  pairsOf primRanks (if op = .remove then [] else newEntries g.gpMembs.cgmLinearList secRanks)

theorem modify_inv {secRanks primRanks : List ℕ} {rc : ℤ} (hrc : rc = 0)
    (hcall : g.crtGroupSecondaryModify service envs prim secRanks primRanks op = .ok (rc, g')) :
    secRanks ≠ [] ∧ ∃ toAdd toRemove added g₁,
      crtGroupModGet g.gpMembs.cgmLinearList secRanks op = .ok (toAdd, toRemove) ∧
      GrpPriv.secondaryModifyAdd service envs prim primRanks toAdd [] g = .ok (0, added, g₁) ∧
      g' = g₁.cleanup toRemove := by
  subst hrc
  rw [crtGroupSecondaryModify] at hcall
  obtain ⟨_, hcall⟩ := of_guard hcall fun _ => by decide
  obtain ⟨hne, hcall⟩ := of_guard hcall fun _ => by decide
  obtain ⟨_, hcall⟩ := of_guard hcall fun _ => by decide
  obtain ⟨_, hcall⟩ := of_guard hcall fun _ => by decide
  obtain ⟨⟨toAdd, toRemove⟩, hget, hcall⟩ := exists_of_bind_eq_ok hcall
  obtain ⟨⟨rc₁, added, g₁⟩, hadd, hcall⟩ := exists_of_bind_eq_ok hcall
  obtain ⟨hrc₁, hcall⟩ := of_guard hcall id
  cases hcall
  rw [not_not.mp hrc₁] at hadd
  exact ⟨hne, toAdd, toRemove, added, g₁, hget, hadd, rfl⟩

theorem modify_of_added {secRanks primRanks : List ℕ}
    {toRemove added : List ℕ} (hsecondary : g.gpPrimary = false)
    (hne : secRanks ≠ []) (hlen : op ≠ .remove → secRanks.length = primRanks.length)
    (hget : crtGroupModGet g.gpMembs.cgmLinearList secRanks op = .ok (toAdd, toRemove))
    (hadd : GrpPriv.secondaryModifyAdd service envs prim primRanks toAdd [] g = .ok (0, added, g₁)) :
    g.crtGroupSecondaryModify service envs prim secRanks primRanks op = .ok (0, g₁.cleanup toRemove) := by
  have hprim : ¬ (op ≠ .remove ∧ primRanks = []) := by
    rintro ⟨hop, hnil⟩
    have hlen := hlen hop
    rw [hnil, length_nil] at hlen
    exact hne (length_eq_zero_iff.mp hlen)
  rw [crtGroupSecondaryModify, hsecondary, if_neg Bool.false_ne_true, if_neg hne, if_neg hprim,
    if_neg fun hand => hand.2 (hlen hand.1), hget]
  simp only [bind, Except.bind]
  rw [hadd]
  rfl

/-- A modification that succeeds has entered the new pairs, and has then taken out the
members that it drops. -/
theorem Mapped.modify_pairs {secRanks primRanks : List ℕ}
    (h : Mapped prim.gpMembs.cgmLinearList g) (hsec : ∀ rank ∈ secRanks, rank ≠ crtNoRank)
    (hcall : g.crtGroupSecondaryModify service envs prim secRanks primRanks op = .ok (0, g')) :
    ∃ g₁ toRemove, PairedAll prim (g.modPairs secRanks primRanks op) g g₁ ∧
      (∀ rank, rank ∈ toRemove ↔ rank ∈ g.gpMembs.cgmLinearList ∧ op.Drops secRanks rank) ∧
      g' = g₁.cleanup toRemove := by
  obtain ⟨_, toAdd, toRemove, added, g₁, hget, hadd, rfl⟩ := modify_inv rfl hcall
  obtain ⟨rfl, hremove⟩ := crtGroupModGet_eq_ok hget
  refine ⟨g₁, toRemove, h.modifyAdd_pairs service envs primRanks _ ?_ hadd, hremove, rfl⟩
  intro entry hentry
  split at hentry
  · cases hentry
  · exact hsec _ (mem_of_getElem? (mem_newEntries.mp hentry).1)

end GrpPriv

end Cart
