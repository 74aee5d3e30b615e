/-
Secondary groups and their primary group.

The two tables of a secondary group are inverse to each other, its membership list is the
domain of the first and has no rank twice, and every rank in the image is in the list of the
primary group (`Mapped`).

Main results: `Mapped.removeInternal`, `Mapped.removePrimary`, `Mapped.rankAddInternal`,
`Mapped.modify`, `PrimOk`.
-/
import Cart.GroupSpec
import Cart.InverseTables

open Function List Option

namespace Cart

variable {op : GroupModOp} {secRank : ℕ}

open CrtSwimMembs (RankAddEnv)

/-- A modification wants to remove more ranks than the array of `crt_group_mod_get`
holds. -/
def ModOverflows (grpMembs modMembs : List ℕ) (op : GroupModOp) : Prop :=
  op = .remove ∧ grpMembs.length < (modMembs.filter fun rank => rank ∈ grpMembs).length
deriving Decidable

theorem crtGroupModGet_overflow {grpMembs modMembs : List ℕ}
    (h : ModOverflows grpMembs modMembs op) :
    crtGroupModGet grpMembs modMembs op = .error .outOfBounds := by
  obtain ⟨rfl, hlt⟩ := h
  exact if_pos hlt

/-- New ranks are added, old ones removed. -/
theorem crtGroupModGet_spec {grpMembs modMembs : List ℕ} (h : ¬ ModOverflows grpMembs modMembs op) :
    ∃ toAdd toRemove, crtGroupModGet grpMembs modMembs op = .ok (toAdd, toRemove) ∧
      (toAdd.map Prod.fst).Sublist (modMembs.filter fun rank => rank ∉ grpMembs) ∧
      (op = .remove → toAdd = []) ∧ ∀ rank ∈ toRemove, rank ∈ grpMembs := by
  have hadd : ((modMembs.zipIdx.filter fun entry => entry.1 ∉ grpMembs).map Prod.fst).Sublist
      (modMembs.filter fun rank => rank ∉ grpMembs) := by
    have hmap := List.filter_map (f := Prod.fst) (l := modMembs.zipIdx)
      (p := fun rank => decide (rank ∉ grpMembs))
    rw [zipIdx_map_fst] at hmap
    rw [hmap]
    exact .refl _
  cases op with
  | replace =>
    refine ⟨_, _, rfl, hadd, ?_, fun rank hrank => (mem_filter.mp hrank).1⟩
    rintro ⟨⟩
  | add =>
    refine ⟨_, _, rfl, hadd, ?_, fun rank hrank => absurd hrank not_mem_nil⟩
    rintro ⟨⟩
  | remove =>
    refine ⟨[], _, if_neg fun hlt => h ⟨rfl, hlt⟩, nil_sublist _, fun _ => rfl,
      fun rank hrank => ?_⟩
    exact of_decide_eq_true (mem_filter.mp hrank).2

namespace GrpPriv

variable {g g' prim : GrpPriv} {rank p : ℕ} {membs membs' ranks : List ℕ}

/-- A secondary group whose primary group has the members `membs`. -/
structure Mapped (membs : List ℕ) (g : GrpPriv) : Prop where
  secondary : g.gpPrimary = false
  slots : g.SlotsOk
  listed : g.Listed
  nodup : g.occupied.Nodup
  inverse : InverseTables g.gpS2pTable g.gpP2sTable
  domain : ∀ s, (g.gpS2pTable s).isSome ↔ s ∈ g.occupied
  image : ∀ s p, g.gpS2pTable s = some p → p ∈ membs

theorem Mapped.mono (h : Mapped membs g) (hsub : ∀ p ∈ membs, p ∈ membs') : Mapped membs' g :=
  { h with image := fun s p hs => hsub p (h.image s p hs) }

/-! ### Removals -/

section

variable (h : Mapped membs g)

include h

theorem Mapped.erase (hs : g.gpS2pTable rank = some p) :
    Mapped (membs.filter fun x => x ≠ p) (g.crtGroupRankRemoveInternal rank).2 := by
  have hmem : rank ∈ g.occupied := (h.domain rank).mp (by rw [hs]; rfl)
  rcases crtGroupRankRemoveInternal_spec h.slots (SlotsOk.ne_crtNoRank hmem) with
    heq | ⟨_, ⟨hprimary, _⟩ | ⟨_, primRank, hs', hr⟩⟩
  · -- the rank is in the table, so the removal is not refused
    rw [crtGroupRankRemoveInternal, h.secondary, if_neg Bool.false_ne_true, hs] at heq
    exact absurd (Prod.mk.inj heq).1 (by decide)
  · rw [h.secondary] at hprimary
    cases hprimary
  · obtain rfl : primRank = p := some.inj (hs'.symm.trans hs)
    rcases hr.occupied with ⟨hno, _⟩ | ⟨hperm, hlisted⟩
    · exact absurd hmem hno
    · obtain ⟨hgone, hnodup⟩ := nodup_cons.mp (hperm.nodup_iff.mp h.nodup)
      have hs2p : (g.crtGroupRankRemoveInternal rank).2.gpS2pTable =
          update g.gpS2pTable rank none := hr.same.s2p
      have hp2s : (g.crtGroupRankRemoveInternal rank).2.gpP2sTable =
          update g.gpP2sTable primRank none := hr.same.p2s
      refine ⟨hr.same.primary.trans h.secondary, hr.slots, hlisted, hnodup, ?_, fun s => ?_,
        fun s q hq => ?_⟩
      · rw [hs2p, hp2s]
        exact h.inverse.erase hs
      · rw [hs2p]
        by_cases hsr : s = rank
        · rw [hsr, update_self]
          exact iff_of_false Bool.false_ne_true hgone
        · rw [update_of_ne hsr, h.domain s]
          exact (hr.mem_of_ne hsr).symm
      · rw [hs2p] at hq
        by_cases hsr : s = rank
        · rw [hsr, update_self] at hq
          cases hq
        · rw [update_of_ne hsr] at hq
          refine mem_filter.mpr ⟨h.image s q hq, decide_eq_true fun heq => hsr ?_⟩
          exact h.inverse.injective hs (heq ▸ hq)

theorem Mapped.removeInternal (rank : ℕ) : Mapped membs (g.crtGroupRankRemoveInternal rank).2 := by
  cases hs : g.gpS2pTable rank with
  | none =>
    rw [crtGroupRankRemoveInternal, h.secondary, if_neg Bool.false_ne_true, hs]
    exact h
  | some p => exact (h.erase hs).mono fun x hx => (mem_filter.mp hx).1

theorem Mapped.cleanup (ranks : List ℕ) : Mapped membs (g.cleanup ranks) :=
  foldlRecOn ranks _ h fun _ hg rank _ => hg.removeInternal rank

theorem Mapped.removePrimary (hsub : ∀ p ∈ membs, p ≠ rank → p ∈ membs') :
    Mapped membs' (g.removePrimary rank) := by
  rw [GrpPriv.removePrimary]
  split
  · rename_i hnone
    refine { h with image := fun s p hs => hsub p (h.image s p hs) fun heq => ?_ }
    rw [heq, h.inverse s rank, hnone] at hs
    cases hs
  · rename_i secRank hsome
    refine (h.erase ((h.inverse secRank rank).mpr hsome)).mono fun p hp => ?_
    obtain ⟨hmem, hne⟩ := mem_filter.mp hp
    exact hsub p hmem (of_decide_eq_true hne)

end

/-! ### Additions -/

theorem Mapped.setSelf (h : Mapped membs g) (secRank primRank primSelf : ℕ) :
    Mapped membs (if primRank = primSelf then { g with gpSelf := secRank } else g) := by
  split
  · exact ⟨h.secondary, ⟨h.slots.free, h.slots.size⟩, h.listed, h.nodup, h.inverse, h.domain, h.image⟩
  · exact h

theorem Mapped.insert (h : Mapped membs g) {s : ℕ} {service : Bool} {env : RankAddEnv}
    {r : ℤ × GrpPriv} (hs : g.gpS2pTable s = none) (hp : g.gpP2sTable p = none) (hmem : p ∈ membs)
    (hadded : Added service env s (g.mapRank s p) r) : r.1 = 0 ∧ Mapped membs r.2 := by
  have hprimary : (g.mapRank s p).gpPrimary = false := h.secondary
  have hrc : r.1 = 0 := by
    rw [hadded.rc, hprimary]
    rfl
  have hocc : r.2.occupied.Perm (s :: g.occupied) := by
    have := hadded.occupied
    rwa [if_pos hrc] at this
  have hfresh : s ∉ g.occupied := by
    rw [← h.domain s, hs]
    exact Bool.false_ne_true
  have hs2p : r.2.gpS2pTable = update g.gpS2pTable s (some p) := hadded.same.s2p
  have hp2s : r.2.gpP2sTable = update g.gpP2sTable p (some s) := hadded.same.p2s
  refine ⟨hrc, hadded.same.primary.trans h.secondary, hadded.slots, hadded.listed, ?_, ?_,
    fun x => ?_, fun x q hq => ?_⟩
  · exact hocc.nodup_iff.mpr (nodup_cons.mpr ⟨hfresh, h.nodup⟩)
  · rw [hs2p, hp2s]
    exact h.inverse.insert hs hp
  · rw [hs2p, hocc.mem_iff, mem_cons]
    by_cases hx : x = s
    · rw [hx, update_self]
      exact iff_of_true rfl (.inl rfl)
    · rw [update_of_ne hx, h.domain x]
      exact ⟨.inr, fun hor => hor.resolve_left hx⟩
  · rw [hs2p] at hq
    by_cases hx : x = s
    · rw [hx, update_self] at hq
      exact some.inj hq ▸ hmem
    · rw [update_of_ne hx] at hq
      exact h.image x q hq

/-- A call on a secondary group that keeps the mapping if it returns; it does not
write past an array. -/
def KeepsMapped (membs : List ℕ) (result : Except GrpStop (ℤ × GrpPriv)) : Prop :=
  result = .error .assertFail ∨ ∃ rc g', result = .ok (rc, g') ∧ Mapped membs g'

section

variable (h : Mapped prim.gpMembs.cgmLinearList g) (service : Bool) (env : RankAddEnv)
  (hsec : secRank ≠ crtNoRank) (primRank : ℕ)

include h service env hsec primRank

theorem Mapped.rankAddInternal : KeepsMapped prim.gpMembs.cgmLinearList
      (g.crtGroupSecondaryRankAddInternal service env prim secRank primRank) := by
  rw [crtGroupSecondaryRankAddInternal]
  split
  · exact .inr ⟨_, g, rfl, h⟩
  · rename_i hmem
    split
    · exact .inl rfl
    · have hself := h.setSelf secRank primRank prim.gpSelf
      generalize (if primRank = prim.gpSelf then { g with gpSelf := secRank } else g) = g₁ at hself
      dsimp only
      split
      · exact .inr ⟨_, g₁, rfl, hself⟩
      · rename_i hs
        split_ifs with hp
        · exact .inr ⟨_, g₁, rfl, hself⟩
        · obtain ⟨⟨rc, g'⟩, hok, hadded⟩ := grpAddToMembsList_spec service env
            (g := g₁.mapRank secRank primRank) ⟨hself.slots.free, hself.slots.size⟩ hsec
          obtain ⟨hrc, hmapped⟩ := hself.insert (not_isSome_iff_eq_none.mp hs)
            (not_isSome_iff_eq_none.mp hp) (not_not.mp hmem) hadded
          rw [hok]
          simp only [bind, Except.bind]
          rw [if_neg (not_not.mpr hrc)]
          exact .inr ⟨0, g', rfl, hmapped⟩

theorem Mapped.rankAdd : KeepsMapped prim.gpMembs.cgmLinearList
      (g.crtGroupSecondaryRankAdd service env prim secRank primRank) := by
  rw [crtGroupSecondaryRankAdd, if_neg (by rw [h.secondary]; exact Bool.false_ne_true)]
  exact h.rankAddInternal service env hsec primRank

end

/-! ### Modifications -/

theorem Mapped.secondaryModifyAdd (service : Bool) (envs : ℕ → RankAddEnv) (primRanks : List ℕ)
    (toAdd : List (ℕ × ℕ)) : ∀ (added : List ℕ) (g : GrpPriv), Mapped prim.gpMembs.cgmLinearList g →
      (∀ entry ∈ toAdd, entry.1 ≠ crtNoRank) →
      secondaryModifyAdd service envs prim primRanks toAdd added g = .error .assertFail ∨
      ∃ rc added' g', secondaryModifyAdd service envs prim primRanks toAdd added g =
        .ok (rc, added', g') ∧ Mapped prim.gpMembs.cgmLinearList g' := by
  induction toAdd with
  | nil => exact fun added g h _ => .inr ⟨0, added, g, rfl, h⟩
  | cons entry toAdd ih =>
    intro added g h hne
    obtain ⟨rank, i⟩ := entry
    rw [GrpPriv.secondaryModifyAdd]
    rcases h.rankAddInternal service (envs i) (hne (rank, i) mem_cons_self) (primRanks.getD i 0)
      with hstop | ⟨rc, g', hok, hmapped⟩
    · rw [hstop]
      exact .inl rfl
    · rw [hok]
      simp only [bind, Except.bind]
      split
      · exact .inr ⟨rc, added, g', rfl, hmapped⟩
      · exact ih (added ++ [rank]) g' hmapped fun entry hentry =>
          hne entry (mem_cons_of_mem _ hentry)

/-- A modification keeps the mapping, also when it is taken back. -/
theorem Mapped.modify (h : Mapped prim.gpMembs.cgmLinearList g) (service : Bool)
    (envs : ℕ → RankAddEnv) {secRanks : List ℕ} (hsec : ∀ rank ∈ secRanks, rank ≠ crtNoRank)
    (primRanks : List ℕ) (hfit : ¬ ModOverflows g.gpMembs.cgmLinearList secRanks op) :
    KeepsMapped prim.gpMembs.cgmLinearList
      (g.crtGroupSecondaryModify service envs prim secRanks primRanks op) := by
  rw [crtGroupSecondaryModify]
  split
  · exact .inr ⟨_, g, rfl, h⟩
  · split
    · exact .inr ⟨_, g, rfl, h⟩
    · split
      · exact .inr ⟨_, g, rfl, h⟩
      · split
        · exact .inr ⟨_, g, rfl, h⟩
        · obtain ⟨toAdd, toRemove, hget, hsub, _, _⟩ := crtGroupModGet_spec hfit
          have hne : ∀ entry ∈ toAdd, entry.1 ≠ crtNoRank := fun entry hentry =>
            hsec entry.1 (mem_filter.mp (hsub.subset (List.mem_map_of_mem hentry))).1
          rw [hget]
          simp only [bind, Except.bind]
          rcases Mapped.secondaryModifyAdd service envs primRanks toAdd [] g h hne with
            hstop | ⟨rc, added, g', hok, hmapped⟩
          · rw [hstop]
            exact .inl rfl
          · rw [hok]
            dsimp only
            split
            · exact .inr ⟨rc, _, rfl, hmapped.cleanup added⟩
            · exact .inr ⟨0, _, rfl, hmapped.cleanup toRemove⟩

/-! ### The primary group -/

/-- The primary group, with its linear list if `listed` and no rank in two slots if `distinct`.
-/
structure PrimOk (listed distinct : Prop) (g : GrpPriv) : Prop where
  primary : g.gpPrimary = true
  slots : g.SlotsOk
  made : g.gpMembs.cgmLinearList = [] ∨ g.Listed
  list : listed → g.Listed
  nodup : distinct → g.occupied.Nodup

variable {listed distinct : Prop}

theorem PrimOk.within (h : PrimOk listed distinct g) (hp : p ∈ g.gpMembs.cgmLinearList) :
    p ∈ g.occupied := by
  rcases h.made with hnil | hlisted
  · rw [hnil] at hp
    cases hp
  · rwa [hlisted] at hp

theorem Listed.congr (hsame : g'.gpMembs = g.gpMembs) (h : g.Listed) : g'.Listed := by
  rw [Listed, hsame, occupied_congr hsame]
  exact h

section

variable (h : PrimOk listed distinct g)

include h

theorem PrimOk.added (hadded : AddedAll ranks g g')
    (hnew : distinct → ranks.Nodup ∧ ∀ rank ∈ ranks, rank ∉ g.occupied) :
    PrimOk listed distinct g' := by
  refine ⟨hadded.primary.trans h.primary, hadded.slots, ?_, fun hl => ?_, fun hd => ?_⟩
  · rcases hadded.list with hlisted | hsame
    · exact .inr hlisted
    · rw [hsame]
      exact h.made.imp_right (Listed.congr hsame)
  · rcases hadded.list with hlisted | hsame
    · exact hlisted
    · exact (h.list hl).congr hsame
  · obtain ⟨hranks, hfresh⟩ := hnew hd
    rw [hadded.occupied.nodup_iff]
    exact hranks.append (h.nodup hd) fun rank hrank => hfresh rank hrank

theorem PrimOk.kept_of_added (hadded : AddedAll ranks g g') (hp : p ∈ g.gpMembs.cgmLinearList) :
    p ∈ g'.gpMembs.cgmLinearList := by
  rcases hadded.list with hlisted | hsame
  · rw [hlisted, hadded.occupied.mem_iff]
    exact mem_append_right ranks (h.within hp)
  · rwa [hsame]

/-- A removal from a primary group is refused, or takes the rank out of a slot. -/
theorem PrimOk.removed_cases (hrank : rank ≠ crtNoRank) :
    g.crtGroupRankRemoveInternal rank = (-derOog, g) ∨
    (g.crtGroupRankRemoveInternal rank).1 = 0 ∧
      Removed rank { g with gpUriLookupCache := update g.gpUriLookupCache rank false }
        (g.crtGroupRankRemoveInternal rank).2 := by
  rcases crtGroupRankRemoveInternal_spec h.slots hrank with
    heq | ⟨hrc, ⟨_, hr⟩ | ⟨hsecondary, _⟩⟩
  · exact .inl heq
  · exact .inr ⟨hrc, hr⟩
  · rw [h.primary] at hsecondary
    cases hsecondary

theorem PrimOk.removed (hrank : rank ≠ crtNoRank) :
    PrimOk listed distinct (g.crtGroupRankRemoveInternal rank).2 := by
  rcases h.removed_cases hrank with heq | ⟨_, hr⟩
  · rw [heq]
    exact h
  · refine ⟨hr.same.primary.trans h.primary, hr.slots, ?_, fun hl => hr.listed (h.list hl),
      fun hd => ?_⟩
    · rcases hr.occupied with ⟨_, hsame⟩ | ⟨_, hlisted⟩
      · rw [hsame]
        exact h.made.imp_right (Listed.congr hsame)
      · exact .inr hlisted
    · rcases hr.occupied with ⟨_, hsame⟩ | ⟨hperm, _⟩
      · rw [occupied_congr hsame]
        exact h.nodup hd
      · exact (nodup_cons.mp (hperm.nodup_iff.mp (h.nodup hd))).2

theorem PrimOk.kept_of_removed (hrank : rank ≠ crtNoRank) (hp : p ∈ g.gpMembs.cgmLinearList)
    (hne : p ≠ rank) :
    p ∈ (g.crtGroupRankRemoveInternal rank).2.gpMembs.cgmLinearList := by
  rcases h.removed_cases hrank with heq | ⟨_, hr⟩
  · rwa [heq]
  · rcases hr.occupied with ⟨_, hsame⟩ | ⟨_, hlisted⟩
    · rwa [hsame]
    · rw [hlisted, hr.mem_of_ne hne]
      exact h.within hp

/-- The cleanup takes out what was added, and nothing else. -/
theorem PrimOk.cleanup (hranks : ∀ rank ∈ ranks, rank ≠ crtNoRank) :
    PrimOk listed distinct (g.cleanup ranks) ∧
      ∀ p ∈ g.gpMembs.cgmLinearList, p ∉ ranks → p ∈ (g.cleanup ranks).gpMembs.cgmLinearList := by
  refine foldlRecOn ranks (motive := fun g' => PrimOk listed distinct g' ∧
    ∀ p ∈ g.gpMembs.cgmLinearList, p ∉ ranks → p ∈ g'.gpMembs.cgmLinearList) _
    ⟨h, fun p hp _ => hp⟩ ?_
  rintro g' ⟨hok, hkept⟩ rank hmem
  refine ⟨hok.removed (hranks rank hmem), fun p hp hno => ?_⟩
  exact hok.kept_of_removed (hranks rank hmem) (hkept p hp hno) fun heq => hno (heq ▸ hmem)

theorem PrimOk.swimRankDel (service : Bool) (rank : ℕ) :
    PrimOk listed distinct (g.crtSwimRankDel service rank) := by
  rw [GrpPriv.crtSwimRankDel]
  split
  · exact ⟨h.primary, ⟨h.slots.free, h.slots.size⟩, h.made, h.list, h.nodup⟩
  · exact h

end

theorem crtSwimRankDel_gpMembs (g : GrpPriv) (service : Bool) (rank : ℕ) :
    (g.crtSwimRankDel service rank).gpMembs = g.gpMembs := by
  rw [GrpPriv.crtSwimRankDel]
  split
  · rfl
  · rfl

end GrpPriv

end Cart
