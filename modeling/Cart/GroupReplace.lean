/-
Replacing the ranks of a secondary group.

A `REPLACE` modification asks for secondary ranks with a primary rank for each.  All additions
come before the removals, so a primary rank cannot pass from a rank that is to be removed to
one that is added.

Main results: `secondary_replace`, `secondary_replace_moved`.
-/
import Cart.GroupRun
import Cart.GroupTables

open List Option

namespace Cart

open CrtSwimMembs (RankAddEnv)

namespace GrpPriv

variable {g g' prim : GrpPriv} {service : Bool} {envs : ℕ → RankAddEnv}
  {secRanks primRanks : List ℕ}

/-- The mapping that a request asks for. -/
def replaceTarget (g : GrpPriv) (secRanks primRanks : List ℕ) (s : ℕ) : Option ℕ :=
  if s ∈ secRanks then
    if s ∈ g.gpMembs.cgmLinearList then g.gpS2pTable s else primRanks[secRanks.idxOf s]?
  else none

/-- It is an injective mapping into the members of the primary group. -/
structure TargetValid (prim g : GrpPriv) (secRanks primRanks : List ℕ) : Prop where
  image : ∀ s p, g.replaceTarget secRanks primRanks s = some p → p ∈ prim.gpMembs.cgmLinearList
  injective : ∀ s s' p, g.replaceTarget secRanks primRanks s = some p →
    g.replaceTarget secRanks primRanks s' = some p → s = s'

theorem mem_of_replaceTarget {s p : ℕ} (h : g.replaceTarget secRanks primRanks s = some p) :
    s ∈ secRanks := by
  by_contra hs
  rw [replaceTarget, if_neg hs] at h
  cases h

theorem targetValid_iff : TargetValid prim g secRanks primRanks ↔
    (∀ s ∈ secRanks, ∀ p ∈ g.replaceTarget secRanks primRanks s, p ∈ prim.gpMembs.cgmLinearList) ∧
    ∀ s ∈ secRanks, ∀ s' ∈ secRanks, ∀ p ∈ g.replaceTarget secRanks primRanks s,
      g.replaceTarget secRanks primRanks s' = some p → s = s' := by
  constructor
  · intro h
    exact ⟨fun s _ => h.image s, fun s _ s' _ => h.injective s s'⟩
  · rintro ⟨himage, hinjective⟩
    refine ⟨fun s p hs => himage s (mem_of_replaceTarget hs) p hs, fun s s' p hs hs' => ?_⟩
    exact hinjective s (mem_of_replaceTarget hs) s' (mem_of_replaceTarget hs') p hs hs'

instance (prim g : GrpPriv) (secRanks primRanks : List ℕ) :
    Decidable (TargetValid prim g secRanks primRanks) :=
  decidable_of_iff _ targetValid_iff.symm

/-- There is a rank, the primary group has its self rank if needed, and no primary rank asked
for is in use. -/
structure ReplaceFits (prim g : GrpPriv) (secRanks primRanks : List ℕ) : Prop where
  ne_nil : secRanks ≠ []
  own : (∃ s ∈ secRanks, s ∉ g.gpMembs.cgmLinearList) → prim.gpSelf ≠ crtNoRank
  unused : ∀ s ∈ secRanks, s ∉ g.gpMembs.cgmLinearList → ∀ p,
    primRanks[secRanks.idxOf s]? = some p → g.gpP2sTable p = none

/-! ### The new pairs -/

section

variable (hnodup : secRanks.Nodup)

include hnodup

theorem mem_modPairs_replace {s p : ℕ} (hlen : secRanks.length = primRanks.length) :
    (s, p) ∈ g.modPairs secRanks primRanks .replace ↔
      s ∈ secRanks ∧ s ∉ g.gpMembs.cgmLinearList ∧ primRanks[secRanks.idxOf s]? = some p := by
  rw [modPairs, pairsOf, List.mem_map]
  constructor
  · rintro ⟨⟨rank, i⟩, hentry, heq⟩
    cases heq
    obtain ⟨hi, hnew⟩ := mem_newEntries.mp hentry
    obtain ⟨hlt, rfl⟩ := List.getElem?_eq_some_iff.mp hi
    refine ⟨getElem_mem hlt, hnew, ?_⟩
    rw [hnodup.idxOf_getElem, getD_eq_getElem?_getD, List.getElem?_eq_getElem (hlen ▸ hlt)]
    rfl
  · rintro ⟨hs, hnew, hp⟩
    refine ⟨(s, secRanks.idxOf s), mem_newEntries.mpr ⟨List.getElem?_idxOf hs, hnew⟩, ?_⟩
    rw [getD_eq_getElem?_getD, hp]
    rfl

theorem mem_fst_modPairs_replace {s : ℕ} (hlen : secRanks.length = primRanks.length) :
    s ∈ (g.modPairs secRanks primRanks .replace).map Prod.fst ↔
      s ∈ secRanks ∧ s ∉ g.gpMembs.cgmLinearList := by
  rw [List.mem_map]
  constructor
  · rintro ⟨⟨s', p⟩, he, rfl⟩
    obtain ⟨hs, hnew, _⟩ := (mem_modPairs_replace hnodup hlen).mp he
    exact ⟨hs, hnew⟩
  · rintro ⟨hs, hnew⟩
    have hlt : secRanks.idxOf s < primRanks.length := hlen ▸ idxOf_lt_length_of_mem hs
    exact ⟨(s, primRanks[secRanks.idxOf s]),
      (mem_modPairs_replace hnodup hlen).mpr ⟨hs, hnew, List.getElem?_eq_getElem hlt⟩, rfl⟩

theorem nodup_fst_modPairs_replace :
    ((g.modPairs secRanks primRanks .replace).map Prod.fst).Nodup := by
  rw [modPairs, pairsOf, List.map_map]
  refine Eq.mpr (congrArg Nodup (map_fst_newEntries _ secRanks)) ?_
  exact hnodup.filter _

theorem replaceTarget_of_mem {s p : ℕ} (hlen : secRanks.length = primRanks.length) (he :
    (s, p) ∈ g.modPairs secRanks primRanks .replace) :
    g.replaceTarget secRanks primRanks s = some p := by
  obtain ⟨hs, hnew, hp⟩ := (mem_modPairs_replace hnodup hlen).mp he
  rw [replaceTarget, if_pos hs, if_neg hnew, hp]

end

/-- The new pairs are free if the primary ranks are not in use. -/
theorem ReplaceFits.free (hfits : ReplaceFits prim g secRanks primRanks)
    (h : Mapped prim.gpMembs.cgmLinearList g) (hnodup : secRanks.Nodup)
    (hlen : secRanks.length = primRanks.length) (htarget : TargetValid prim g secRanks primRanks)
    {e : ℕ × ℕ} (he : e ∈ g.modPairs secRanks primRanks .replace) : Free prim g e.1 e.2 := by
  obtain ⟨hs, hnew, hp⟩ := (mem_modPairs_replace hnodup hlen).mp he
  refine ⟨htarget.image _ _ (replaceTarget_of_mem hnodup hlen he), ?_, hfits.unused _ hs hnew _ hp⟩
  rw [h.listed, ← h.domain] at hnew
  exact not_isSome_iff_eq_none.mp hnew

theorem TargetValid.nodup_snd (htarget : TargetValid prim g secRanks primRanks) (hnodup : secRanks.Nodup)
    (hlen : secRanks.length = primRanks.length) :
    ((g.modPairs secRanks primRanks .replace).map Prod.snd).Nodup := by
  refine Nodup.map_on ?_ (nodup_fst_modPairs_replace hnodup).of_map
  rintro ⟨s, p⟩ he ⟨s', p'⟩ he' heq
  obtain rfl : p = p' := heq
  obtain rfl := htarget.injective s s' p (replaceTarget_of_mem hnodup hlen he)
    (replaceTarget_of_mem hnodup hlen he')
  rfl

/-! ### The modification -/

theorem s2p_of_replace {g₁ : GrpPriv} {toRemove : List ℕ} (h : Mapped prim.gpMembs.cgmLinearList g)
    (hnodup : secRanks.Nodup) (hlen : secRanks.length = primRanks.length)
    (hpaired : PairedAll prim (g.modPairs secRanks primRanks .replace) g g₁)
    (hremove : ∀ rank, rank ∈ toRemove ↔ rank ∈ g.gpMembs.cgmLinearList ∧ rank ∉ secRanks) :
    (g₁.cleanup toRemove).gpS2pTable = g.replaceTarget secRanks primRanks := by
  funext s
  rw [(cleanup_tables hpaired.mapped.secondary _).1, replaceTarget]
  by_cases hs : s ∈ secRanks
  · rw [if_neg fun hmem => ((hremove s).mp hmem).2 hs, if_pos hs]
    split_ifs with hmember
    · rw [hpaired.kept]
      exact fun hmem => ((mem_fst_modPairs_replace hnodup hlen).mp hmem).2 hmember
    · obtain ⟨⟨s', p⟩, he, rfl⟩ :=
        mem_map.mp ((mem_fst_modPairs_replace hnodup hlen).mpr ⟨hs, hmember⟩)
      rw [hpaired.entered _ he]
      exact ((mem_modPairs_replace hnodup hlen).mp he).2.2.symm
  · rw [if_neg hs, hpaired.kept s fun hmem => hs ((mem_fst_modPairs_replace hnodup hlen).mp hmem).1]
    split_ifs with hkept
    · rfl
    · rw [hremove, not_and_not_right] at hkept
      rw [← not_isSome_iff_eq_none, h.domain, ← h.listed]
      exact fun hmember => hs (hkept hmember)

end GrpPriv

open GrpPriv

/-- **Secondary replace** gives the group the mapping asked for exactly if `ReplaceFits` holds.
-/
theorem secondary_replace {g prim : GrpPriv} (h : Mapped prim.gpMembs.cgmLinearList g) (service : Bool)
    (envs : ℕ → RankAddEnv) {secRanks primRanks : List ℕ} (hsec : ∀ rank ∈ secRanks, rank ≠ crtNoRank)
    (hnodup : secRanks.Nodup) (hlen : secRanks.length = primRanks.length)
    (htarget : TargetValid prim g secRanks primRanks) :
    (∃ g', g.crtGroupSecondaryModify service envs prim secRanks primRanks .replace = .ok (0, g') ∧
      g'.gpS2pTable = g.replaceTarget secRanks primRanks ∧
      ∀ s, s ∈ g'.gpMembs.cgmLinearList ↔ (g.replaceTarget secRanks primRanks s).isSome) ↔
    ReplaceFits prim g secRanks primRanks := by
  constructor
  · rintro ⟨g', hcall, _, _⟩
    obtain ⟨g₁, toRemove, hpaired, _, rfl⟩ := h.modify_pairs hsec hcall
    refine ⟨(modify_inv rfl hcall).1, ?_, fun s hs hnew p hp => ?_⟩
    · rintro ⟨s, hs, hnew⟩
      exact hpaired.own (ne_nil_of_mem
        (List.mem_map.mp ((mem_fst_modPairs_replace hnodup hlen).mpr ⟨hs, hnew⟩)).choose_spec.1)
    · exact (hpaired.free (s, p) ((mem_modPairs_replace hnodup hlen).mpr ⟨hs, hnew, hp⟩)).prim
  · intro hfits
    have hne : ∀ entry ∈ newEntries g.gpMembs.cgmLinearList secRanks, entry.1 ≠ crtNoRank := fun _ he =>
      hsec _ (mem_of_getElem? (mem_newEntries.mp he).1)
    have hown : newEntries g.gpMembs.cgmLinearList secRanks ≠ [] → prim.gpSelf ≠ crtNoRank := by
      intro hnil
      obtain ⟨⟨s, i⟩, he⟩ := exists_mem_of_ne_nil _ hnil
      obtain ⟨hi, hnew⟩ := mem_newEntries.mp he
      exact hfits.own ⟨s, mem_of_getElem? hi, hnew⟩
    obtain ⟨added, g₁, hadd⟩ := h.modifyAdd_of_free service envs primRanks _ [] hown hne
      (fun _ he => hfits.free h hnodup hlen htarget he) (nodup_fst_modPairs_replace hnodup)
      (htarget.nodup_snd hnodup hlen)
    have hpaired : PairedAll prim (g.modPairs secRanks primRanks .replace) g g₁ :=
      h.modifyAdd_pairs service envs primRanks _ hne hadd
    have hget : crtGroupModGet g.gpMembs.cgmLinearList secRanks .replace =
        .ok (newEntries g.gpMembs.cgmLinearList secRanks,
          g.gpMembs.cgmLinearList.filter fun rank => rank ∉ secRanks) := rfl
    have hs2p := s2p_of_replace h hnodup hlen hpaired (crtGroupModGet_eq_ok hget).2
    have hmapped := hpaired.mapped.cleanup (g.gpMembs.cgmLinearList.filter fun rank => rank ∉ secRanks)
    refine ⟨_, modify_of_added h.secondary hfits.ne_nil (fun _ => hlen) hget hadd, hs2p, fun s => ?_⟩
    rw [hmapped.listed, ← hmapped.domain, hs2p]

/-- Rank 6 is replaced by rank 7, which gets a primary rank of its own. -/
theorem secondary_replace_new :
    ∃ w sec, (groupRuns true (.crtPrimaryGrpInit true)).Reach w ∧ w.secs[0]? = some sec ∧
      sec.gpMembs.cgmLinearList = [5, 6] ∧ TargetValid w.prim sec [5, 7] [0, 2] ∧
      ∃ sec', sec.crtGroupSecondaryModify true (fun _ => easyAdd) w.prim [5, 7] [0, 2] .replace = .ok (0, sec') ∧
        sec'.gpS2pTable = sec.replaceTarget [5, 7] [0, 2] ∧
        ∀ s, s ∈ sec'.gpMembs.cgmLinearList ↔ (sec.replaceTarget [5, 7] [0, 2] s).isSome := by
  obtain ⟨w, hw, sec, hsec, hown, hlinear, htarget, hunused⟩ : ∃ w,
      (groupRuns true (.crtPrimaryGrpInit true)).Reach w ∧ ∃ sec ∈ w.secs[0]?, w.prim.gpSelf = 0 ∧
        sec.gpMembs.cgmLinearList = [5, 6] ∧ TargetValid w.prim sec [5, 7] [0, 2] ∧
        sec.gpP2sTable 2 = none :=
    Lts.exists_reach_of_exec [.selfSet easyAdd 0 true, .rankAdd easyAdd 1 true, .rankAdd easyAdd 2 true,
      .secCreate, .secRankAdd 0 easyAdd 5 0, .secRankAdd 0 easyAdd 6 1] ⟨_, []⟩ rfl (by decide +kernel)
  have hmapped := ((groupRuns_ok (.inl rfl)).reach hw).secs sec (mem_of_getElem? hsec)
  have hvalid : ∀ rank ∈ [5, 7], rank ≠ crtNoRank := by decide
  have hnodup : [5, 7].Nodup := by decide
  have hlen : [5, 7].length = [0, 2].length := by decide
  refine ⟨w, sec, hw, hsec, hlinear, htarget,
    (secondary_replace hmapped true (fun _ => easyAdd) hvalid hnodup hlen htarget).mpr ?_⟩
  refine ⟨cons_ne_nil _ _, fun _ => ?_, fun s hs hnew p hp => ?_⟩
  · rw [hown]
    decide
  · rw [hlinear] at hnew
    rcases mem_cons.mp hs with rfl | hs
    · exact absurd mem_cons_self hnew
    · obtain rfl := mem_singleton.mp hs
      obtain rfl : 2 = p := Option.some.inj hp
      exact hunused

/-- Rank 7 is to take over the primary rank of rank 6, which goes: refused. -/
theorem secondary_replace_moved :
    ∃ w sec, (groupRuns true (.crtPrimaryGrpInit true)).Reach w ∧ w.secs[0]? = some sec ∧
      TargetValid w.prim sec [5, 7] [0, 1] ∧
      ∃ sec', sec.crtGroupSecondaryModify true (fun _ => easyAdd) w.prim [5, 7] [0, 1] .replace =
        .ok (-derExist, sec') ∧ sec'.gpMembs.cgmLinearList = [5, 6] := by
  obtain ⟨w, hreach, sec, hsec, htarget, hcall⟩ : ∃ w,
      (groupRuns true (.crtPrimaryGrpInit true)).Reach w ∧ ∃ sec ∈ w.secs[0]?,
        TargetValid w.prim sec [5, 7] [0, 1] ∧
        (sec.crtGroupSecondaryModify true (fun _ => easyAdd) w.prim [5, 7] [0, 1] .replace).toOption.map
          (fun r => (r.1, r.2.gpMembs.cgmLinearList)) = some (-derExist, [5, 6]) :=
    Lts.exists_reach_of_exec [.selfSet easyAdd 0 true, .rankAdd easyAdd 1 true, .secCreate,
      .secRankAdd 0 easyAdd 5 0, .secRankAdd 0 easyAdd 6 1] ⟨_, []⟩ rfl (by decide +kernel)
  refine ⟨w, sec, hreach, hsec, htarget, ?_⟩
  cases hresult : sec.crtGroupSecondaryModify true (fun _ => easyAdd) w.prim [5, 7] [0, 1] .replace with
  | error stop =>
    rw [hresult] at hcall
    cases hcall
  | ok r =>
    rw [hresult] at hcall
    obtain ⟨rc, sec'⟩ := r
    obtain ⟨rfl, hlinear⟩ := Prod.mk.inj (Option.some.inj hcall)
    exact ⟨sec', rfl, hlinear⟩

end Cart
