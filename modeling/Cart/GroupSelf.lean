/-
The self rank of a secondary group.

`gp_self` of a secondary group is the rank that this process has in the group.  An addition
that names the rank of the process in the primary group sets it.  No removal resets it.

Main results: `group_self_rank`, `group_self_rank_stale`.
-/
import Cart.GroupRun
import Cart.GroupTables

open List Option

namespace Cart

open GrpWorld

variable {envs : ℕ → RankAddEnv} {file : Except ℤ (List (RankAddEnv × ℕ))} {uri : Bool} {op : GrpOp}
  {prim g' : GrpPriv} {psrRank : ℕ}

open CrtSwimMembs (RankAddEnv)
open Faults (exists_of_bind_eq_ok of_guard)

namespace GrpPriv

variable {g g' : GrpPriv} {membs membs' : List ℕ} {own : ℕ} {r : ℤ × GrpPriv}

/-- The self rank is the one mapped to `own`, if there is one. -/
def SelfOk (own : ℕ) (g : GrpPriv) : Prop := g.gpSelf = (g.gpP2sTable own).getD crtNoRank

/-! ### One secondary group -/

theorem SelfOk.removed_iff {removed : ℕ → Prop} [DecidablePred removed] (hok : g.SelfOk own)
    (h : Mapped membs g) (h' : Mapped membs' g') (hself : g'.gpSelf = g.gpSelf)
    (hs2p : ∀ s, g'.gpS2pTable s = if removed s then none else g.gpS2pTable s) :
    g'.SelfOk own ↔ ∀ s, g.gpP2sTable own = some s → ¬ removed s := by
  -- the table of `g'` has some of the pairs of `g`
  have hpairs : ∀ s, g'.gpP2sTable own = some s ↔ ¬ removed s ∧ g.gpP2sTable own = some s := by
    intro s
    rw [← h'.inverse s own, ← h.inverse s own, hs2p s]
    split
    · rename_i hremoved
      exact iff_of_false (some_ne_none own).symm fun hand => hand.1 hremoved
    · rename_i hremoved
      exact (and_iff_right hremoved).symm
  rw [SelfOk, hself, hok]
  cases hown : g.gpP2sTable own with
  | none =>
    have hnone : g'.gpP2sTable own = none := by
      rw [eq_none_iff_forall_ne_some]
      intro s hs
      rw [((hpairs s).mp hs).2] at hown
      cases hown
    rw [hnone]
    exact iff_of_true rfl fun s hs => absurd hs.symm (some_ne_none s)
  | some s =>
    have hmem : s ∈ g.occupied := (h.domain s).mp (by rw [(h.inverse s own).mpr hown]; rfl)
    by_cases hremoved : removed s
    · have hnone : g'.gpP2sTable own = none := by
        rw [eq_none_iff_forall_ne_some]
        intro x hx
        obtain ⟨hkept, hx⟩ := (hpairs x).mp hx
        obtain rfl : s = x := some.inj (hown.symm.trans hx)
        exact hkept hremoved
      rw [hnone]
      exact iff_of_false (SlotsOk.ne_crtNoRank hmem) fun hall => hall s rfl hremoved
    · rw [(hpairs s).mpr ⟨hremoved, hown⟩]
      refine iff_of_true rfl fun x hx => ?_
      exact some.inj hx ▸ hremoved

theorem SelfOk.removeInternal_iff (hok : g.SelfOk own) (h : Mapped membs g) (rank : ℕ) :
    (g.crtGroupRankRemoveInternal rank).2.SelfOk own ↔ g.gpS2pTable rank ≠ some own := by
  rw [hok.removed_iff h (h.removeInternal rank) (g.gpSelf_removeInternal rank)
    (s2p_removeInternal h.secondary rank)]
  constructor
  · intro hall hrank
    exact hall rank ((h.inverse rank own).mp hrank) rfl
  · rintro hne s hs rfl
    exact hne ((h.inverse s own).mpr hs)

theorem SelfOk.pairedAll {pairs : List (ℕ × ℕ)} (hok : g.SelfOk prim.gpSelf)
    (h : Mapped membs g) (hpaired : PairedAll prim pairs g g') : g'.SelfOk prim.gpSelf := by
  by_cases hown : ∃ s, (s, prim.gpSelf) ∈ pairs
  · obtain ⟨s, hs⟩ := hown
    have hp2s := (hpaired.mapped.inverse s prim.gpSelf).mp (hpaired.entered _ hs)
    rw [SelfOk, hpaired.self_new s hs, hp2s]
    rfl
  · rw [not_exists] at hown
    have hsame : g'.gpP2sTable prim.gpSelf = g.gpP2sTable prim.gpSelf := by
      refine ext fun s => ?_
      rw [← hpaired.mapped.inverse s prim.gpSelf, ← h.inverse s prim.gpSelf]
      by_cases hs : s ∈ pairs.map Prod.fst
      · -- a rank that is entered has another primary rank, and had none before
        obtain ⟨e, he, rfl⟩ := mem_map.mp hs
        rw [hpaired.entered e he, (hpaired.free e he).sec, some.injEq]
        refine iff_of_false (fun heq => hown e.1 ?_) (some_ne_none _).symm
        rw [← heq]
        exact he
      · rw [hpaired.kept s hs]
    rw [SelfOk, hpaired.self_old hown, hsame]
    exact hok

/-- Nothing is mapped, so it does not matter which rank the process has. -/
theorem SelfOk.of_unmapped (hok : g.SelfOk own) (h : Mapped membs g) (hnone : ∀ s, g.gpS2pTable s = none)
    (own' : ℕ) : g.SelfOk own' := by
  have hp2s : ∀ p, g.gpP2sTable p = none := by
    intro p
    rw [eq_none_iff_forall_ne_some]
    intro s hs
    rw [← h.inverse, hnone s] at hs
    cases hs
  rw [SelfOk, hp2s] at hok ⊢
  exact hok

theorem SelfOk.modify_iff {service : Bool}
    {secRanks primRanks : List ℕ} {op : GroupModOp} (hok : g.SelfOk prim.gpSelf)
    (h : Mapped prim.gpMembs.cgmLinearList g) (hsec : ∀ rank ∈ secRanks, rank ≠ crtNoRank)
    (hcall : g.crtGroupSecondaryModify service envs prim secRanks primRanks op = .ok (0, g')) :
    g'.SelfOk prim.gpSelf ↔ ∀ s, g.gpP2sTable prim.gpSelf = some s → ¬ op.Drops secRanks s := by
  obtain ⟨g₁, toRemove, hpaired, hremove, rfl⟩ := h.modify_pairs hsec hcall
  rw [(hok.pairedAll h hpaired).removed_iff hpaired.mapped (hpaired.mapped.cleanup toRemove)
    (g₁.gpSelf_cleanup toRemove) (cleanup_tables hpaired.mapped.secondary toRemove).1]
  have hmember : ∀ s, s ∈ g.gpMembs.cgmLinearList ↔ (g.gpS2pTable s).isSome := by
    intro s
    rw [h.listed, h.domain s]
  have hfresh : ∀ s, (g.gpS2pTable s).isSome → g₁.gpS2pTable s = g.gpS2pTable s := by
    intro s hs
    refine hpaired.kept s fun hmem => ?_
    obtain ⟨e, he, rfl⟩ := mem_map.mp hmem
    rw [(hpaired.free e he).sec] at hs
    cases hs
  constructor
  · intro hall s hs hdrops
    rw [← h.inverse] at hs
    have hsome : (g.gpS2pTable s).isSome := by
      rw [hs]
      rfl
    refine hall s ?_ ((hremove s).mpr ⟨(hmember s).mpr hsome, hdrops⟩)
    rw [← hpaired.mapped.inverse, hfresh s hsome, hs]
  · intro hall s hs hmem
    obtain ⟨hlinear, hdrops⟩ := (hremove s).mp hmem
    refine hall s ?_ hdrops
    rw [← hpaired.mapped.inverse, hfresh s ((hmember s).mp hlinear)] at hs
    rwa [← h.inverse]

/-! ### The cascade -/

/-- Ranks leave the primary group one after the other. -/
def removePrimaries (g : GrpPriv) (ranks : List ℕ) : GrpPriv :=
  ranks.foldl (fun sec rank => sec.removePrimary rank) g

theorem Mapped.removePrimaries (h : Mapped membs g) (ranks : List ℕ) :
    Mapped membs (g.removePrimaries ranks) :=
  foldlRecOn ranks _ h fun _ hg _ _ => hg.removePrimary fun _ hp _ => hp

theorem gpSelf_removePrimaries (g : GrpPriv) (ranks : List ℕ) :
    (g.removePrimaries ranks).gpSelf = g.gpSelf := by
  induction ranks generalizing g with
  | nil => rfl
  | cons rank ranks ih => exact (ih _).trans (g.gpSelf_removePrimary rank)

theorem Mapped.s2p_removePrimaries (h : Mapped membs g) (ranks : List ℕ) (s : ℕ) :
    (g.removePrimaries ranks).gpS2pTable s =
      if ∃ p ∈ ranks, g.gpS2pTable s = some p then none else g.gpS2pTable s := by
  induction ranks generalizing g with
  | nil =>
    rw [if_neg]
    · rfl
    · rintro ⟨p, hp, _⟩
      cases hp
  | cons rank ranks ih =>
    refine (ih (h.removePrimary fun _ hp _ => hp)).trans ?_
    rw [h.s2p_removePrimary]
    by_cases hrank : g.gpS2pTable s = some rank
    · have hsome : ∃ p ∈ rank :: ranks, g.gpS2pTable s = some p := ⟨rank, mem_cons_self, hrank⟩
      rw [if_pos hsome, if_pos hrank, ite_self]
    · rw [if_neg hrank]
      refine if_congr ⟨?_, ?_⟩ rfl rfl
      · rintro ⟨p, hp, heq⟩
        exact ⟨p, mem_cons_of_mem _ hp, heq⟩
      · rintro ⟨p, hp, heq⟩
        rcases mem_cons.mp hp with rfl | hp
        · exact absurd heq hrank
        · exact ⟨p, hp, heq⟩

theorem SelfOk.removePrimaries_iff (hok : g.SelfOk own) (h : Mapped membs g) (ranks : List ℕ) :
    (g.removePrimaries ranks).SelfOk own ↔ ((g.gpP2sTable own).isSome → own ∉ ranks) := by
  rw [hok.removed_iff h (h.removePrimaries ranks) (g.gpSelf_removePrimaries ranks)
    (h.s2p_removePrimaries ranks)]
  constructor
  · intro hall hsome hmem
    obtain ⟨s, hs⟩ := isSome_iff_exists.mp hsome
    exact hall s hs ⟨own, hmem, (h.inverse s own).mpr hs⟩
  · rintro hall s hs ⟨p, hp, heq⟩
    rw [(h.inverse s own).mpr hs] at heq
    cases heq
    exact hall (by rw [hs]; rfl) hp

/-! ### The primary group -/

variable {service : Bool} {env : RankAddEnv} {rank : ℕ}

theorem gpSelf_crtGrpLcUriInsert (g : GrpPriv) (rank : ℕ) (uri : Bool) :
    (g.crtGrpLcUriInsert rank uri).gpSelf = g.gpSelf := by
  rw [crtGrpLcUriInsert_eq]

theorem gpSelf_crtGroupPrimaryAddInternal
    (h : g.crtGroupPrimaryAddInternal service env rank uri = .ok r) : r.2.gpSelf = g.gpSelf := by
  rw [crtGroupPrimaryAddInternal] at h
  split at h
  · cases h
    rfl
  · exact (sameBut_grpAddToMembsList h).own.trans (gpSelf_crtGrpLcUriInsert g rank uri)

theorem gpSelf_modifyAdd {uris : ℕ → Bool} {toAdd : List (ℕ × ℕ)} :
    ∀ {added : List ℕ} {g : GrpPriv} {r : ℤ × List ℕ × GrpPriv},
      g.modifyAdd service envs uris toAdd added = .ok r → r.2.2.gpSelf = g.gpSelf := by
  induction toAdd with
  | nil =>
    intro added g r h
    cases h
    rfl
  | cons entry toAdd ih =>
    intro added g r h
    obtain ⟨rank, i⟩ := entry
    rw [modifyAdd] at h
    obtain ⟨r₁, hadd, h⟩ := exists_of_bind_eq_ok h
    dsimp only at h
    have hself := (sameBut_grpAddToMembsList hadd).own
    split at h
    · cases h
      exact hself
    · exact (ih h).trans ((gpSelf_crtGrpLcUriInsert _ rank (uris i)).trans hself)

theorem gpSelf_psrLoadLoop {lines : List (RankAddEnv × ℕ)} :
    ∀ {last : ℕ} {g : GrpPriv} {r : ℤ × ℕ × GrpPriv},
      psrLoadLoop service psrRank lines last g = .ok r → r.2.2.gpSelf = g.gpSelf := by
  induction lines with
  | nil =>
    intro last g r h
    cases h
    rfl
  | cons line lines ih =>
    intro last g r h
    rw [psrLoadLoop] at h
    obtain ⟨r₁, hadd, h⟩ := exists_of_bind_eq_ok h
    dsimp only at h
    have hself := gpSelf_crtGroupPrimaryAddInternal hadd
    split at h
    · cases h
      exact hself
    · refine (ih h).trans (Eq.trans ?_ hself)
      split
      · rfl
      · rfl

theorem gpSelf_crtGrpConfigPsrLoad (h : g.crtGrpConfigPsrLoad service psrRank file = .ok r) :
    r.2.gpSelf = g.gpSelf := by
  cases file with
  | error rc =>
    cases h
    rfl
  | ok lines =>
    rw [crtGrpConfigPsrLoad] at h
    obtain ⟨r₁, hloop, h⟩ := exists_of_bind_eq_ok h
    cases h
    refine Eq.trans ?_ (gpSelf_psrLoadLoop hloop)
    split
    · rfl
    · rfl

theorem gpSelf_crtGrpPsrReload
    (h : g.crtGrpPsrReload service uri file = .ok r) : r.2.gpSelf = g.gpSelf := by
  rw [crtGrpPsrReload] at h
  split at h
  · cases h
  · dsimp only at h
    split at h
    · cases h
      rfl
    · split at h
      · cases h
        rfl
      · exact gpSelf_crtGrpConfigPsrLoad h

end GrpPriv

namespace GrpWorld

open GrpPriv

variable {w w' : GrpWorld} {service : Bool} {listed distinct : Prop} {rc : ℤ}

/-- The self rank of every secondary group is the one that is mapped to the rank of the
process, if there is one. -/
def SelfOk (w : GrpWorld) : Prop := ∀ sec ∈ w.secs, sec.SelfOk w.prim.gpSelf

instance (w : GrpWorld) : Decidable w.SelfOk :=
  inferInstanceAs (Decidable (∀ sec ∈ w.secs, sec.gpSelf = _))

/-- The call takes this process out of a secondary group, itself or through the primary
group. -/
def DropsOwn (w : GrpWorld) : GrpOp → Prop
  | .rankRemove rank => rank = w.prim.gpSelf ∧ ∃ sec ∈ w.secs, (sec.gpP2sTable w.prim.gpSelf).isSome
  | .modify _ ranks _ op =>
    op.Drops ranks w.prim.gpSelf ∧ ∃ sec ∈ w.secs, (sec.gpP2sTable w.prim.gpSelf).isSome
  | .secRankRemove i rank => ∃ sec ∈ w.secs[i]?, sec.gpS2pTable rank = some w.prim.gpSelf
  | .secModify i _ secRanks _ op =>
    ∃ sec ∈ w.secs[i]?, ∃ s ∈ sec.gpP2sTable w.prim.gpSelf, op.Drops secRanks s
  | _ => False

instance (w : GrpWorld) (op : GrpOp) : Decidable (w.DropsOwn op) := by
  apply GrpOp.casesOn (motive := (Decidable <| w.DropsOwn ·)) op <;> intros <;>
    dsimp only [DropsOwn] <;> infer_instance

/-- As long as the process has no rank, nothing is mapped. -/
def Unset (w : GrpWorld) : Prop :=
  w.prim.gpSelf = crtNoRank → ∀ sec ∈ w.secs, ∀ s, sec.gpS2pTable s = none

/-! ### Calls -/

theorem onPrim_eq_ok {result : Except GrpStop (ℤ × GrpPriv)} (h : w.onPrim result = .ok (rc, w')) :
    ∃ g', result = .ok (rc, g') ∧ w' = { w with prim := g' } := by
  cases result with
  | error stop => cases h
  | ok r =>
    cases h
    exact ⟨_, rfl, rfl⟩

theorem onSec_eq_ok {i : ℕ} {f : GrpPriv → Except GrpStop (ℤ × GrpPriv)} (hrc : rc = 0)
    (h : w.onSec i f = .ok (rc, w')) :
    ∃ sec sec', w.secs[i]? = some sec ∧ f sec = .ok (rc, sec') ∧ w' = { w with secs := w.secs.set i sec' } := by
  rw [onSec] at h
  split at h
  · cases h
    cases hrc
  · rename_i sec hsec
    cases hcall : f sec with
    | error stop =>
      rw [hcall] at h
      cases h
    | ok r =>
      rw [hcall] at h
      cases h
      exact ⟨sec, r.2, hsec, hcall, rfl⟩

theorem primaryModify_inv {ranks : List ℕ} {uris : Option (ℕ → Bool)} {op : GroupModOp}
    (hrc : rc = 0) (h : w.crtGroupPrimaryModify service envs ranks uris op = .ok (rc, w')) :
    ∃ toAdd toRemove added g₁,
      crtGroupModGet w.prim.gpMembs.cgmLinearList ranks op = .ok (toAdd, toRemove) ∧
      w.prim.modifyAdd service envs (uris.getD fun _ => false) toAdd [] = .ok (0, added, g₁) ∧
      w' = toRemove.foldl (modifyRemove service) { w with prim := g₁ } := by
  subst hrc
  rw [crtGroupPrimaryModify] at h
  obtain ⟨_, h⟩ := of_guard h fun _ => by decide
  obtain ⟨_, h⟩ := of_guard h fun _ => by decide
  obtain ⟨_, h⟩ := of_guard h fun _ => by decide
  obtain ⟨⟨toAdd, toRemove⟩, hget, h⟩ := exists_of_bind_eq_ok h
  obtain ⟨⟨rc₁, added, g₁⟩, hadd, h⟩ := exists_of_bind_eq_ok h
  obtain ⟨hrc₁, h⟩ := of_guard h id
  cases h
  rw [not_not.mp hrc₁] at hadd
  exact ⟨toAdd, toRemove, added, g₁, hget, hadd, rfl⟩

theorem gpSelf_crtSwimRankDel (g : GrpPriv) (rank : ℕ) :
    (g.crtSwimRankDel service rank).gpSelf = g.gpSelf := by
  rw [GrpPriv.crtSwimRankDel]
  split
  · rfl
  · rfl

theorem foldl_modifyRemove (service : Bool) (ranks : List ℕ) (w : GrpWorld) :
    (ranks.foldl (modifyRemove service) w).prim.gpSelf = w.prim.gpSelf ∧
      (ranks.foldl (modifyRemove service) w).secs = w.secs.map fun sec => sec.removePrimaries ranks := by
  induction ranks generalizing w with
  | nil => exact ⟨rfl, (map_id _).symm⟩
  | cons rank ranks ih =>
    obtain ⟨hself, hsecs⟩ := ih (w.modifyRemove service rank)
    refine ⟨hself.trans ?_, hsecs.trans ?_⟩
    · exact (gpSelf_crtSwimRankDel _ rank).trans (w.prim.gpSelf_removeInternal rank)
    · exact map_map

theorem crtGroupRankRemove_self {rank : ℕ} (h : w.crtGroupRankRemove service rank = (0, w')) :
    w'.prim.gpSelf = w.prim.gpSelf ∧ w'.secs = w.secs.map fun sec => sec.removePrimaries [rank] := by
  rw [crtGroupRankRemove] at h
  dsimp only at h
  split at h
  · rename_i hrc
    exact absurd (congrArg Prod.fst h) hrc
  · rw [← (Prod.mk.inj h).2]
    split
    · exact ⟨(gpSelf_crtSwimRankDel _ rank).trans (w.prim.gpSelf_removeInternal rank), rfl⟩
    · exact ⟨w.prim.gpSelf_removeInternal rank, rfl⟩

/-! ### What becomes of the self ranks -/

theorem self_of_prim (hunset : w.Unset) (hself : w.SelfOk) (hown : g'.gpSelf = w.prim.gpSelf) :
    Unset { w with prim := g' } ∧ (SelfOk { w with prim := g' } ↔ ¬ False) := by
  rw [Unset, SelfOk, hown]
  exact ⟨hunset, iff_of_true hself not_false⟩

theorem self_of_cascade (hok : w.Ok listed distinct) (hunset : w.Unset) (hself : w.SelfOk)
    (ranks : List ℕ) (hown : w'.prim.gpSelf = w.prim.gpSelf)
    (hsecs : w'.secs = w.secs.map fun sec => sec.removePrimaries ranks) : w'.Unset ∧ (w'.SelfOk ↔
      ¬ (w.prim.gpSelf ∈ ranks ∧ ∃ sec ∈ w.secs, (sec.gpP2sTable w.prim.gpSelf).isSome)) := by
  rw [Unset, SelfOk, hown, hsecs]
  constructor
  · intro hnone sec' hsec' s
    obtain ⟨sec, hsec, rfl⟩ := mem_map.mp hsec'
    rw [(hok.secs sec hsec).s2p_removePrimaries, hunset hnone sec hsec, ite_self]
  · rw [List.forall_mem_map, not_and]
    constructor
    · rintro hall hmem ⟨sec, hsec, hsome⟩
      exact ((hself sec hsec).removePrimaries_iff (hok.secs sec hsec) ranks).mp (hall sec hsec) hsome hmem
    · intro hnot sec hsec
      refine ((hself sec hsec).removePrimaries_iff (hok.secs sec hsec) ranks).mpr fun hsome hmem => ?_
      exact hnot hmem ⟨sec, hsec, hsome⟩

theorem self_of_set (hunset : w.Unset) (hself : w.SelfOk) {i : ℕ} {sec : GrpPriv}
    (hsec : w.secs[i]? = some sec) (sec' : GrpPriv)
    (hnone : w.prim.gpSelf = crtNoRank → (∀ s, sec.gpS2pTable s = none) → ∀ s, sec'.gpS2pTable s = none) :
    Unset { w with secs := w.secs.set i sec' } ∧
      (SelfOk { w with secs := w.secs.set i sec' } ↔ sec'.SelfOk w.prim.gpSelf) := by
  obtain ⟨hlt, _⟩ := List.getElem?_eq_some_iff.mp hsec
  constructor
  · intro hown x hx
    rcases mem_or_eq_of_mem_set hx with hmem | rfl
    · exact hunset hown x hmem
    · exact hnone hown (hunset hown sec (mem_of_getElem? hsec))
  · constructor
    · intro hall
      exact hall sec' (mem_set hlt sec')
    · intro hnew x hx
      rcases mem_or_eq_of_mem_set hx with hmem | rfl
      · exact hself x hmem
      · exact hnew

theorem crtRankSelfSet_self {env : RankAddEnv} {rank : ℕ}
    (hok : w.Ok listed distinct) (hunset : w.Unset) (hself : w.SelfOk) (hrc : rc = 0)
    (hcall : w.prim.crtRankSelfSet service env rank uri = .ok (rc, g')) :
    { w with prim := g' }.Unset ∧ { w with prim := g' }.SelfOk := by
  rw [crtRankSelfSet] at hcall
  split at hcall
  · cases hcall
    exact ⟨hunset, hself⟩
  · split_ifs at hcall with hown
    · cases hcall
      cases hrc
    · have hnone := hunset (not_not.mp hown)
      refine ⟨fun _ => hnone, fun sec hsec => ?_⟩
      exact (hself sec hsec).of_unmapped (hok.secs sec hsec) (hnone sec hsec) _

theorem self_of_create (hunset : w.Unset) (hself : w.SelfOk) :
    { w with secs := w.secs ++ [crtGroupSecondaryCreate] }.Unset ∧
      { w with secs := w.secs ++ [crtGroupSecondaryCreate] }.SelfOk := by
  have hsecs : ∀ sec ∈ w.secs ++ [crtGroupSecondaryCreate], sec ∈ w.secs ∨ sec = crtGroupSecondaryCreate := by
    intro sec hsec
    exact (mem_append.mp hsec).imp_right mem_singleton.mp
  refine ⟨fun hown sec hsec s => ?_, fun sec hsec => ?_⟩
  · rcases hsecs sec hsec with hmem | rfl
    · exact hunset hown sec hmem s
    · rfl
  · rcases hsecs sec hsec with hmem | rfl
    · exact hself sec hmem
    · rfl

/-- A call leaves the self ranks right exactly if it does not take the process out of a
secondary group. -/
theorem exec_self (hok : w.Ok listed distinct) (hvalid : op.RanksValid) (hunset : w.Unset)
    (hself : w.SelfOk) (h : w.exec service op = .ok (0, w')) :
    w'.Unset ∧ (w'.SelfOk ↔ ¬ w.DropsOwn op) := by
  cases op with
  | rankAdd env rank uri =>
    obtain ⟨g', hcall, rfl⟩ := onPrim_eq_ok h
    exact self_of_prim hunset hself (gpSelf_crtGroupPrimaryAddInternal hcall)
  | selfSet env rank uri =>
    rw [exec] at h
    split at h
    · cases h
      exact self_of_prim hunset hself rfl
    · obtain ⟨g', hcall, rfl⟩ := onPrim_eq_ok h
      obtain ⟨hunset', hself'⟩ := crtRankSelfSet_self hok hunset hself rfl hcall
      exact ⟨hunset', iff_of_true hself' not_false⟩
  | rankRemove rank =>
    obtain ⟨hown, hsecs⟩ := crtGroupRankRemove_self (Except.ok.inj h)
    obtain ⟨hunset', hiff⟩ := self_of_cascade hok hunset hself [rank] hown hsecs
    refine ⟨hunset', hiff.trans (not_congr ?_)⟩
    rw [mem_singleton, DropsOwn, eq_comm]
  | modify envs ranks uris op =>
    obtain ⟨toAdd, toRemove, added, g₁, hget, hadd, rfl⟩ := primaryModify_inv rfl h
    obtain ⟨hown, hsecs⟩ := foldl_modifyRemove service toRemove { w with prim := g₁ }
    obtain ⟨hunset', hiff⟩ := self_of_cascade hok hunset hself toRemove
      (hown.trans (gpSelf_modifyAdd hadd)) hsecs
    refine ⟨hunset', hiff.trans (not_congr ?_)⟩
    rw [(crtGroupModGet_eq_ok hget).2, DropsOwn]
    constructor
    · rintro ⟨⟨_, hdrops⟩, hsome⟩
      exact ⟨hdrops, hsome⟩
    · rintro ⟨hdrops, sec, hsec, hsome⟩
      obtain ⟨s, hs⟩ := isSome_iff_exists.mp hsome
      have hmapped := hok.secs sec hsec
      exact ⟨⟨hmapped.image s _ ((hmapped.inverse s _).mpr hs), hdrops⟩, sec, hsec, hsome⟩
  | configLoad file =>
    obtain ⟨g', hcall, rfl⟩ := onPrim_eq_ok h
    exact self_of_prim hunset hself (gpSelf_crtGrpConfigPsrLoad hcall)
  | psrReload uri file =>
    obtain ⟨g', hcall, rfl⟩ := onPrim_eq_ok h
    exact self_of_prim hunset hself (gpSelf_crtGrpPsrReload hcall)
  | uriInsert rank =>
    cases h
    exact self_of_prim hunset hself (gpSelf_crtGrpLcUriInsert _ rank true)
  | secCreate =>
    cases h
    obtain ⟨hunset', hself'⟩ := self_of_create hunset hself
    exact ⟨hunset', iff_of_true hself' not_false⟩
  | secDestroy i =>
    cases h
    refine ⟨fun hown sec hsec => hunset hown sec (mem_of_mem_eraseIdx hsec), ?_⟩
    exact iff_of_true (fun sec hsec => hself sec (mem_of_mem_eraseIdx hsec)) not_false
  | secRankAdd i env secRank primRank =>
    obtain ⟨sec, sec', hsec, hcall, rfl⟩ := onSec_eq_ok rfl h
    have hmapped := hok.secs sec (mem_of_getElem? hsec)
    rw [crtGroupSecondaryRankAdd, hmapped.secondary, if_neg Bool.false_ne_true] at hcall
    obtain ⟨hown, hfree, hpaired⟩ := hmapped.paired_of_rankAddInternal hvalid hcall
    obtain ⟨hunset', hiff⟩ := self_of_set hunset hself hsec sec' fun hno => absurd hno hown
    refine ⟨hunset', hiff.trans (iff_of_true ?_ not_false)⟩
    exact (hself sec (mem_of_getElem? hsec)).pairedAll hmapped
      (.cons hown hfree hpaired (.nil hpaired.mapped))
  | secRankRemove i rank =>
    obtain ⟨sec, sec', hsec, hcall, rfl⟩ := onSec_eq_ok rfl h
    have hmapped := hok.secs sec (mem_of_getElem? hsec)
    obtain rfl : (sec.crtGroupRankRemoveInternal rank).2 = sec' :=
      congrArg Prod.snd (Except.ok.inj hcall)
    obtain ⟨hunset', hiff⟩ := self_of_set hunset hself hsec
      (sec.crtGroupRankRemoveInternal rank).2 fun _ hnone s => by
        rw [s2p_removeInternal hmapped.secondary, hnone, ite_self]
    refine ⟨hunset', hiff.trans ?_⟩
    rw [(hself sec (mem_of_getElem? hsec)).removeInternal_iff hmapped, DropsOwn, hsec]
    constructor
    · rintro hne ⟨sec₁, heq, hs⟩
      cases heq
      exact hne hs
    · intro hnot hs
      exact hnot ⟨sec, rfl, hs⟩
  | secModify i envs secRanks primRanks op =>
    obtain ⟨sec, sec', hsec, hcall, rfl⟩ := onSec_eq_ok rfl h
    have hmapped := hok.secs sec (mem_of_getElem? hsec)
    obtain ⟨hunset', hiff⟩ := self_of_set hunset hself hsec sec' fun hno hnone s => by
      obtain ⟨sec₁, toRemove, hpaired, _, rfl⟩ := hmapped.modify_pairs hvalid hcall
      have hnil : sec.modPairs secRanks primRanks op = [] := by
        by_contra hne
        exact hpaired.own hne hno
      rw [(cleanup_tables hpaired.mapped.secondary _).1, hpaired.kept s (by rw [hnil]; exact not_mem_nil), hnone, ite_self]
    refine ⟨hunset', hiff.trans ?_⟩
    rw [(hself sec (mem_of_getElem? hsec)).modify_iff hmapped hvalid hcall, DropsOwn, hsec]
    constructor
    · rintro hall ⟨sec₁, heq, s, hs, hdrops⟩
      cases heq
      exact hall s hs hdrops
    · intro hnot s hs hdrops
      exact hnot ⟨sec, rfl, s, hs, hdrops⟩

end GrpWorld

/-! ### Runs -/

/-- The call returns 0. -/
def GrpWorld.Succeeds (service : Bool) (w : GrpWorld) (op : GrpOp) : Prop :=
  (w.exec service op).toOption.map Prod.fst = some 0
deriving Decidable

/-- The runs of calls that succeed. -/
@[reducible]
def okRuns (service : Bool) (prim : GrpPriv) : Lts GrpWorld GrpOp :=
  (groupRuns service prim).restrict fun w op => w.Succeeds service op

/-- Those that do not take the process out of a secondary group. -/
@[reducible]
def selfRuns (service : Bool) (prim : GrpPriv) : Lts GrpWorld GrpOp :=
  (okRuns service prim).restrict fun w op => ¬ w.DropsOwn op

variable {service : Bool} {prim : GrpPriv} {w : GrpWorld}

theorem GrpWorld.Succeeds.exists_exec (h : w.Succeeds service op) :
    ∃ w', w.exec service op = .ok (0, w') := by
  rw [Succeeds] at h
  cases hexec : w.exec service op with
  | error stop =>
    rw [hexec] at h
    cases h
  | ok r =>
    rw [hexec] at h
    obtain ⟨rc, w'⟩ := r
    obtain rfl : rc = 0 := some.inj h
    exact ⟨w', rfl⟩

theorem GrpWorld.Succeeds.exec {w' : GrpWorld} (h : w.Succeeds service op) (prim : GrpPriv)
    (hstep : (groupLts service prim).step w op = some w') : w.exec service op = .ok (0, w') := by
  obtain ⟨rc, hexec⟩ := exec_of_step prim hstep
  rw [Succeeds, hexec] at h
  obtain rfl : rc = 0 := some.inj h
  exact hexec

theorem selfRuns_self (hstart : Starts service prim) : (selfRuns service prim).Invariant fun w =>
      w.Ok (prim.gpSize = 0) False ∧ w.Unset ∧ w.SelfOk where
  init := by
    rintro w rfl
    exact ⟨ok_of_starts False hstart, fun _ sec hsec => absurd hsec not_mem_nil,
      fun sec hsec => absurd hsec not_mem_nil⟩
  step := by
    rintro w op w' ⟨hok, hunset, hself⟩ ⟨⟨⟨henabled, hvalid⟩, hsucceeds⟩, hdrops⟩ hstep
    have hexec := hsucceeds.exec prim hstep
    obtain ⟨hunset', hiff⟩ := exec_self hok hvalid hunset hself hexec
    exact ⟨ok_of_exec hok henabled hvalid False.elim hexec, hunset', hiff.mpr hdrops⟩

/-- **Self rank of a secondary group.**  It is the rank mapped to the process in every run that
does not take the process out of a secondary group; and after one more call exactly if this does
not either. -/
theorem group_self_rank (hstart : Starts service prim) (hw : (selfRuns service prim).Reach w) :
    w.SelfOk ∧ ∀ op w', op.RanksValid → w.exec service op = .ok (0, w') →
      (w'.SelfOk ↔ ¬ w.DropsOwn op) := by
  obtain ⟨hok, hunset, hself⟩ := (selfRuns_self hstart).reach hw
  exact ⟨hself, fun op w' hvalid hexec => (GrpWorld.exec_self hok hvalid hunset hself hexec).2⟩

/-- The process is rank 5 of a secondary group, and the other rank is removed. -/
theorem group_self_rank_five :
    ∃ w, (selfRuns true (.crtPrimaryGrpInit true)).Reach w ∧
      w.secs.map (fun sec => (sec.gpSelf, sec.gpMembs.cgmLinearList)) = [(5, [5, 6])] ∧ w.SelfOk ∧
      ∃ w', w.exec true (.secRankRemove 0 6) = .ok (0, w') ∧ w'.SelfOk := by
  obtain ⟨w, hw, hsecs, hsucceeds, hdrops⟩ : ∃ w, (selfRuns true (.crtPrimaryGrpInit true)).Reach w ∧
      w.secs.map (fun sec => (sec.gpSelf, sec.gpMembs.cgmLinearList)) = [(5, [5, 6])] ∧
      w.Succeeds true (.secRankRemove 0 6) ∧ ¬ w.DropsOwn (.secRankRemove 0 6) :=
    Lts.exists_reach_of_exec [.selfSet easyAdd 0 true, .rankAdd easyAdd 1 true, .secCreate,
      .secRankAdd 0 easyAdd 5 0, .secRankAdd 0 easyAdd 6 1] ⟨_, []⟩ rfl (by decide +kernel)
  obtain ⟨hself, hop⟩ := group_self_rank (.inl rfl) hw
  obtain ⟨w', hcall⟩ := hsucceeds.exists_exec
  exact ⟨w, hw, hsecs, hself, w', hcall, (hop _ w' (by decide) hcall).mpr hdrops⟩

/-- The process is removed, and is still rank 5 for the secondary group. -/
theorem group_self_rank_stale :
    (∃ w, (okRuns true (.crtPrimaryGrpInit true)).Reach w ∧ w.prim.gpMembs.cgmLinearList = [0] ∧
      w.secs.map (fun sec => (sec.gpSelf, sec.gpMembs.cgmLinearList)) = [(5, [])] ∧ ¬ w.SelfOk) ∧
    ∃ w, (okRuns true (.crtPrimaryGrpInit true)).Reach w ∧ w.prim.gpMembs.cgmLinearList = [] ∧
      w.secs.map (fun sec => (sec.gpSelf, sec.gpMembs.cgmLinearList)) = [(5, [])] ∧ ¬ w.SelfOk := by
  constructor
  · exact Lts.exists_reach_of_exec [.selfSet easyAdd 0 true, .secCreate, .secRankAdd 0 easyAdd 5 0,
      .secRankRemove 0 5] ⟨_, []⟩ rfl (by decide +kernel)
  · exact Lts.exists_reach_of_exec [.selfSet easyAdd 0 true, .secCreate, .secRankAdd 0 easyAdd 5 0,
      .rankRemove 0] ⟨_, []⟩ rfl (by decide +kernel)

end Cart
