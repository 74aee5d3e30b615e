/-
No rank twice.

In the primary group of a service SWIM refuses the ranks that it tracks, but it can have lost
one that is still a member; for views and on clients nobody asks.  So it is up to the callers
to add new ranks only (`GrpWorld.AddsNew`).

Main results: `group_members_distinct`, `group_members_repeated`.
-/
import Cart.GroupRun

namespace Cart

open GrpPriv

variable {service : Bool} {prim : GrpPriv} {w w' : GrpWorld}

/-- The runs in which every call adds new ranks. -/
def distinctRuns (service : Bool) (prim : GrpPriv) : Lts GrpWorld GrpOp :=
  (groupLts service prim).restrict fun w op => op.RanksValid ∧ w.AddsNew service op

theorem distinctRuns_ok (hstart : Starts service prim) :
    (distinctRuns service prim).Invariant (GrpWorld.Ok (prim.gpSize = 0) True) where
  init := by
    rintro w rfl
    exact ok_of_starts True hstart
  step := by
    rintro w op w' hok ⟨henabled, hvalid, hnew⟩ hstep
    obtain ⟨rc, hexec⟩ := exec_of_step prim hstep
    exact ok_of_exec hok henabled hvalid (fun _ => hnew) hexec

theorem crtGroupRankRemove_gpMembs {rank : ℕ} (h : w.crtGroupRankRemove service rank = (0, w')) :
    (w.prim.crtGroupRankRemoveInternal rank).1 = 0 ∧
      w'.prim.gpMembs = (w.prim.crtGroupRankRemoveInternal rank).2.gpMembs := by
  rw [GrpWorld.crtGroupRankRemove] at h
  dsimp only at h
  split at h
  · rename_i hrc
    exact absurd (Prod.mk.inj h).1 hrc
  · rename_i hrc
    refine ⟨not_not.mp hrc, ?_⟩
    rw [← (Prod.mk.inj h).2]
    split
    · exact crtSwimRankDel_gpMembs _ service rank
    · rfl

theorem crtGroupRankRemove_gone {listed : Prop} (hok : w.Ok listed True) {rank : ℕ}
    (hrank : rank ≠ crtNoRank) (h : w.crtGroupRankRemove service rank = (0, w')) :
    rank ∉ w'.prim.occupied := by
  obtain ⟨hrc, hmembs⟩ := crtGroupRankRemove_gpMembs h
  rw [occupied_congr hmembs]
  rcases hok.prim.removed_cases hrank with heq | ⟨_, hr⟩
  · rw [heq] at hrc
    exact absurd hrc (by decide : -derOog ≠ 0)
  · rcases hr.occupied with ⟨hno, hsame⟩ | ⟨hperm, _⟩
    · rw [occupied_congr hsame]
      exact hno
    · exact (List.nodup_cons.mp (hperm.nodup_iff.mp (hok.prim.nodup trivial))).1

/-- **No duplicate members**, if no call adds a rank that is in a slot, or one rank twice,
unless SWIM tracks it. -/
theorem group_members_distinct (hstart : Starts service prim)
    (hw : (distinctRuns service prim).Reach w) :
    w.prim.occupied.Nodup ∧ w.prim.gpMembs.cgmLinearList.Nodup ∧
      w.prim.gpSize = w.prim.occupied.toFinset.card ∧
      ∀ rank w', rank ≠ crtNoRank → w.crtGroupRankRemove service rank = (0, w') →
        rank ∉ w'.prim.occupied ∧ rank ∉ w'.prim.gpMembs.cgmLinearList := by
  have hok := (distinctRuns_ok hstart).reach hw
  have hnodup := hok.prim.nodup trivial
  refine ⟨hnodup, ?_, ?_, fun rank w' hrank hremove => ?_⟩
  · rcases hok.prim.made with hnil | hlisted
    · rw [hnil]
      exact .nil
    · rw [hlisted]
      exact hnodup
  · rw [List.toFinset_card_of_nodup hnodup]
    exact hok.prim.slots.size
  · have hgone := crtGroupRankRemove_gone hok hrank hremove
    refine ⟨hgone, fun hmem => hgone ?_⟩
    have hok' : GrpWorld.Ok (prim.gpSize = 0) True w' := by
      have hafter := hok.rankRemove service hrank
      rwa [hremove] at hafter
    exact hok'.prim.within hmem

instance (w : GrpWorld) (ranks : List ℕ) : Decidable (w.NewRanks ranks) :=
  instDecidableAnd

instance (service : Bool) (g : GrpPriv) (rank : ℕ) : Decidable (g.Guarded service rank) :=
  inferInstanceAs (Decidable (_ ∧ _))

instance (service : Bool) (w : GrpWorld) (op : GrpOp) : Decidable (w.AddsNew service op) := by
  apply GrpOp.casesOn (motive := (Decidable <| w.AddsNew service ·)) op <;> intros <;>
    dsimp only [GrpWorld.AddsNew] <;> infer_instance

instance (service : Bool) (prim : GrpPriv) (w : GrpWorld) (op : GrpOp) :
    Decidable ((distinctRuns service prim).enabled w op) :=
  inferInstanceAs (Decidable (w.Enabled service op ∧ op.RanksValid ∧ w.AddsNew service op))

/-- A service: a rank is refused the second time, and comes back after its removal. -/
theorem group_members_distinct_readded :
    ∃ w, (distinctRuns true (.crtPrimaryGrpInit true)).Reach w ∧
      w.prim.gpMembs.cgmLinearList = [0, 3, 1] ∧ w.prim.occupied.Nodup ∧ w.prim.gpSize = 3 ∧
      1 ∉ (w.crtGroupRankRemove true 1).2.prim.gpMembs.cgmLinearList := by
  obtain ⟨w, hw, hlinear, hsize, hrc⟩ : ∃ w, (distinctRuns true (.crtPrimaryGrpInit true)).Reach w ∧
      w.prim.gpMembs.cgmLinearList = [0, 3, 1] ∧ w.prim.gpSize = 3 ∧ (w.crtGroupRankRemove true 1).1 = 0 :=
    Lts.exists_reach_of_exec [.selfSet easyAdd 0 true, .rankAdd easyAdd 1 true, .rankAdd easyAdd 1 true,
      .rankRemove 1, .configLoad (.ok [(easyAdd, 3), (easyAdd, 1)])] ⟨_, []⟩ rfl (by decide +kernel)
  obtain ⟨hnodup, _, _, hgone⟩ := group_members_distinct (.inl rfl) hw
  refine ⟨w, hw, hlinear, hnodup, hsize, (hgone 1 _ (by decide) ?_).2⟩
  rw [← hrc]

/-- A view gets a rank twice; and a refused removal makes SWIM forget a rank that is then added
again. -/
theorem group_members_repeated :
    (∃ w w', (groupRuns false .crtGroupViewCreate).Reach w ∧ ¬ w.prim.occupied.Nodup ∧
      w.prim.gpSize = 2 ∧ w.prim.occupied.toFinset.card = 1 ∧
      w.crtGroupRankRemove false 3 = (0, w') ∧ 3 ∈ w'.prim.gpMembs.cgmLinearList) ∧
    ∃ w, (groupRuns true (.crtPrimaryGrpInit true)).Reach w ∧
      w.prim.gpMembs.cgmLinearList = [0, 1, 0] := by
  constructor
  · obtain ⟨w, hreach, hocc, hsize, hcard, hrc, hleft⟩ : ∃ w,
        (groupRuns false .crtGroupViewCreate).Reach w ∧ ¬ w.prim.occupied.Nodup ∧ w.prim.gpSize = 2 ∧
        w.prim.occupied.toFinset.card = 1 ∧ (w.crtGroupRankRemove false 3).1 = 0 ∧
        3 ∈ (w.crtGroupRankRemove false 3).2.prim.gpMembs.cgmLinearList :=
      Lts.exists_reach_of_exec [.rankAdd easyAdd 3 true, .rankAdd easyAdd 3 true] ⟨_, []⟩ rfl
        (by decide +kernel)
    exact ⟨w, _, hreach, hocc, hsize, hcard, by rw [← hrc], hleft⟩
  · exact Lts.exists_reach_of_exec [.selfSet easyAdd 0 false, .rankAdd easyAdd 1 true,
      .modify (fun _ => easyAdd) [0] none .remove, .rankAdd easyAdd 0 true] ⟨_, []⟩ rfl (by decide +kernel)

end Cart
