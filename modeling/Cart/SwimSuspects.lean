/-
The list of suspects.

`sc_suspects` and the stored states are changed separately, but every change
keeps them in step: who is in the list is in `SWIM_MEMBER_SUSPECT` and is there
once (`Sound`), and nobody in that state is missing (`Complete`).

Main results: `swim_suspects_exact`, `swim_verdicts_grow`.
-/
import Cart.SwimMerge
import Cart.SwimRun

open Function List

namespace Cart

namespace SwimContext

variable {e : SwimEvent} {ctx ctx' : SwimContext} {id : ℕ} {new : SwimMemberState}

/-- The member is suspected. -/
def Suspected (ctx : SwimContext) (id : ℕ) : Prop :=
  ∃ state, ctx.members id = some state ∧ state.smsStatus = .suspect

/-- The lists name every member once, and who is in the list of suspects is
suspected. -/
structure Sound (ctx : SwimContext) : Prop where
  suspects : (ids ctx.scSuspects).Nodup
  suspected : ∀ id ∈ ids ctx.scSuspects, ctx.Suspected id
  updates : (ids ctx.scUpdates).Nodup

/-- Who is suspected is in the list. -/
def Complete (ctx : SwimContext) : Prop := ∀ id, ctx.Suspected id → id ∈ ids ctx.scSuspects

theorem suspected_update_self (hmembers : ctx'.members = update ctx.members id (some new)) :
    ctx'.Suspected id ↔ new.smsStatus = .suspect := by
  rw [Suspected, hmembers, update_self]
  simp

theorem suspected_update_of_ne {x : ℕ} (hx : x ≠ id)
    (hmembers : ctx'.members = update ctx.members id (some new)) :
    ctx'.Suspected x ↔ ctx.Suspected x := by
  rw [Suspected, hmembers, update_of_ne hx, Suspected]

theorem suspected_congr (hmembers : ctx'.members = ctx.members) :
    ctx'.Suspected id ↔ ctx.Suspected id := by
  rw [Suspected, hmembers, Suspected]

theorem Sound.applied (h : Sound ctx) (happ : Applied id new ctx ctx') : Sound ctx' := by
  refine ⟨happ.nodup h.suspects, fun x hx => ?_, happ.updates h.updates⟩
  rcases happ.mem h.suspects hx with ⟨rfl, hstatus⟩ | ⟨hxid, hx⟩
  · exact (suspected_update_self happ.members).mpr hstatus
  · exact (suspected_update_of_ne hxid happ.members).mpr (h.suspected x hx)

theorem Complete.applied (h : Complete ctx) (happ : Applied id new ctx ctx') : Complete ctx' := by
  intro x hx
  by_cases hxid : x = id
  · rw [hxid, suspected_update_self happ.members] at hx
    cases happ.suspects with
    | removed hstatus _ => exact absurd hx hstatus
    | kept _ hid hl => rwa [hl, hxid]
    | added _ _ item hitem hl =>
      rw [hl, ids_append, ids_cons, ids_nil, hitem, hxid]
      simp
  · rw [suspected_update_of_ne hxid happ.members] at hx
    have hmem := h x hx
    cases happ.suspects with
    | removed _ hl =>
      rw [hl, ids_removeItem]
      exact (mem_erase_of_ne hxid).mpr hmem
    | kept _ _ hl => rwa [hl]
    | added _ _ item _ hl =>
      rw [hl, ids_append]
      exact mem_append_left _ hmem

/-- The status of the member itself stays when it goes to the next incarnation. -/
theorem suspected_refuted {state : SwimMemberState} {inc : ℕ} (hid : ctx.members id = some state)
    (hmembers : ctx'.members = update ctx.members id
      (some { state with smsIncarnation := inc })) (x : ℕ) :
    ctx'.Suspected x ↔ ctx.Suspected x := by
  by_cases hx : x = id
  · rw [hx, suspected_update_self hmembers, Suspected, hid]
    simp
  · exact suspected_update_of_ne hx hmembers

theorem Sound.change (h : Sound ctx) (hch : Change e ctx ctx') : Sound ctx' := by
  have hnd := hch.nodup h.suspects
  cases hch with
  | said kind id nr state _ _ _ _ happ | suspected state _ _ _ _ happ
  | killed id state _ _ _ happ => exact h.applied happ
  | refuted nr state _ hid _ hmembers hsuspects hupdates _ =>
    refine ⟨hnd, fun x hx => ?_, hupdates h.updates⟩
    rw [suspected_refuted hid hmembers]
    exact h.suspected x (hsuspects ▸ hx)
  | dropped id hid hmembers hsuspects hupdates _ =>
    refine ⟨hnd, fun x hx => ?_, hupdates ▸ h.updates⟩
    rw [hsuspects, ids_removeItem] at hx
    rw [suspected_congr hmembers]
    exact h.suspected x (mem_of_mem_erase hx)
  | other hmembers hsuspects hupdates _ _ =>
    refine ⟨hnd, fun x hx => ?_, hupdates.nodup h.updates⟩
    rw [suspected_congr hmembers]
    exact h.suspected x (hsuspects ▸ hx)

theorem Complete.change (h : Complete ctx) (hch : Change e ctx ctx') : Complete ctx' := by
  cases hch with
  | said kind id nr state _ _ _ _ happ | suspected state _ _ _ _ happ
  | killed id state _ _ _ happ => exact h.applied happ
  | refuted nr state _ hid _ hmembers hsuspects hupdates _ =>
    intro x hx
    rw [suspected_refuted hid hmembers] at hx
    exact hsuspects ▸ h x hx
  | dropped id hid hmembers hsuspects hupdates _ =>
    intro x hx
    rw [suspected_congr hmembers] at hx
    -- only members are suspected
    have hxid : x ≠ id := fun heq => by
      obtain ⟨state, hst, _⟩ := hx
      exact absurd (hid.symm.trans (heq ▸ hst)) (by simp)
    rw [hsuspects, ids_removeItem]
    exact (mem_erase_of_ne hxid).mpr (h x hx)
  | other hmembers hsuspects hupdates _ _ =>
    intro x hx
    rw [suspected_congr hmembers] at hx
    exact hsuspects ▸ h x hx

theorem sound_swimInit (self : ℕ) (members : ℕ → Option SwimMemberState) :
    Sound (swimInit self members) :=
  ⟨nodup_nil, fun _ hid => absurd hid not_mem_nil, nodup_nil⟩

/-- The member itself is not pinged and not suspected. -/
structure SelfClear (own : ℕ) (ctx : SwimContext) : Prop where
  same : ctx.scSelf = own
  target : ctx.scTarget = swimIdInvalid ∨ ctx.scTarget ≠ own
  clear : ¬ ctx.Suspected own

theorem SelfClear.applied {own : ℕ} (h : SelfClear own ctx) (hid : id ≠ own)
    (happ : Applied id new ctx ctx') : SelfClear own ctx' where
  same := happ.frame.self.trans h.same
  target := happ.frame.target ▸ h.target
  clear := by
    rw [suspected_update_of_ne hid.symm happ.members]
    exact h.clear

theorem SelfClear.change {own : ℕ} (h : SelfClear own ctx) (hchosen : ¬ e.Chooses own)
    (hch : Change e ctx ctx') (hsound : Sound ctx) : SelfClear own ctx' := by
  cases hch with
  | said kind id nr state _ hself _ _ happ => exact h.applied (h.same ▸ hself) happ
  | suspected state _ htarget _ _ happ => exact h.applied (h.target.resolve_left htarget) happ
  | killed id state hwhy hid _ happ =>
    rcases hwhy with ⟨_, rfl⟩ | ⟨_, hmem⟩
    · refine ⟨happ.frame.self.trans h.same, happ.frame.target ▸ h.target, ?_⟩
      by_cases hx : own = ctx.scTarget
      · rw [hx, suspected_update_self happ.members]
        simp
      · rw [suspected_update_of_ne hx happ.members]
        exact h.clear
    · exact h.applied (fun heq => h.clear (hsound.suspected own (heq ▸ hmem))) happ
  | refuted nr state _ hid _ hmembers _ _ hframe =>
    refine ⟨hframe.self.trans h.same, hframe.target ▸ h.target, ?_⟩
    rw [h.same] at hid hmembers
    rw [suspected_update_self hmembers]
    exact fun hst => h.clear ⟨state, hid, hst⟩
  | dropped id _ hmembers _ _ hframe =>
    exact ⟨hframe.self.trans h.same, hframe.target ▸ h.target, (suspected_congr hmembers).not.mpr h.clear⟩
  | other hmembers _ _ hself htarget =>
    refine ⟨hself.trans h.same, ?_, (suspected_congr hmembers).not.mpr h.clear⟩
    rcases htarget with htarget | htarget | htarget
    · exact htarget ▸ h.target
    · exact .inl htarget
    · exact .inr fun heq => hchosen (heq ▸ htarget)

end SwimContext

/-- The callback `get_dping_target` does not choose the member itself. -/
def ChoosesOthers (n : SwimNode) (e : SwimEvent) : Prop := ¬ e.Chooses n.ctx.scSelf

/-- A new context of the member `self` in a group where nobody is suspected. -/
def Unsuspecting (self : ℕ) (ctx : SwimContext) : Prop :=
  ∃ members : ℕ → Option SwimMemberState,
    (∀ id state, members id = some state → state.smsStatus ≠ .suspect) ∧ ctx = .swimInit self members

instance (id : ℕ) (e : SwimEvent) : Decidable (e.Chooses id) := by
  apply SwimEvent.casesOn (motive := (Decidable <| ·.Chooses id)) e <;> intros <;>
    dsimp only [SwimEvent.Chooses] <;> infer_instance

instance (n : SwimNode) (e : SwimEvent) : Decidable (ChoosesOthers n e) :=
  instDecidableNot

open SwimContext in
theorem suspects_invariant (self : ℕ) : (swimLts (Unsuspecting self)).Invariant fun n =>
    Sound n.ctx ∧ Complete n.ctx := by
  refine ⟨?_, ?_⟩
  · rintro n ⟨⟨members, hnone, hctx⟩, _⟩
    rw [hctx]
    refine ⟨sound_swimInit self members, fun id hsuspect => ?_⟩
    obtain ⟨state, hid, hst⟩ := hsuspect
    exact absurd hst (hnone id state hid)
  · rintro n e n' ⟨hsound, hcomplete⟩ _ hstep
    cases hstep
    exact Changes.preserves (P := fun ctx => Sound ctx ∧ Complete ctx)
      (step_changes n e hsound.suspects) ⟨hsound, hcomplete⟩ fun _ _ h hch =>
        ⟨h.1.change hch, h.2.change hch⟩

open SwimContext in
theorem selfClear_invariant (self : ℕ) :
    ((swimLts (Unsuspecting self)).restrict ChoosesOthers).Invariant fun n =>
      Sound n.ctx ∧ SelfClear self n.ctx := by
  refine ⟨?_, ?_⟩
  · rintro n ⟨⟨members, hnone, hctx⟩, _⟩
    rw [hctx]
    refine ⟨sound_swimInit self members, rfl, .inl rfl, ?_⟩
    rintro ⟨state, hid, hst⟩
    exact hnone self state hid hst
  · rintro n e n' ⟨hsound, hclear⟩ ⟨_, hchosen⟩ hstep
    cases hstep
    rw [ChoosesOthers, hclear.same] at hchosen
    exact Changes.preserves (P := fun ctx => Sound ctx ∧ SelfClear self ctx)
      (step_changes n e hsound.suspects) ⟨hsound, hclear⟩ fun _ _ h hch =>
        ⟨h.1.change hch, h.2.change hchosen hch h.1⟩

/-- **The list of suspects** has, once each, the members stored as `SWIM_MEMBER_SUSPECT`. -/
theorem swim_suspects_exact (self : ℕ) :
    (∀ n, (swimLts (Unsuspecting self)).Reach n →
      (ids n.ctx.scSuspects).Nodup ∧
      (∀ id, id ∈ ids n.ctx.scSuspects ↔
        ∃ state, n.ctx.members id = some state ∧ state.smsStatus = .suspect) ∧
      (ids n.ctx.scUpdates).Nodup) ∧
    ∀ n, ((swimLts (Unsuspecting self)).restrict ChoosesOthers).Reach n →
      ∀ id, id ∈ ids n.ctx.scSuspects ↔ id ≠ self ∧
        ∃ state, n.ctx.members id = some state ∧ state.smsStatus = .suspect := by
  have hexact : ∀ n, (swimLts (Unsuspecting self)).Reach n → ∀ id, id ∈ ids n.ctx.scSuspects ↔
      ∃ state, n.ctx.members id = some state ∧ state.smsStatus = .suspect := by
    intro n hn id
    obtain ⟨hsound, hcomplete⟩ := (suspects_invariant self).reach hn
    exact ⟨hsound.suspected id, hcomplete id⟩
  refine ⟨fun n hn => ?_, fun n hn id => ?_⟩
  · obtain ⟨hsound, _⟩ := (suspects_invariant self).reach hn
    exact ⟨hsound.suspects, hexact n hn, hsound.updates⟩
  · obtain ⟨_, hclear⟩ := (selfClear_invariant self).reach hn
    rw [hexact n hn.of_restrict id]
    exact ⟨fun hsus => ⟨fun heq => hclear.clear (heq ▸ hsus), hsus⟩, fun h => h.2⟩

/-- All allocations and messages succeed, the clock shows `now` and `dping` is the
next target. -/
def easyEnv (now dping : ℕ) : TaskEnv where
  calls _ := ⟨now, true, true⟩
  allocTarget _ := true
  target := ⟨dping, fun _ => 2, fun _ => true⟩
  call := ⟨now, true, true⟩
  updates := ⟨true, 0⟩
  clock := now

def easyParse : SwimContext.ParseEnv := ⟨fun _ => ⟨0, true, true⟩, 0, true⟩

/-- A round of the loop of `swim_progress` up to the state machine. -/
def easyRound (now limit dping : ℕ) : List SwimEvent :=
  [.run (.suspects now limit) (easyEnv now dping), .run (.confirm now limit 0 []) (easyEnv now dping),
    .run (.ipings now limit) (easyEnv now dping), .run (.target now limit) (easyEnv (now + 1) dping)]

/-- The member 1 is pinged and does not answer. -/
def unansweredPing : List SwimEvent :=
  .progress 1 9000 :: easyRound 1 9001 1 ++ easyRound 2 9001 1 ++
    .run (.progressSend 9001 false 1 1) (easyEnv 3000 1) :: easyRound 3000 9001 1

/-- A suspicion that others report, and one after a ping that is not answered. -/
theorem swim_suspects_of_report_and_ping : ∃ n,
    ((swimLts (Unsuspecting 0)).restrict ChoosesOthers).Reach n ∧ ids n.ctx.scSuspects = [2, 1] ∧
      ∃ state, n.ctx.members 1 = some state ∧ state.smsStatus = .suspect := by
  have hnone : ∀ id state, threeMembers id = some state → state.smsStatus ≠ .suspect := by
    intro id state hid
    rw [threeMembers] at hid
    split at hid
    · rw [← Option.some.inj hid]
      simp
    · cases hid
  obtain ⟨n, hreach, hids⟩ : ∃ n, ((swimLts (Unsuspecting 0)).restrict ChoosesOthers).Reach n ∧
      ids n.ctx.scSuspects = [2, 1] :=
    Lts.exists_reach_of_exec
      (.message 1 [⟨1, ⟨0, .alive⟩⟩, ⟨2, ⟨3, .suspect⟩⟩] easyParse :: unansweredPing)
      ⟨.swimInit 0 threeMembers, []⟩ ⟨⟨threeMembers, hnone, rfl⟩, rfl⟩ (by decide +kernel)
  refine ⟨n, hreach, hids, ?_⟩
  exact (((swim_suspects_exact 0).2 n hreach 1).mp (by simp [hids])).2

/-! ### Verdicts -/

namespace SwimContext

/-- Another member is known to be as far as `v`. -/
def Knows (v : ℕ ×ₗ Bool) (id : ℕ) (ctx : SwimContext) : Prop :=
  id ≠ ctx.scSelf ∧ ∃ state, ctx.members id = some state ∧ v ≤ state.verdict

variable {e : SwimEvent} {ctx ctx' : SwimContext} {v : ℕ ×ₗ Bool} {x : ℕ} (h : ctx.Knows v x)

include h

theorem Knows.applied (kind : UpdateKind) {id nr : ℕ} {state : SwimMemberState}
    (hid : ctx.members id = some state) (hnew : ¬ Ignores kind nr state)
    (happ : Applied id ⟨nr, kind.status⟩ ctx ctx') : ctx'.Knows v x := by
  obtain ⟨hne, old, hold, hle⟩ := h
  refine ⟨happ.frame.self ▸ hne, ?_⟩
  rw [happ.members]
  by_cases hx : x = id
  · subst hx
    obtain rfl := Option.some.inj (hold.symm.trans hid)
    have hmax := verdict_merge old ⟨kind, 0, nr, plentyEnv⟩
    rw [SwimMemberState.merge, if_neg hnew] at hmax
    exact ⟨_, update_self .., hle.trans (hmax ▸ le_max_left ..)⟩
  · exact ⟨old, by rwa [update_of_ne hx], hle⟩

theorem Knows.change (hch : Change e ctx ctx') : ctx'.Knows v x := by
  cases hch with
  | said kind _ _ _ _ _ hid hnew happ => exact h.applied kind hid hnew happ
  | suspected _ _ _ hid hnew happ => exact h.applied .suspect hid hnew happ
  | killed _ _ _ hid hnew happ => exact h.applied .dead hid hnew happ
  | refuted _ _ _ _ _ hmembers _ _ hframe =>
    -- only the member itself refutes
    rw [Knows, hframe.self, hmembers, update_of_ne h.1]
    exact h
  | dropped _ _ hmembers _ _ hframe => rwa [Knows, hframe.self, hmembers]
  | other hmembers _ _ hself => rwa [Knows, hself, hmembers]

end SwimContext

/-- **What is known of another member is not taken back**: over every run its incarnation does not
decrease, and in one incarnation the dead stay dead. -/
theorem swim_verdicts_grow (self : ℕ) : (swimLts (Unsuspecting self)).Always fun n =>
    ∀ es n', (swimLts (Unsuspecting self)).Run n es n' → ∀ id, id ≠ n.ctx.scSelf → ∀ state,
      n.ctx.members id = some state →
        ∃ state', n'.ctx.members id = some state' ∧ state.verdict ≤ state'.verdict := by
  intro n hreach es n' hrun id hne state hid
  have hinv := suspects_invariant self
  refine (hinv.run_keeps (Q := fun m => m.ctx.Knows state.verdict id) ?_ hrun (hinv.reach hreach)
    ⟨hne, state, hid, le_rfl⟩).2
  intro m e m' hsound h _ hstep
  cases hstep
  exact (step_changes m e hsound.1.suspects).preserves h fun _ _ h hch => h.change hch

end Cart
