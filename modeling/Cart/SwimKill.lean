/-
Who is declared dead.

`swim_progress` declares the target dead when nobody has answered the indirect pings.  By then
the target is suspected or dead (`Pinged`) as long as no message clears the suspicion behind
the back of the state machine, and there was memory for it (`Attentive`).

Main results: `swim_progress_kills_suspects`, `swim_progress_kills_alive`.
-/
import Cart.SwimSuspects

open Function List Option

namespace Cart

open SwimNode SwimContext

namespace SwimContext

variable {e : SwimEvent} {ctx ctx' : SwimContext} {id frm : ℕ} {upds : List SwimMemberUpdate}
  {state new : SwimMemberState} {upd : SwimMemberUpdate} {call : CallEnv}

/-- The member is suspected or dead. -/
def Down (ctx : SwimContext) (id : ℕ) : Prop :=
  ∀ state, ctx.members id = some state → state.smsStatus = .suspect ∨ state.smsStatus = .dead

instance (ctx : SwimContext) (id : ℕ) : Decidable (ctx.Down id) :=
  inferInstanceAs (Decidable (∀ state ∈ ctx.members id, _))

/-- The target is suspected or dead when indirect pings are sent or waited for. -/
def Pinged (ctx : SwimContext) : Prop :=
  ctx.scState = .scsTimedout ∨ ctx.scState = .scsIpinged → ctx.scTarget ≠ swimIdInvalid →
    ctx.Down ctx.scTarget

theorem Pinged.of_state (h : ctx.scState ≠ .scsTimedout ∧ ctx.scState ≠ .scsIpinged) : Pinged ctx :=
  fun hor _ => absurd hor (not_or.mpr h)

theorem Pinged.of_eq (h : Pinged ctx) (hmembers : ctx'.members = ctx.members)
    (hstate : ctx.scState = .scsTimedout ∨ ctx.scState = .scsIpinged)
    (htarget : ctx'.scTarget = ctx.scTarget) : Pinged ctx' := by
  intro _ hvalid state hid
  rw [htarget] at hvalid hid
  exact h hstate hvalid state (hmembers ▸ hid)

theorem Pinged.of_frame (h : Pinged ctx) (hmembers : ctx'.members = ctx.members)
    (hframe : Frame ctx ctx') : Pinged ctx' := by
  intro hor hvalid
  rw [hframe.state] at hor
  exact h.of_eq hmembers hor hframe.target (hframe.state ▸ hor) hvalid

theorem Down.update (h : ctx.Down id) {x : ℕ}
    (hmembers : ctx'.members = update ctx.members x (some new))
    (hnew : x = id → new.smsStatus = .suspect ∨ new.smsStatus = .dead) : ctx'.Down id := by
  intro state hid
  rw [hmembers] at hid
  by_cases hx : x = id
  · rw [hx, update_self] at hid
    exact some.inj hid ▸ hnew hx
  · rw [update_of_ne (Ne.symm hx)] at hid
    exact h state hid

/-- The list of suspects names every member once, and who is in it is suspected
or dead. -/
structure Listed (ctx : SwimContext) : Prop where
  nodup : (ids ctx.scSuspects).Nodup
  down : ∀ id ∈ ids ctx.scSuspects, ctx.Down id

theorem Listed.applied (h : Listed ctx) (happ : Applied id new ctx ctx') : Listed ctx' := by
  refine ⟨happ.nodup h.nodup, fun x hx => ?_⟩
  rcases happ.mem h.nodup hx with ⟨rfl, hstatus⟩ | ⟨hxid, hx⟩
  · intro state hid
    rw [happ.members, update_self] at hid
    exact .inl (some.inj hid ▸ hstatus)
  · exact (h.down x hx).update happ.members fun heq => absurd heq.symm hxid

theorem Listed.of_sublist (h : Listed ctx) (hmembers : ctx'.members = ctx.members)
    (hsuspects : (ids ctx'.scSuspects).Sublist (ids ctx.scSuspects)) : Listed ctx' :=
  ⟨hsuspects.nodup h.nodup, fun x hx state hid => h.down x (hsuspects.subset hx) state (hmembers ▸ hid)⟩

theorem Listed.change (h : Listed ctx) (hch : Change e ctx ctx') : Listed ctx' := by
  cases hch with
  | said kind id nr state _ _ _ _ happ | suspected state _ _ _ _ happ
  | killed id state _ _ _ happ => exact h.applied happ
  | refuted nr state _ hid _ hmembers hsuspects _ _ =>
    refine ⟨hsuspects ▸ h.nodup, fun x hx => ?_⟩
    have hdown := h.down x (hsuspects ▸ hx)
    exact hdown.update hmembers fun heq => hdown state (heq ▸ hid)
  | dropped id hid hmembers hsuspects _ _ =>
    refine h.of_sublist hmembers ?_
    rw [hsuspects, ids_removeItem]
    exact erase_sublist
  | other hmembers hsuspects _ _ _ => exact h.of_sublist hmembers (hsuspects ▸ Sublist.refl _)

theorem listed_swimInit (self : ℕ) (members : ℕ → Option SwimMemberState) :
    Listed (swimInit self members) :=
  ⟨nodup_nil, fun _ hid => absurd hid not_mem_nil⟩

/-! ### Messages -/

/-- The message says that the target is alive, and this is news. -/
def Clears (ctx : SwimContext) (upds : List SwimMemberUpdate) : Prop :=
  ctx.scTarget ≠ ctx.scSelf ∧ ∃ upd ∈ upds, upd.smuId = ctx.scTarget ∧
    upd.smuState.smsStatus = .alive ∧
      ∃ state ∈ ctx.members ctx.scTarget, ¬ Ignores .alive upd.smuState.smsIncarnation state
deriving Decidable

/-- A message that leaves the target alive finds a state machine that can learn of it: it is
not in `SCS_TIMEDOUT`, and in `SCS_IPINGED` no error leaves `swim_parse_message`. -/
def Noticed (ctx : SwimContext) (env : ParseEnv) (frm : ℕ) (upds : List SwimMemberUpdate) : Prop :=
  ¬ (ctx.swimParseMessage env frm upds).2.Down ctx.scTarget → ctx.scState ≠ .scsTimedout ∧
    (ctx.scState = .scsIpinged → (parseLoop frm env.calls upds ctx ctx.scState).isOk)
deriving Decidable

/-- An update that is ignored stays so: a state that is suspected or dead is
replaced by one that is newer. -/
theorem ignores_of_newer {kind : UpdateKind} {nr nr' : ℕ}
    (h : Ignores .alive nr state) (hdown : state.smsStatus = .suspect ∨ state.smsStatus = .dead)
    (hnew : ¬ Ignores kind nr' state) : Ignores .alive nr ⟨nr', kind.status⟩ := by
  obtain ⟨hle, hor⟩ := h
  have hlt : nr < nr' := by
    by_contra hge
    refine hnew ⟨by omega, ?_⟩
    rcases hor with hdead | halive | hlt
    · exact .inl hdead
    · rcases hdown with hd | hd <;> exact absurd (halive.symm.trans hd) (by simp [UpdateKind.status])
    · exact .inr (.inr (by omega))
  exact ⟨hlt.le, .inr (.inr hlt)⟩

/-- What the updates of a message that does not clear the suspicion preserve. -/
structure Uncleared (own id : ℕ) (upds : List SwimMemberUpdate) (ctx : SwimContext) : Prop where
  same : ctx.scSelf = own
  down : ctx.Down id
  old : id ≠ own → ∀ nr, ⟨id, ⟨nr, .alive⟩⟩ ∈ upds →
    ∀ state, ctx.members id = some state → Ignores .alive nr state

theorem Uncleared.change {own : ℕ} {env : ParseEnv} (h : Uncleared own id upds ctx)
    (hch : Change (.message frm upds env) ctx ctx') : Uncleared own id upds ctx' := by
  cases hch with
  | said kind x nr state hreports hself hid hnew happ =>
    have hsame := happ.frame.self.trans h.same
    by_cases hx : x = id
    · subst hx
      have hno : kind ≠ .alive := by
        rintro rfl
        exact hnew (h.old (h.same ▸ hself) nr hreports state hid)
      have hstatus : kind.status = .suspect ∨ kind.status = .dead := by
        cases kind with
        | alive => exact absurd rfl hno
        | suspect => exact .inl rfl
        | dead => exact .inr rfl
      refine ⟨hsame, h.down.update happ.members fun _ => hstatus, fun hown m hm state' hid' => ?_⟩
      rw [happ.members, update_self] at hid'
      obtain rfl := some.inj hid'
      exact ignores_of_newer (h.old hown m hm state hid) (h.down state hid) hnew
    · refine ⟨hsame, h.down.update happ.members fun heq => absurd heq hx, fun hown m hm state' hid' => ?_⟩
      rw [happ.members, update_of_ne (Ne.symm hx)] at hid'
      exact h.old hown m hm state' hid'
  | suspected _ hpings => exact absurd hpings not_false
  | killed _ _ hwhy => rcases hwhy with ⟨hno, _⟩ | ⟨hno, _⟩ <;> exact absurd hno not_false
  | refuted nr state _ hid _ hmembers _ _ hframe =>
    refine ⟨hframe.self.trans h.same, h.down.update hmembers fun hx => ?_, fun hown m hm state' hid' => ?_⟩
    · exact h.down state (hx ▸ hid)
    · rw [hmembers, update_of_ne (h.same ▸ hown)] at hid'
      exact h.old hown m hm state' hid'
  | dropped _ _ hmembers _ _ hframe =>
    refine ⟨hframe.self.trans h.same, fun state hid => h.down state (hmembers ▸ hid), ?_⟩
    exact fun hown m hm state' hid' => h.old hown m hm state' (hmembers ▸ hid')
  | other hmembers _ _ hself _ =>
    refine ⟨hself.trans h.same, fun state hid => h.down state (hmembers ▸ hid), ?_⟩
    exact fun hown m hm state' hid' => h.old hown m hm state' (hmembers ▸ hid')

/-- `ctx_state` after one update. -/
theorem parseUpdate_state {env : CallEnv}
    {state state' : SwimContextState} (h : parseUpdate env frm upd ctx state = .ok (state', ctx')) :
    state' = .scsAcked ∨ state' = state ∧ (state = .scsIpinged → upd.smuId = ctx.scTarget →
      upd.smuState.smsStatus = .alive → ctx.scTarget = ctx.scSelf) := by
  rw [parseUpdate] at h
  cases hst : upd.smuState.smsStatus with
  | inactive =>
    rw [hst] at h
    obtain ⟨rfl, _⟩ := Prod.mk.inj (Except.ok.inj h)
    exact .inr ⟨rfl, by simp⟩
  | alive =>
    rw [hst] at h
    dsimp only at h
    split at h
    · rename_i hself
      obtain ⟨rfl, _⟩ := Prod.mk.inj (Except.ok.inj h)
      exact .inr ⟨rfl, fun _ htarget _ => htarget.symm.trans hself⟩
    · obtain ⟨rfl, _⟩ := Prod.mk.inj (Except.ok.inj h)
      split_ifs with hno
      · exact .inl rfl
      · exact .inr ⟨rfl, fun hip htarget _ => absurd ⟨hip, htarget⟩ hno⟩
  | suspect =>
    rw [hst] at h
    dsimp only at h
    refine .inr ⟨?_, by simp⟩
    split at h
    · split at h
      · cases h
      · split at h
        · exact (Prod.mk.inj (Except.ok.inj h)).1.symm
        · split at h
          · cases h
          · exact (Prod.mk.inj (Except.ok.inj h)).1.symm
    · exact (Prod.mk.inj (Except.ok.inj h)).1.symm
  | dead =>
    rw [hst] at h
    dsimp only at h
    refine .inr ⟨?_, by simp⟩
    split at h
    · cases h
    · exact (Prod.mk.inj (Except.ok.inj h)).1.symm

/-- One update ends well if it says nothing bad about `self`. -/
theorem parseUpdate_ok (env : CallEnv) (frm : ℕ) (state : SwimContextState)
    (h : upd.smuId = ctx.scSelf → upd.smuState.smsStatus ≠ .dead ∧
      (upd.smuState.smsStatus = .suspect → ctx.members ctx.scSelf ≠ none)) :
    ∃ res, parseUpdate env frm upd ctx state = .ok res := by
  rw [parseUpdate]
  cases hst : upd.smuState.smsStatus with
  | inactive => exact ⟨_, rfl⟩
  | alive =>
    dsimp only
    split <;> exact ⟨_, rfl⟩
  | dead =>
    dsimp only
    split_ifs with hself
    · exact absurd hst (h hself).1
    · exact ⟨_, rfl⟩
  | suspect =>
    dsimp only
    split_ifs with hself
    · cases hid : ctx.members ctx.scSelf with
      | none => exact absurd hid ((h hself).2 hst)
      | some own =>
        dsimp only
        split
        · exact ⟨_, rfl⟩
        · rw [if_neg (not_not.mpr (swimUpdatesNotify_spec hid env _ _).1)]
          exact ⟨_, rfl⟩
    · exact ⟨_, rfl⟩

theorem parseLoop_ok (frm : ℕ) (calls : ℕ → CallEnv) (state : SwimContextState)
    (h : ∀ upd ∈ upds, upd.smuId = ctx.scSelf → upd.smuState.smsStatus ≠ .dead ∧
      (upd.smuState.smsStatus = .suspect → ctx.members ctx.scSelf ≠ none)) :
    ∃ res, parseLoop frm calls upds ctx state = .ok res := by
  induction upds generalizing calls ctx state with
  | nil => exact ⟨_, rfl⟩
  | cons upd upds ih =>
    obtain ⟨⟨state₁, ctx₁⟩, hone⟩ := parseUpdate_ok (calls 0) frm state
      (h upd mem_cons_self)
    have hch := parseUpdate_changes (e := .message frm (upd :: upds) ⟨calls, 0, true⟩) (calls 0) frm upd
      ctx state fun kind hkind => by
        rw [SwimEvent.Reports, ← hkind]
        exact mem_cons_self
    rw [hone] at hch
    obtain ⟨hch, hframe⟩ := hch
    rw [parseLoop, hone]
    refine ih _ _ fun x hx hself => ?_
    rw [hframe.self] at hself ⊢
    obtain ⟨hdead, hmember⟩ := h x (mem_cons_of_mem _ hx) hself
    exact ⟨hdead, fun hsus hnone => hmember hsus (hch.members_none hnone)⟩

theorem parseLoop_state {calls : ℕ → CallEnv}
    {state state' : SwimContextState} (h : parseLoop frm calls upds ctx state = .ok (state', ctx')) :
    state' = .scsAcked ∨ state' = state ∧ (state = .scsIpinged → ∀ upd ∈ upds,
      upd.smuId = ctx.scTarget → upd.smuState.smsStatus = .alive → ctx.scTarget = ctx.scSelf) := by
  induction upds generalizing calls ctx state with
  | nil =>
    obtain ⟨rfl, _⟩ := Prod.mk.inj (Except.ok.inj h)
    exact .inr ⟨rfl, fun _ upd hupd => absurd hupd not_mem_nil⟩
  | cons upd upds ih =>
    rw [parseLoop] at h
    have hch := parseUpdate_changes (e := .message frm (upd :: upds) ⟨calls, 0, true⟩) (calls 0) frm upd
      ctx state fun kind hkind => by
        rw [SwimEvent.Reports, ← hkind]
        exact mem_cons_self
    cases hone : parseUpdate (calls 0) frm upd ctx state with
    | error _ =>
      rw [hone] at h
      cases h
    | ok res =>
      rw [hone] at h hch
      rcases ih h with hack | ⟨rfl, hrest⟩
      · exact .inl hack
      rcases parseUpdate_state hone with hack | ⟨rfl, hhead⟩
      · exact .inl hack
      refine .inr ⟨rfl, fun hip x hx => ?_⟩
      rcases mem_cons.mp hx with rfl | hx
      · exact hhead hip
      · rw [← hch.2.target, ← hch.2.self]
        exact hrest hip x hx

/-- A message leaves the state machine alone, or the target has answered. -/
theorem swimParseMessage_state (env : ParseEnv) (ctx : SwimContext) (frm : ℕ)
    (upds : List SwimMemberUpdate) : (ctx.swimParseMessage env frm upds).2.scTarget = ctx.scTarget ∧
      ((ctx.swimParseMessage env frm upds).2.scState = .scsAcked ∨
        (ctx.swimParseMessage env frm upds).2.scState = ctx.scState) := by
  cases upds with
  | nil => exact ⟨rfl, .inr rfl⟩
  | cons first upds =>
    by_cases hself : ctx.scSelf = swimIdInvalid
    · rw [swimParseMessage, if_pos hself]
      exact ⟨rfl, .inr rfl⟩
    obtain ⟨state, hstate, hparse⟩ := swimParseMessage_cons hself env frm first upds
    rw [hparse]
    have hloop := parseLoop_changes (e := .message frm (first :: upds) env) frm env.calls (first :: upds)
      ctx state fun _ _ _ h => h
    cases hpar : parseLoop frm env.calls (first :: upds) ctx state with
    | error res =>
      rw [hpar] at hloop
      exact ⟨hloop.2.target, .inr hloop.2.state⟩
    | ok res =>
      rw [hpar] at hloop
      refine ⟨(answer_same env frm first res.2).2.target.trans hloop.2.target, ?_⟩
      rcases parseLoop_state hpar with hack | ⟨heq, _⟩
      · exact .inl hack
      · rcases hstate with rfl | rfl
        · exact .inl heq
        · exact .inr heq

/-- **A message** does not clear the suspicion of the target unless the state
machine gets to know. -/
theorem Pinged.message (h : Pinged ctx) (env : ParseEnv) (frm : ℕ)
    (hatt : ctx.Clears upds → ctx.Noticed env frm upds) :
    Pinged (ctx.swimParseMessage env frm upds).2 := by
  obtain ⟨htarget, hst⟩ := swimParseMessage_state env ctx frm upds
  intro hor hvalid
  have hsame := hst.resolve_left fun hack => by simp [hack] at hor
  rw [htarget] at hvalid ⊢
  rw [hsame] at hor
  by_contra hup
  -- if the message is not about the target being alive, or this is old, nothing changes
  have hclears : ctx.Clears upds := by
    by_contra hno
    have hold : Uncleared ctx.scSelf ctx.scTarget upds ctx := by
      refine ⟨rfl, h hor hvalid, fun hown nr hnr state hid => ?_⟩
      by_contra hnew
      exact hno ⟨hown, _, hnr, rfl, rfl, state, hid, hnew⟩
    have hch : Changes (.message frm upds env) ctx (ctx.swimParseMessage env frm upds).2 :=
      swimParseMessage_changes env frm upds fun _ _ _ h => h
    exact hup (hch.preserves hold fun _ _ hc hone => hc.change hone).down
  obtain ⟨hno, hread⟩ := hatt hclears hup
  have hip := hor.resolve_left hno
  obtain ⟨hown, upd, hupd, habout, halive, _⟩ := hclears
  -- in `SCS_IPINGED` the state machine would have noticed
  cases upds with
  | nil => exact not_mem_nil hupd
  | cons first upds =>
    rw [swimParseMessage] at hup hsame
    split at hup
    · exact hup (h hor hvalid)
    rename_i hself
    rw [if_neg hself] at hsame
    dsimp only at hsame
    rw [if_neg (by simp [hip])] at hsame
    cases hpar : parseLoop frm env.calls (first :: upds) ctx ctx.scState with
    | error res =>
      have hok := hread hip
      rw [hpar] at hok
      cases hok
    | ok res =>
      rw [hpar] at hsame
      have hstate : res.1 = ctx.scState := hsame
      rcases parseLoop_state hpar with hack | ⟨_, hnone⟩
      · simp [hack, hip] at hstate
      · exact hown (hnone hip upd hupd habout halive)

/-! ### Sections of `swim_progress` -/

theorem suspectedRound_frame (calls : ℕ → CallEnv) (allocTarget : ℕ → Bool) (now : ℕ)
    (s : ℤ × List (ℕ × ℕ) × SwimContext) (item : SwimItem) :
    Frame s.2.2 (suspectedRound calls allocTarget now s item).2.2 := by
  obtain ⟨rc, targets, ctx⟩ := s
  rw [suspectedRound]
  split
  · split
    · split <;> exact ⟨rfl, rfl, rfl⟩
    · split
      · rename_i state _
        rcases swimMember_or .dead (calls item.siId) ctx item.siFrom item.siId state.smsIncarnation
          with heq | ⟨_, _, _, happ⟩
        · rw [swimMember] at heq
          rw [heq]
          exact .refl ctx
        · exact happ.frame
      · exact ⟨rfl, rfl, rfl⟩
  · exact .refl ctx

theorem swimMemberUpdateSuspected_frame (calls : ℕ → CallEnv) (allocTarget : ℕ → Bool) (ctx : SwimContext)
    (now : ℕ) : Frame ctx (ctx.swimMemberUpdateSuspected calls allocTarget now).2.2 := by
  suffices hloop : ∀ (l : List SwimItem) (s : ℤ × List (ℕ × ℕ) × SwimContext),
      Frame s.2.2 (l.foldl (suspectedRound calls allocTarget now) s).2.2 from
    hloop ctx.scSuspects (0, [], ctx)
  intro l
  induction l with
  | nil => exact fun s => .refl _
  | cons item l ih =>
    exact fun s => (suspectedRound_frame calls allocTarget now s item).trans (ih _)

/-- A member that has another state than before was suspected, and is dead now. -/
def KillsSuspects (ctx ctx' : SwimContext) : Prop :=
  ∀ id, ctx'.members id = ctx.members id ∨
    ctx.Suspected id ∧ ∃ state, ctx'.members id = some state ∧ state.smsStatus = .dead

theorem swimMemberUpdateSuspected_kills (h : Listed ctx) (calls : ℕ → CallEnv) (allocTarget : ℕ → Bool)
    (now : ℕ) : KillsSuspects ctx (ctx.swimMemberUpdateSuspected calls allocTarget now).2.2 := by
  have hch := swimMemberUpdateSuspected_changes (e := .run (.suspects now 0) ⟨calls, allocTarget,
    ⟨0, fun _ => 0, fun _ => true⟩, ⟨0, true, true⟩, ⟨true, 0⟩, 0⟩) calls allocTarget now trivial h.nodup
  refine (Changes.preserves (P := fun c => Listed c ∧ KillsSuspects ctx c) hch
    ⟨h, fun _ => .inl rfl⟩ ?_).2
  rintro c c' ⟨hlisted, hkills⟩ hone
  refine ⟨hlisted.change hone, fun x => ?_⟩
  cases hone with
  | said _ _ _ _ hreports | refuted _ _ hreports => exact absurd hreports not_false
  | suspected _ hpings => exact absurd hpings not_false
  | killed id state hwhy hid hnew happ =>
    rw [happ.members]
    by_cases hx : x = id
    · subst hx
      obtain ⟨hno, _⟩ | ⟨_, hmem⟩ := hwhy
      · exact absurd hno not_false
      rw [update_self]
      refine .inr ⟨?_, _, rfl, rfl⟩
      -- an update about a dead member with the stored incarnation is ignored
      have hsus := (hlisted.down x hmem state hid).resolve_right fun hdead =>
        hnew ⟨le_rfl, .inl hdead⟩
      rcases hkills x with heq | ⟨hsus', _⟩
      · exact ⟨state, heq ▸ hid, hsus⟩
      · exact hsus'
    · rw [update_of_ne hx]
      exact hkills x
  | dropped _ _ hmembers | other hmembers => exact hmembers ▸ hkills x

theorem Pinged.suspects (h : Pinged ctx) (hlisted : Listed ctx) (calls : ℕ → CallEnv)
    (allocTarget : ℕ → Bool) (now : ℕ) :
    Pinged (ctx.swimMemberUpdateSuspected calls allocTarget now).2.2 := by
  have hframe := swimMemberUpdateSuspected_frame calls allocTarget ctx now
  intro hor hvalid state hid
  rw [hframe.state] at hor
  rw [hframe.target] at hvalid hid
  rcases swimMemberUpdateSuspected_kills hlisted calls allocTarget now ctx.scTarget with
    heq | ⟨_, state', hid', hdead⟩
  · exact h hor hvalid state (heq ▸ hid)
  · obtain rfl := some.inj (hid'.symm.trans hid)
    exact .inr hdead

theorem nextTarget_members (env : TargetEnv) (ctx : SwimContext) :
    (ctx.nextTarget env).2.members = ctx.members := by
  rw [nextTarget]
  split <;> rfl

theorem nextTarget_pinged (env : TargetEnv) (ctx : SwimContext) : Pinged (ctx.nextTarget env).2 := by
  rw [nextTarget]
  split_ifs with hno
  · exact fun _ hvalid => absurd hno hvalid
  · exact .of_state (by simp [stateSet])

theorem subgroupLoop_same (env : TargetEnv) (n : ℕ) : ∀ (i : ℕ) (ctx : SwimContext),
    (subgroupLoop env i n ctx).2.members = ctx.members ∧ Frame ctx (subgroupLoop env i n ctx).2 := by
  induction n with
  | zero => exact fun i ctx => ⟨rfl, .refl ctx⟩
  | succ n ih =>
    intro i ctx
    rw [subgroupLoop]
    split
    · exact ⟨rfl, .refl ctx⟩
    split
    · exact ⟨rfl, .refl ctx⟩
    · obtain ⟨hmembers, hframe⟩ := ih (i + 1) { ctx with scSubgroup := ctx.scSubgroup ++ [env.iping i] }
      exact ⟨hmembers, hframe.self, hframe.state, hframe.target⟩

theorem pingSubgroup_pinged (h : Pinged ctx) (hstate : ctx.scState = .scsTimedout) (env : TargetEnv)
    (now : ℕ) : Pinged (ctx.pingSubgroup env now).2 := by
  rw [pingSubgroup]
  split
  · exact nextTarget_pinged env ctx
  · exact h.of_eq rfl (.inl hstate) rfl
  · exact h.of_eq rfl (.inl hstate) rfl

theorem pingSubgroup_members (env : TargetEnv) (ctx : SwimContext) (now : ℕ) :
    (ctx.pingSubgroup env now).2.members = ctx.members := by
  rw [pingSubgroup]
  split
  · exact nextTarget_members env ctx
  · rfl
  · rfl

/-- A direct ping that was not answered makes the target suspected, if there is
memory for it. -/
theorem dpingedState_pinged (hid : ctx.members ctx.scTarget = some state) (now : ℕ)
    (halloc : ctx.scDpingDeadline < now → state.smsStatus = .alive → call.allocSuspect = true) :
    Pinged (ctx.dpingedState call now state).2 := by
  rw [dpingedState]
  split
  swap
  · exact .of_state (by simp [stateSet])
  rename_i hlate
  split
  swap
  · exact .of_state (by simp [stateSet])
  rename_i hactive
  intro _ _ new hnew
  have hcases := swimMember_cases .suspect call ctx ctx.scSelf ctx.scTarget state.smsIncarnation
  rw [swimMember] at hcases
  dsimp only [stateSet] at hnew
  rcases hcases with ⟨hnone, _⟩ | ⟨state', hid', ⟨hig, heq⟩ | ⟨_, _, hno, heq⟩ | ⟨_, happ⟩⟩
  · cases hid.symm.trans hnone
  · rw [heq, hid] at hnew
    cases hnew
    cases hid.symm.trans hid'
    rcases hig.2 with hdead | hsus | hlt
    · exact .inr hdead
    · exact .inl hsus
    · exact absurd hlt (lt_irrefl _)
  · rw [heq, hid] at hnew
    cases hnew
    cases hst : state.smsStatus with
    | inactive => exact absurd hst hactive
    | alive => cases hno.symm.trans (halloc hlate hst)
    | suspect => exact .inl rfl
    | dead => exact .inr rfl
  · rw [happ.frame.target, happ.members, update_self] at hnew
    cases hnew
    exact .inl rfl

/-- **The state machine** sends indirect pings for a target that is suspected. -/
theorem Pinged.progressTarget (h : Pinged ctx) (env : TargetEnv) (now : ℕ)
    (halloc : ctx.scState = .scsDpinged → ctx.scDpingDeadline < now →
      (∃ state ∈ ctx.members ctx.scTarget, state.smsStatus = .alive) → call.allocSuspect = true) :
    Pinged (ctx.swimProgressTarget env call now).2 := by
  rw [swimProgressTarget]
  split
  · exact nextTarget_pinged env ctx
  split
  · exact nextTarget_pinged env _
  rename_i state hid
  split
  · rw [beginState]
    split <;> exact .of_state (by simp [stateSet])
  · rename_i hstate
    exact dpingedState_pinged hid now fun hlate halive => halloc hstate hlate ⟨state, hid, halive⟩
  · rename_i hstate
    rw [ipingedState]
    split
    · exact .of_state (by simp [stateSet])
    · exact h.of_eq rfl (.inr hstate) rfl
  · rename_i hstate
    obtain ⟨hmembers, hframe⟩ := subgroupLoop_same env swimSubgroupSize 0 ctx
    have hinit := h.of_frame hmembers hframe
    rw [timedoutState]
    split
    · dsimp only
      split
      · exact hinit
      · exact pingSubgroup_pinged hinit (hframe.state.trans hstate) env now
    · exact pingSubgroup_pinged h hstate env now
  · exact nextTarget_pinged env ctx
  · exact nextTarget_pinged env ctx

/-- The engine writes the state of a member, or no state at all. -/
theorem swimMember_members (kind : UpdateKind) (env : CallEnv) (ctx : SwimContext) (frm id nr : ℕ) :
    (ctx.swimMember kind env frm id nr).2.members = ctx.members ∨
      (ctx.swimMember kind env frm id nr).2.members =
        update ctx.members id (some ⟨nr, kind.status⟩) := by
  rcases swimMember_or kind env ctx frm id nr with heq | ⟨_, _, _, happ⟩
  · exact .inl (congrArg members heq)
  · exact .inr happ.members

theorem timedoutState_members (env : TargetEnv) (ctx : SwimContext) (now : ℕ) :
    (ctx.timedoutState env now).2.members = ctx.members := by
  obtain ⟨hmembers, _⟩ := subgroupLoop_same env swimSubgroupSize 0 ctx
  rw [timedoutState]
  split
  · dsimp only
    split
    · exact hmembers
    · exact (pingSubgroup_members env _ now).trans hmembers
  · exact pingSubgroup_members env ctx now

/-- The state machine writes at most the state of the target. -/
theorem swimProgressTarget_members (env : TargetEnv) (call : CallEnv) (ctx : SwimContext) (now : ℕ) :
    (ctx.swimProgressTarget env call now).2.members = ctx.members ∨
      ctx.scTarget ≠ swimIdInvalid ∧ ∃ new : SwimMemberState,
        (ctx.swimProgressTarget env call now).2.members =
          update ctx.members ctx.scTarget (some new) ∧
        (new.smsStatus = .suspect ∨ new.smsStatus = .dead ∧ ctx.scState = .scsIpinged) := by
  rw [swimProgressTarget]
  split
  · exact .inl (nextTarget_members env ctx)
  rename_i hvalid
  split
  · exact .inl (nextTarget_members env _)
  rename_i state hid
  split
  · left
    rw [beginState]
    split <;> rfl
  · rw [dpingedState]
    split
    · split
      · rcases swimMember_members .suspect call ctx ctx.scSelf ctx.scTarget state.smsIncarnation with h | h
        · exact .inl h
        · exact .inr ⟨hvalid, _, h, .inl rfl⟩
      · exact .inl rfl
    · exact .inl rfl
  · rename_i hstate
    rw [ipingedState]
    split
    · rcases swimMember_members .dead call ctx ctx.scSelf ctx.scTarget state.smsIncarnation with h | h
      · exact .inl h
      · exact .inr ⟨hvalid, _, h, .inr ⟨rfl, hstate⟩⟩
    · exact .inl rfl
  · exact .inl (timedoutState_members env ctx now)
  · exact .inl (nextTarget_members env ctx)
  · exact .inl (nextTarget_members env ctx)

/-- A member that is dead after a section of `swim_progress`, and was not before,
was suspected. -/
def KilledOnlySuspects (ctx ctx' : SwimContext) : Prop :=
  ∀ id state state', ctx.members id = some state → ctx'.members id = some state' →
    state'.smsStatus = .dead → state.smsStatus ≠ .dead → state.smsStatus = .suspect

theorem KilledOnlySuspects.of_eq (h : ctx'.members = ctx.members) : KilledOnlySuspects ctx ctx' := by
  intro id state state' hid hid' hdead hne
  rw [h, hid] at hid'
  exact absurd (some.inj hid' ▸ hdead) hne

/-- **The state machine** declares the target dead if it was suspected. -/
theorem Pinged.kills (h : Pinged ctx) (env : TargetEnv) (call : CallEnv) (now : ℕ) :
    KilledOnlySuspects ctx (ctx.swimProgressTarget env call now).2 := by
  rcases swimProgressTarget_members env call ctx now with heq | ⟨hvalid, new, heq, hnew⟩
  · exact .of_eq heq
  intro id state state' hid hid' hdead hne
  rw [heq] at hid'
  by_cases hx : id = ctx.scTarget
  · rw [hx, update_self] at hid'
    obtain rfl := some.inj hid'
    rcases hnew with hsus | ⟨_, hstate⟩
    · rw [hsus] at hdead
      cases hdead
    · exact (h (.inr hstate) hvalid state (hx ▸ hid)).resolve_right hne
  · rw [update_of_ne hx, hid] at hid'
    exact absurd (some.inj hid' ▸ hdead) hne

theorem KillsSuspects.only (h : KillsSuspects ctx ctx') : KilledOnlySuspects ctx ctx' := by
  intro id state state' hid hid' hdead hne
  rcases h id with heq | ⟨⟨state'', hst, hsus⟩, _⟩
  · rw [heq, hid] at hid'
    exact absurd (some.inj hid' ▸ hdead) hne
  · exact some.inj (hid.symm.trans hst) ▸ hsus

theorem swimUpdatesSend_same (env : UpdatesEnv) (ctx : SwimContext) (id sendTo : ℕ) :
    (ctx.swimUpdatesSend env id sendTo).2.2.members = ctx.members ∧
      Frame ctx (ctx.swimUpdatesSend env id sendTo).2.2 := by
  obtain ⟨alloc, rc⟩ := env
  rcases swimUpdatesSend_cases alloc ctx id sendTo with ⟨_, -, heq⟩ | ⟨_, _, r, -, -, -, heq⟩
  · rw [heq rc]
    exact ⟨rfl, .refl ctx⟩
  · rw [heq rc]
    exact ⟨rfl, rfl, rfl, rfl⟩

end SwimContext

/-! ### Runs -/

/-- The context as `swim_init` leaves it, with any members. -/
def Started (self : ℕ) (ctx : SwimContext) : Prop := ∃ members, ctx = .swimInit self members

/-- The state machine learns of what clears the suspicion of its target, and a target that is
alive becomes suspected once a direct ping was not answered. -/
def Attentive (n : SwimNode) : SwimEvent → Prop
  | .message frm upds env => n.ctx.Clears upds → n.ctx.Noticed env frm upds
  | .run (.target now _) env => n.ctx.scState = .scsDpinged → n.ctx.scDpingDeadline < now →
    (∃ state ∈ n.ctx.members n.ctx.scTarget, state.smsStatus = .alive) → env.call.allocSuspect = true
  | _ => True

instance (n : SwimNode) (e : SwimEvent) : Decidable (Attentive n e) := by
  unfold Attentive
  split <;> infer_instance

/-- Apart from two sections, none touches the members' states or the state
machine. -/
theorem runTask_cases (env : TaskEnv) (ctx : SwimContext) (task : SwimTask) :
    (∃ now limit, task = .suspects now limit) ∨ (∃ now limit, task = .target now limit) ∨
      (runTask env ctx task).2.2.members = ctx.members ∧
        Frame ctx (runTask env ctx task).2.2 := by
  cases task with
  | suspects now limit => exact .inl ⟨now, limit, rfl⟩
  | confirm now limit rc targets =>
    cases targets with
    | nil => exact .inr (.inr ⟨rfl, .refl ctx⟩)
    | cons target targets => exact .inr (.inr (swimUpdatesSend_same _ ctx _ _))
  | ipings now limit => exact .inr (.inr ⟨rfl, rfl, rfl, rfl⟩)
  | target now limit => exact .inr (.inl ⟨now, limit, rfl⟩)
  | progressSend limit timedout id dst =>
    exact .inr (.inr (swimUpdatesSend_same _ ctx _ _))
  | answer id dst origin => exact .inr (.inr (swimUpdatesSend_same _ ctx _ _))
  | forward origin =>
    rw [runTask, takeIping]
    dsimp only
    refine .inr (.inr ?_)
    split
    · exact ⟨rfl, .refl ctx⟩
    · exact ⟨rfl, rfl, rfl, rfl⟩

theorem runTask_target (env : TaskEnv) (ctx : SwimContext) (now limit : ℕ) :
    (runTask env ctx (.target now limit)).2.2 =
      (ctx.swimProgressTarget env.target env.call now).2 := by
  rw [runTask]
  split <;> simp [*]

theorem pinged_invariant (self : ℕ) :
    ((swimLts (Started self)).restrict Attentive).Invariant fun n => n.ctx.Listed ∧ n.ctx.Pinged := by
  refine ⟨?_, ?_⟩
  · rintro n ⟨⟨members, hctx⟩, _⟩
    rw [hctx]
    exact ⟨listed_swimInit self members, .of_state (by simp [swimInit])⟩
  · rintro n e n' ⟨hlisted, hpinged⟩ ⟨_, hatt⟩ hstep
    cases hstep
    refine ⟨(step_changes n e hlisted.nodup).preserves hlisted fun _ _ h hch => h.change hch, ?_⟩
    cases e with
    | progress now timeout =>
      rw [step]
      split <;> exact hpinged
    | message frm upds env => exact hpinged.message env frm hatt
    | run task env =>
      show (runTask env n.ctx task).2.2.Pinged
      rcases runTask_cases env n.ctx task with ⟨now, limit, rfl⟩ | ⟨now, limit, rfl⟩ | ⟨hmembers, hframe⟩
      · exact hpinged.suspects hlisted env.calls env.allocTarget now
      · rw [runTask_target]
        exact hpinged.progressTarget env.target now hatt
      · exact hpinged.of_frame hmembers hframe

/-- **Who is declared dead**: only a suspected member, if the state machine learns of what
clears the suspicion. -/
theorem swim_progress_kills_suspects (self : ℕ) (n : SwimNode)
    (hn : ((swimLts (Started self)).restrict Attentive).Reach n) (task : SwimTask) (env : TaskEnv)
    (id : ℕ) (state state' : SwimMemberState) (hid : n.ctx.members id = some state)
    (hid' : (n.step (.run task env)).1.ctx.members id = some state')
    (hdead : state'.smsStatus = .dead) (hne : state.smsStatus ≠ .dead) :
    state.smsStatus = .suspect := by
  obtain ⟨hlisted, hpinged⟩ := (pinged_invariant self).reach hn
  have hkills : n.ctx.KilledOnlySuspects (SwimNode.runTask env n.ctx task).2.2 := by
    rcases runTask_cases env n.ctx task with ⟨now, limit, rfl⟩ | ⟨now, limit, rfl⟩ | ⟨hmembers, _⟩
    · exact (SwimContext.swimMemberUpdateSuspected_kills hlisted env.calls env.allocTarget now).only
    · rw [runTask_target]
      exact hpinged.kills env.target env.call now
    · exact .of_eq hmembers
  exact hkills id state state' hid hid' hdead hne

/-- Two others are asked to ping the member 1, and nobody gets an answer. -/
def unansweredIndirectPings : List SwimEvent :=
  easyRound 3001 9001 1 ++ .run (.progressSend 9001 true 1 2) (easyEnv 3002 1) ::
    easyRound 3002 9001 1 ++ .run (.progressSend 9001 false 1 2) (easyEnv 8000 1) ::
      (easyRound 8000 9001 1).take 3

/-- A member that answers neither the direct nor the indirect pings. -/
theorem swim_progress_kills_unanswered : ∃ n,
    ((swimLts (Started 0)).restrict Attentive).Reach n ∧ .target 8000 9001 ∈ n.tasks ∧
      (n.step (.run (.target 8000 9001) (easyEnv 8001 1))).1.ctx.members 1 = some ⟨0, .dead⟩ ∧
      ∃ state, n.ctx.members 1 = some state ∧ state.smsStatus = .suspect := by
  obtain ⟨n, hreach, htasks, hbefore, hafter⟩ : ∃ n, ((swimLts (Started 0)).restrict Attentive).Reach n ∧
      .target 8000 9001 ∈ n.tasks ∧ n.ctx.members 1 = some ⟨0, .suspect⟩ ∧
      (n.step (.run (.target 8000 9001) (easyEnv 8001 1))).1.ctx.members 1 = some ⟨0, .dead⟩ :=
    Lts.exists_reach_of_exec (unansweredPing ++ unansweredIndirectPings) ⟨.swimInit 0 threeMembers, []⟩
      ⟨⟨threeMembers, rfl⟩, rfl⟩ (by decide +kernel)
  exact ⟨n, hreach, htasks, hafter, _, hbefore, swim_progress_kills_suspects 0 n hreach _ _ 1 _ _ hbefore
    hafter rfl (by simp)⟩

/-- In `SCS_TIMEDOUT` the target is reported alive, and is declared dead. -/
theorem swim_progress_kills_alive : ∃ n, (swimLts (Started 0)).Reach n ∧ .target 8000 9001 ∈ n.tasks ∧
    n.ctx.members 1 = some ⟨0, .alive⟩ ∧
    (n.step (.run (.target 8000 9001) (easyEnv 8001 1))).1.ctx.members 1 = some ⟨0, .dead⟩ :=
  Lts.exists_reach_of_exec (unansweredPing ++
    .message 2 [⟨2, ⟨0, .alive⟩⟩, ⟨1, ⟨0, .alive⟩⟩] easyParse :: unansweredIndirectPings)
    ⟨.swimInit 0 threeMembers, []⟩ ⟨⟨threeMembers, rfl⟩, rfl⟩ (by decide +kernel)

end Cart
