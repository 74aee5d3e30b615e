/-
Runs of a SWIM context.

Any number of threads call `swim_progress` and `swim_parse_message` on a context.
Between two sections under the lock a thread is described by what it does next
(`SwimTask`), so that the sections of different threads interleave in any order.

Main results: `SwimNode.step`, `step_changes`.
-/
import Cart.SwimMessage
import Cart.Lts

open Function List

namespace Cart

open SwimContext

/-! ### Threads -/

/-- What a thread does next.  `swim_progress` has the time `now` of this round and
the end `limit` of its time. -/
inductive SwimTask where
  | suspects (now limit : ℕ)
  -- the confirmations to send, and the result so far
  | confirm (now limit : ℕ) (rc : ℤ) (targets : List (ℕ × ℕ))
  | ipings (now limit : ℕ)
  | target (now limit : ℕ)
  -- a message about `id`, and whether `ctx_state` is `SCS_TIMEDOUT`
  | progressSend (limit : ℕ) (timedout : Bool) (id sendTo : ℕ)
  -- `swim_parse_message`: the message that answers, and if it forwards a response
  -- of `origin` to an indirect ping, there may be more of them
  | answer (id sendTo : ℕ) (origin : Option ℕ)
  | forward (origin : ℕ)
  deriving DecidableEq

/-- A message on its way. -/
structure SwimMessage where
  src : ℕ
  dst : ℕ
  upds : List SwimMemberUpdate
  deriving DecidableEq

/-- What a section meets. -/
structure TaskEnv where
  -- by member, for the updates of `swim_member_update_suspected`
  calls : ℕ → CallEnv
  allocTarget : ℕ → Bool
  target : TargetEnv
  call : CallEnv
  updates : UpdatesEnv
  -- the time at which the loop of `swim_progress` goes on
  clock : ℕ

/-- Calls, and steps of threads. -/
inductive SwimEvent where
  | progress (now : ℕ) (timeout : ℤ)
  | message (frm : ℕ) (upds : List SwimMemberUpdate) (env : ParseEnv)
  | run (task : SwimTask) (env : TaskEnv)

/-- A context with its threads. -/
structure SwimNode where
  ctx : SwimContext
  tasks : List SwimTask

namespace SwimNode

/-- The condition of the loop of `swim_progress`. -/
def loopEnd (limit : ℕ) (timedout : Bool) (clock : ℕ) : List SwimTask :=
  if clock ≤ limit ∨ timedout = true then [.suspects clock limit] else []

/-- Sends a message: the result, the message and the context. -/
def sendTo (env : TaskEnv) (ctx : SwimContext) (id sendTo : ℕ) : ℤ × List SwimMessage × SwimContext :=
  let (rc, upds, ctx') := ctx.swimUpdatesSend env.updates id sendTo
  (rc, upds.toList.map fun upds => ⟨ctx.scSelf, sendTo, upds⟩, ctx')

/-- The next section of a thread: what it does afterwards, the messages it sends
and the context. -/
def runTask (env : TaskEnv) (ctx : SwimContext) :
    SwimTask → List SwimTask × List SwimMessage × SwimContext
  | .suspects now limit =>
    let (rc, targets, ctx) := ctx.swimMemberUpdateSuspected env.calls env.allocTarget now
    ([.confirm now limit rc targets], [], ctx)
  | .confirm now limit rc [] => (if rc ≠ 0 then [] else [.ipings now limit], [], ctx)
  | .confirm now limit _ ((id, frm) :: targets) =>
    let (rc, msgs, ctx) := sendTo env ctx id frm
    ([.confirm now limit rc targets], msgs, ctx)
  | .ipings now limit => ([.target now limit], [], ctx.swimIpingsUpdate now)
  | .target now limit =>
    match ctx.swimProgressTarget env.target env.call now with
    | (.out _, ctx) => ([], [], ctx)
    | (.next none, ctx) => (loopEnd limit (ctx.scState = .scsTimedout) env.clock, [], ctx)
    | (.next (some (id, dst)), ctx) =>
      ([.progressSend limit (ctx.scState = .scsTimedout) id dst], [], ctx)
  | .progressSend limit timedout id dst =>
    let (rc, msgs, ctx) := sendTo env ctx id dst
    (if rc ≠ 0 then [] else loopEnd limit timedout env.clock, msgs, ctx)
  | .answer id dst origin =>
    let (_, msgs, ctx) := sendTo env ctx id dst
    (origin.toList.map .forward, msgs, ctx)
  | .forward origin =>
    let (dst, ctx) := ctx.takeIping origin
    (dst.toList.map fun dst => .answer origin dst (some origin), [], ctx)

/-- What is left of a call of `swim_parse_message` after its section. -/
def afterParse (self frm : ℕ) (upds : List SwimMemberUpdate) : ParseRes → List SwimTask
  | .out _ | .done _ none => []
  | .done _ (some (id, dst)) =>
    -- a response to a ping may have been waited for by several members
    [.answer id dst (if upds.head?.any (fun upd => upd.smuId ≠ self ∧ upd.smuId = frm) then some frm
      else none)]

/-- A step, with the messages it sends. -/
def step (n : SwimNode) : SwimEvent → SwimNode × List SwimMessage
  | .progress now timeout =>
    let limit := if 0 < timeout then u64 (now + timeout.toNat) else 0
    (if n.ctx.scSelf = swimIdInvalid then n
      else { n with tasks := n.tasks ++ [.suspects now limit] }, [])
  | .message frm upds env =>
    let (res, ctx) := n.ctx.swimParseMessage env frm upds
    (⟨ctx, n.tasks ++ afterParse n.ctx.scSelf frm upds res⟩, [])
  | .run task env =>
    let (tasks, msgs, ctx) := runTask env n.ctx task
    (⟨ctx, n.tasks.erase task ++ tasks⟩, msgs)

/-- A thread takes a step if there is one. -/
def Enabled (n : SwimNode) : SwimEvent → Prop
  | .progress _ _ | .message _ _ _ => True
  | .run task _ => task ∈ n.tasks

instance (n : SwimNode) (e : SwimEvent) : Decidable (n.Enabled e) := by
  apply SwimEvent.casesOn (motive := (Decidable <| n.Enabled ·)) e <;> intros <;>
    dsimp only [Enabled] <;> infer_instance

end SwimNode

/-- The runs of a context from given ones. -/
@[reducible]
def swimLts (init : SwimContext → Prop) : Lts SwimNode SwimEvent where
  init n := init n.ctx ∧ n.tasks = []
  enabled n e := n.Enabled e
  step n e := some (n.step e).1

/-! ### Changes -/

namespace SwimEvent

/-- The updates that an event brings along. -/
def Reports (kind : UpdateKind) (id nr : ℕ) : SwimEvent → Prop
  | .message _ upds _ => ⟨id, ⟨nr, kind.status⟩⟩ ∈ upds
  | .progress _ _ | .run _ _ => False

/-- The target that is chosen if the event needs one. -/
def Chooses (id : ℕ) : SwimEvent → Prop
  | .run _ env => id = env.target.dping
  | .progress _ _ | .message _ _ _ => False

/-- The section that drives the state machine. -/
def Pings : SwimEvent → Prop
  | .run (.target _ _) _ => True
  | _ => False

/-- The section that looks for suspicions that have expired. -/
def Expires : SwimEvent → Prop
  | .run (.suspects _ _) _ => True
  | _ => False

end SwimEvent

namespace SwimContext

/-- What a section can do to the members' states and to the lists. -/
inductive Change (e : SwimEvent) (ctx ctx' : SwimContext) : Prop
  /-- An update of the message about another member is applied. -/
  | said (kind : UpdateKind) (id nr : ℕ) (state : SwimMemberState) (hreports : e.Reports kind id nr)
      (hself : id ≠ ctx.scSelf) (hid : ctx.members id = some state) (hnew : ¬ Ignores kind nr state)
      (happ : Applied id ⟨nr, kind.status⟩ ctx ctx')
  /-- The target has not answered a direct ping. -/
  | suspected (state : SwimMemberState) (hpings : e.Pings) (htarget : ctx.scTarget ≠ swimIdInvalid)
      (hid : ctx.members ctx.scTarget = some state)
      (hnew : ¬ Ignores .suspect state.smsIncarnation state)
      (happ : Applied ctx.scTarget ⟨state.smsIncarnation, .suspect⟩ ctx ctx')
  /-- The target has not answered indirect pings, or a suspicion has expired. -/
  | killed (id : ℕ) (state : SwimMemberState)
      (hwhy : e.Pings ∧ id = ctx.scTarget ∨ e.Expires ∧ id ∈ ids ctx.scSuspects)
      (hid : ctx.members id = some state) (hnew : ¬ Ignores .dead state.smsIncarnation state)
      (happ : Applied id ⟨state.smsIncarnation, .dead⟩ ctx ctx')
  /-- The member itself is suspected, and goes to the next incarnation. -/
  | refuted (nr : ℕ) (state : SwimMemberState) (hreports : e.Reports .suspect ctx.scSelf nr)
      (hid : ctx.members ctx.scSelf = some state) (hge : state.smsIncarnation ≤ nr)
      (hmembers : ctx'.members = Function.update ctx.members ctx.scSelf
        (some { state with smsIncarnation := u64 (state.smsIncarnation + 1) }))
      (hsuspects : ctx'.scSuspects = ctx.scSuspects)
      (hupdates : (ids ctx.scUpdates).Nodup → (ids ctx'.scUpdates).Nodup) (hframe : Frame ctx ctx')
  /-- The suspicion of somebody who is not a member is dropped. -/
  | dropped (id : ℕ) (hid : ctx.members id = none) (hmembers : ctx'.members = ctx.members)
      (hsuspects : ctx'.scSuspects = removeItem id ctx.scSuspects)
      (hupdates : ctx'.scUpdates = ctx.scUpdates) (hframe : Frame ctx ctx')
  /-- None of this. -/
  | other (hmembers : ctx'.members = ctx.members) (hsuspects : ids ctx'.scSuspects = ids ctx.scSuspects)
      (hupdates : (ids ctx'.scUpdates).Sublist (ids ctx.scUpdates)) (hself : ctx'.scSelf = ctx.scSelf)
      (htarget : ctx'.scTarget = ctx.scTarget ∨ ctx'.scTarget = swimIdInvalid ∨
        e.Chooses ctx'.scTarget)

/-- Any number of changes. -/
def Changes (e : SwimEvent) : SwimContext → SwimContext → Prop := Relation.ReflTransGen (Change e)

variable {e : SwimEvent} {ctx ctx' ctx'' : SwimContext} {id : ℕ} {state : SwimMemberState}

theorem Changes.refl (ctx : SwimContext) : Changes e ctx ctx := Relation.ReflTransGen.refl

theorem Changes.trans (h : Changes e ctx ctx') (h' : Changes e ctx' ctx'') : Changes e ctx ctx'' :=
  Relation.ReflTransGen.trans h h'

theorem Change.changes (h : Change e ctx ctx') : Changes e ctx ctx' := .single h

theorem Changes.preserves {P : SwimContext → Prop} (h : Changes e ctx ctx') (hP : P ctx)
    (hstep : ∀ ctx ctx', P ctx → Change e ctx ctx' → P ctx') : P ctx' := by
  induction h with
  | refl => exact hP
  | tail _ hlast ih => exact hstep _ _ ih hlast

theorem Change.nodup (h : Change e ctx ctx') (hnd : (ids ctx.scSuspects).Nodup) :
    (ids ctx'.scSuspects).Nodup := by
  cases h with
  | said _ _ _ _ _ _ _ _ happ | suspected _ _ _ _ _ happ | killed _ _ _ _ _ happ =>
    exact happ.nodup hnd
  | refuted _ _ _ _ _ _ hsuspects | other _ hsuspects => rwa [hsuspects]
  | dropped id _ _ hsuspects =>
    rw [hsuspects, ids_removeItem]
    exact hnd.erase id

/-- Nobody joins and nobody leaves. -/
theorem Changes.members_none (h : Changes e ctx ctx') (hid : ctx'.members id = none) :
    ctx.members id = none := by
  have hupdate : ∀ {ctx ctx' : SwimContext} {x : ℕ} {state new : SwimMemberState},
      ctx.members x = some state → ctx'.members = Function.update ctx.members x (some new) →
        ctx'.members id = none → ctx.members id = none := by
    intro ctx ctx' x state new hx hmembers hnone
    rw [hmembers] at hnone
    by_cases hxid : id = x
    · rw [hxid, update_self] at hnone
      cases hnone
    · rwa [update_of_ne hxid] at hnone
  refine (Changes.preserves (P := fun c => c.members id = none → ctx.members id = none) h
    (fun h => h) ?_) hid
  intro c c' ih hch hnone
  cases hch with
  | said _ _ _ _ _ _ hx _ happ | suspected _ _ _ hx _ happ | killed _ _ _ hx _ happ =>
    exact ih (hupdate hx happ.members hnone)
  | refuted _ _ _ hx _ hmembers => exact ih (hupdate hx hmembers hnone)
  | dropped _ _ hmembers | other hmembers => exact ih (hmembers ▸ hnone)

/-- The timers, the state machine and the lists of pings are not looked at. -/
theorem changes_of_eq (hmembers : ctx'.members = ctx.members) (hsuspects : ctx'.scSuspects = ctx.scSuspects)
    (hupdates : ctx'.scUpdates = ctx.scUpdates) (hself : ctx'.scSelf = ctx.scSelf)
    (htarget : ctx'.scTarget = ctx.scTarget) : Changes e ctx ctx' :=
  Change.changes (.other hmembers (by rw [hsuspects]) (by rw [hupdates]) hself (.inl htarget))

theorem Changes.of_eq (h : ctx' = ctx) : Changes e ctx ctx' := by
  subst h
  exact .refl _

theorem swimMember_changes {kind : UpdateKind} {nr : ℕ} (hreports : e.Reports kind id nr)
    (hself : id ≠ ctx.scSelf) (env : CallEnv) (frm : ℕ) :
    Changes e ctx (ctx.swimMember kind env frm id nr).2 ∧
      Frame ctx (ctx.swimMember kind env frm id nr).2 := by
  rcases swimMember_or kind env ctx frm id nr with heq | ⟨state, hid, hnew, happ⟩
  · rw [heq]
    exact ⟨.refl ctx, .refl ctx⟩
  · exact ⟨Change.changes (.said kind id nr state hreports hself hid hnew happ), happ.frame⟩

theorem swimMemberDead_changes (hid : ctx.members id = some state)
    (hwhy : e.Pings ∧ id = ctx.scTarget ∨ e.Expires ∧ id ∈ ids ctx.scSuspects) (env : CallEnv) (frm : ℕ) :
    Changes e ctx (ctx.swimMemberDead env frm id state.smsIncarnation).2 := by
  rcases swimMember_or .dead env ctx frm id state.smsIncarnation with heq | ⟨state', hid', hnew, happ⟩
  · exact .of_eq heq
  · obtain rfl := Option.some.inj (hid.symm.trans hid')
    exact Change.changes (.killed id state hwhy hid hnew happ)

theorem swimMemberSuspect_changes (hpings : e.Pings) (htarget : ctx.scTarget ≠ swimIdInvalid)
    (hid : ctx.members ctx.scTarget = some state) (env : CallEnv) (frm : ℕ) :
    Changes e ctx (ctx.swimMemberSuspect env frm ctx.scTarget state.smsIncarnation).2 := by
  rcases swimMember_or .suspect env ctx frm ctx.scTarget state.smsIncarnation with
    heq | ⟨state', hid', hnew, happ⟩
  · exact .of_eq heq
  · obtain rfl := Option.some.inj (hid.symm.trans hid')
    exact Change.changes (.suspected state hpings htarget hid hnew happ)

/-! ### Sections -/

section

variable (calls : ℕ → CallEnv) (allocTarget : ℕ → Bool) (now : ℕ)

include calls allocTarget now

theorem suspectedRound_changes (s : ℤ × List (ℕ × ℕ) × SwimContext) {item : SwimItem}
    (hexp : e.Expires) (hitem : item.siId ∈ ids s.2.2.scSuspects) :
    Changes e s.2.2 (suspectedRound calls allocTarget now s item).2.2 := by
  obtain ⟨rc, targets, ctx⟩ := s
  rw [suspectedRound]
  split
  · split
    · have hsame := ids_updateItem (f := fun item => { item with
        siFrom := ctx.scSelf, u := u64 (item.u + ctx.swimPingTimeout) }) (fun _ => rfl) item.siId
        ctx.scSuspects
      split <;> exact Change.changes (.other rfl hsame (Sublist.refl _) rfl (.inl rfl))
    · cases hid : ctx.members item.siId with
      | some state => exact swimMemberDead_changes hid (.inr ⟨hexp, hitem⟩) _ _
      | none => exact Change.changes (.dropped item.siId hid rfl rfl rfl ⟨rfl, rfl, rfl⟩)
  · exact .refl ctx

/-- A round of the loop leaves the states and the entries of other members alone. -/
theorem suspectedRound_keeps (s : ℤ × List (ℕ × ℕ) × SwimContext) (item : SwimItem)
    (hne : id ≠ item.siId) :
    (suspectedRound calls allocTarget now s item).2.2.members id = s.2.2.members id ∧
      (id ∈ ids (suspectedRound calls allocTarget now s item).2.2.scSuspects ↔
        id ∈ ids s.2.2.scSuspects) := by
  obtain ⟨rc, targets, ctx⟩ := s
  have hremove : id ∈ ids (removeItem item.siId ctx.scSuspects) ↔ id ∈ ids ctx.scSuspects := by
    rw [ids_removeItem]
    exact mem_erase_of_ne hne
  rw [suspectedRound]
  split
  · split
    · have hsame := ids_updateItem (f := fun item => { item with
        siFrom := ctx.scSelf, u := u64 (item.u + ctx.swimPingTimeout) }) (fun _ => rfl) item.siId
        ctx.scSuspects
      split <;> exact ⟨rfl, by rw [hsame]⟩
    · cases hst : ctx.members item.siId with
      | some state =>
        rcases swimMember_or .dead (calls item.siId) ctx item.siFrom item.siId state.smsIncarnation
          with heq | ⟨_, _, _, happ⟩
        · rw [swimMember] at heq
          rw [heq]
          exact ⟨rfl, Iff.rfl⟩
        · rw [swimMember] at happ
          refine ⟨?_, ?_⟩
          · rw [happ.members, update_of_ne hne]
          · cases happ.suspects with
            | removed _ hl => rw [hl, hremove]
            | kept hstatus | added hstatus => exact absurd hstatus (by simp [UpdateKind.status])
      | none => exact ⟨rfl, hremove⟩
  · exact ⟨rfl, Iff.rfl⟩

theorem swimMemberUpdateSuspected_changes (hexp : e.Expires) (hnd : (ids ctx.scSuspects).Nodup) :
    Changes e ctx (ctx.swimMemberUpdateSuspected calls allocTarget now).2.2 := by
  -- the entries that are still to be visited are in the list
  suffices hloop : ∀ (l : List SwimItem) (s : ℤ × List (ℕ × ℕ) × SwimContext), (ids l).Nodup →
      (∀ id ∈ ids l, id ∈ ids s.2.2.scSuspects) →
      Changes e s.2.2 (l.foldl (suspectedRound calls allocTarget now) s).2.2 from
    hloop ctx.scSuspects (0, [], ctx) hnd fun _ h => h
  intro l
  induction l with
  | nil => exact fun s _ _ => .refl _
  | cons item l ih =>
    intro s hnd hmem
    rw [ids_cons, nodup_cons] at hnd
    refine (suspectedRound_changes calls allocTarget now s hexp (hmem _ mem_cons_self)).trans
      (ih _ hnd.2 fun id hid => ?_)
    exact (suspectedRound_keeps calls allocTarget now s item fun heq => hnd.1 (heq ▸ hid)).2.mpr
      (hmem id (mem_cons_of_mem _ hid))

end

theorem nextTarget_changes (env : TargetEnv) (hchosen : e.Chooses env.dping) :
    Changes e ctx (ctx.nextTarget env).2 := by
  rw [nextTarget]
  split <;> exact Change.changes (.other rfl rfl (Sublist.refl _) rfl (.inr (.inr hchosen)))

theorem subgroupLoop_changes (env : TargetEnv) (n : ℕ) :
    ∀ (i : ℕ) (ctx : SwimContext), Changes e ctx (subgroupLoop env i n ctx).2 := by
  induction n with
  | zero => exact fun i ctx => .refl ctx
  | succ n ih =>
    intro i ctx
    rw [subgroupLoop]
    split
    · exact .refl ctx
    split
    · exact .refl ctx
    · refine Changes.trans ?_ (ih (i + 1) _)
      exact changes_of_eq rfl rfl rfl rfl rfl

theorem pingSubgroup_changes (env : TargetEnv) (now : ℕ) (hchosen : e.Chooses env.dping) :
    Changes e ctx (ctx.pingSubgroup env now).2 := by
  rw [pingSubgroup]
  split
  · exact nextTarget_changes env hchosen
  · exact changes_of_eq rfl rfl rfl rfl rfl
  · exact changes_of_eq rfl rfl rfl rfl rfl

theorem swimProgressTarget_changes (env : TargetEnv) (call : CallEnv) (now : ℕ) (hpings : e.Pings)
    (hchosen : e.Chooses env.dping) : Changes e ctx (ctx.swimProgressTarget env call now).2 := by
  rw [swimProgressTarget]
  split
  · exact nextTarget_changes env hchosen
  split
  · refine Changes.trans ?_ (nextTarget_changes env hchosen)
    exact Change.changes (.other rfl rfl (Sublist.refl _) rfl (.inr (.inl rfl)))
  rename_i htarget _ state hid
  split
  · rw [beginState]
    split
    · exact changes_of_eq rfl rfl rfl rfl rfl
    · exact changes_of_eq rfl rfl rfl rfl rfl
  · rw [dpingedState]
    split
    · split
      · refine (swimMemberSuspect_changes hpings htarget hid call ctx.scSelf).trans ?_
        exact changes_of_eq rfl rfl rfl rfl rfl
      · exact changes_of_eq rfl rfl rfl rfl rfl
    · exact changes_of_eq rfl rfl rfl rfl rfl
  · rw [ipingedState]
    split
    · refine (swimMemberDead_changes hid (.inl ⟨hpings, rfl⟩) call ctx.scSelf).trans ?_
      exact changes_of_eq rfl rfl rfl rfl rfl
    · exact changes_of_eq rfl rfl rfl rfl rfl
  · rw [timedoutState]
    split
    · dsimp only
      split
      · exact subgroupLoop_changes env _ 0 ctx
      · exact (subgroupLoop_changes env _ 0 ctx).trans (pingSubgroup_changes env now hchosen)
    · exact pingSubgroup_changes env now hchosen
  · exact nextTarget_changes env hchosen
  · exact nextTarget_changes env hchosen

theorem swimUpdatesSend_changes (env : UpdatesEnv) (id sendTo : ℕ) :
    Changes e ctx (ctx.swimUpdatesSend env id sendTo).2.2 := by
  obtain ⟨alloc, rc⟩ := env
  rcases swimUpdatesSend_cases alloc ctx id sendTo with ⟨_, -, heq⟩ | ⟨_, _, r, -, -, hloop, heq⟩
  · rw [heq rc]
    exact .refl ctx
  · rw [heq rc]
    exact Change.changes (.other rfl rfl hloop.sublist rfl (.inl rfl))

theorem parseUpdate_changes (env : CallEnv) (frm : ℕ) (upd : SwimMemberUpdate) (ctx : SwimContext)
    (state : SwimContextState)
    (hreports : ∀ kind : UpdateKind, upd.smuState.smsStatus = kind.status →
      e.Reports kind upd.smuId upd.smuState.smsIncarnation) :
    match parseUpdate env frm upd ctx state with
    | .error (_, ctx') => Changes e ctx ctx' ∧ Frame ctx ctx'
    | .ok (_, ctx') => Changes e ctx ctx' ∧ Frame ctx ctx' := by
  have hrefl : Changes e ctx ctx ∧ Frame ctx ctx := ⟨.refl ctx, .refl ctx⟩
  rw [parseUpdate]
  cases hst : upd.smuState.smsStatus with
  | inactive => exact hrefl
  | alive =>
    by_cases hself : upd.smuId = ctx.scSelf
    · rw [if_pos hself]
      exact hrefl
    · rw [if_neg hself]
      exact swimMember_changes (hreports .alive hst) hself env frm
  | dead =>
    dsimp only
    split_ifs with hself
    · exact hrefl
    · exact swimMember_changes (hreports .dead hst) hself env frm
  | suspect =>
    dsimp only
    split_ifs with hself
    · cases hid : ctx.members ctx.scSelf with
      | none => exact hrefl
      | some self =>
        dsimp only
        by_cases hlt : upd.smuState.smsIncarnation < self.smsIncarnation
        · rw [if_pos hlt]
          exact hrefl
        · rw [if_neg hlt]
          obtain ⟨hrc, hmembers, hsuspects, hupdates, hframe⟩ := swimUpdatesNotify_spec hid env ctx.scSelf
            { self with smsIncarnation := u64 (self.smsIncarnation + 1) }
          rw [if_neg (not_not.mpr hrc)]
          exact ⟨Change.changes (.refuted upd.smuState.smsIncarnation self (hself ▸ hreports .suspect hst) hid
            (not_lt.mp hlt) hmembers hsuspects hupdates hframe), hframe⟩
    · exact swimMember_changes (hreports .suspect hst) hself env frm

theorem parseLoop_changes (frm : ℕ) (calls : ℕ → CallEnv) (upds : List SwimMemberUpdate)
    (ctx : SwimContext) (state : SwimContextState)
    (hreports : ∀ (kind : UpdateKind) (id nr : ℕ), ⟨id, ⟨nr, kind.status⟩⟩ ∈ upds → e.Reports kind id nr) :
    match parseLoop frm calls upds ctx state with
    | .error (_, ctx') => Changes e ctx ctx' ∧ Frame ctx ctx'
    | .ok (_, ctx') => Changes e ctx ctx' ∧ Frame ctx ctx' := by
  induction upds generalizing calls ctx state with
  | nil => exact ⟨.refl ctx, .refl ctx⟩
  | cons upd upds ih =>
    rw [parseLoop]
    have hone := parseUpdate_changes (calls 0) frm upd ctx state fun kind hkind =>
      hreports kind _ _ (by rw [← hkind]; exact mem_cons_self)
    cases hpar : parseUpdate (calls 0) frm upd ctx state with
    | error e =>
      rw [hpar] at hone
      exact hone
    | ok res =>
      obtain ⟨state₁, ctx₁⟩ := res
      rw [hpar] at hone
      obtain ⟨hch, hfr⟩ := hone
      dsimp only
      have hrest := ih (fun i => calls (i + 1)) ctx₁ state₁ fun kind id nr hin =>
        hreports kind id nr (mem_cons_of_mem _ hin)
      generalize parseLoop frm (fun i => calls (i + 1)) upds ctx₁ state₁ = res at hrest ⊢
      cases res with
      | error _ | ok _ => exact ⟨hch.trans hrest.1, hfr.trans hrest.2⟩

theorem answer_changes (env : ParseEnv) (frm : ℕ) (first : SwimMemberUpdate) :
    Changes e ctx (ctx.answer env frm first).2.2 := by
  rw [answer]
  dsimp only
  split
  · exact .refl ctx
  split
  · rw [takeIping]
    split
    · exact .refl ctx
    · exact changes_of_eq rfl rfl rfl rfl rfl
  split
  · split
    · exact .refl ctx
    · exact changes_of_eq rfl rfl rfl rfl rfl
  · exact .refl ctx

theorem answer_same (env : ParseEnv) (frm : ℕ) (first : SwimMemberUpdate) (ctx : SwimContext) :
    (ctx.answer env frm first).2.2.members = ctx.members ∧ Frame ctx (ctx.answer env frm first).2.2 := by
  rw [answer]
  dsimp only
  split
  · exact ⟨rfl, .refl ctx⟩
  split
  · rw [takeIping]
    split
    · exact ⟨rfl, .refl ctx⟩
    · exact ⟨rfl, rfl, rfl, rfl⟩
  split
  · split
    · exact ⟨rfl, .refl ctx⟩
    · exact ⟨rfl, rfl, rfl, rfl⟩
  · exact ⟨rfl, .refl ctx⟩

/-- The loop of `swim_parse_message` starts in the state of the context, or acknowledged. -/
theorem swimParseMessage_cons (hself : ctx.scSelf ≠ swimIdInvalid) (env : ParseEnv) (frm : ℕ)
    (first : SwimMemberUpdate) (upds : List SwimMemberUpdate) :
    ∃ state, (state = .scsAcked ∨ state = ctx.scState) ∧
      ctx.swimParseMessage env frm (first :: upds) =
        match parseLoop frm env.calls (first :: upds) ctx state with
        | .error (rc, ctx) => (.out rc, ctx)
        | .ok (state, ctx) => (.done (ctx.answer env frm first).1 (ctx.answer env frm first).2.1,
            { (ctx.answer env frm first).2.2 with scState := state }) := by
  rw [swimParseMessage, if_neg hself]
  refine ⟨_, ?_, rfl⟩
  split
  · exact .inl rfl
  · exact .inr rfl

theorem swimParseMessage_changes (env : ParseEnv) (frm : ℕ) (upds : List SwimMemberUpdate)
    (hreports : ∀ (kind : UpdateKind) (id nr : ℕ), ⟨id, ⟨nr, kind.status⟩⟩ ∈ upds → e.Reports kind id nr) :
    Changes e ctx (ctx.swimParseMessage env frm upds).2 := by
  cases upds with
  | nil => exact .refl ctx
  | cons first upds =>
    by_cases hself : ctx.scSelf = swimIdInvalid
    · rw [swimParseMessage, if_pos hself]
      exact .refl ctx
    obtain ⟨state, _, hparse⟩ := swimParseMessage_cons hself env frm first upds
    rw [hparse]
    have hloop := parseLoop_changes frm env.calls (first :: upds) ctx state hreports
    generalize parseLoop frm env.calls (first :: upds) ctx state = res at hloop ⊢
    cases res with
    | error _ => exact hloop.1
    | ok _ =>
      exact hloop.1.trans ((answer_changes env frm first).trans (changes_of_eq rfl rfl rfl rfl rfl))

end SwimContext

/-- **Every step** is a sequence of changes. -/
theorem step_changes (n : SwimNode) (e : SwimEvent) (hnd : (ids n.ctx.scSuspects).Nodup) :
    Changes e n.ctx (n.step e).1.ctx := by
  cases e with
  | progress now timeout =>
    rw [SwimNode.step]
    split <;> exact .refl n.ctx
  | message frm upds env => exact swimParseMessage_changes env frm upds fun _ _ _ h => h
  | run task env =>
    cases task with
    | suspects now limit => exact swimMemberUpdateSuspected_changes _ _ now trivial hnd
    | confirm now limit rc targets =>
      cases targets with
      | nil => exact .refl n.ctx
      | cons target targets => exact swimUpdatesSend_changes _ _ _
    | ipings now limit => exact changes_of_eq rfl rfl rfl rfl rfl
    | target now limit =>
      have hch : Changes (.run (.target now limit) env) n.ctx
          (n.ctx.swimProgressTarget env.target env.call now).2 :=
        swimProgressTarget_changes env.target env.call now trivial rfl
      rw [SwimNode.step, SwimNode.runTask]
      generalize n.ctx.swimProgressTarget env.target env.call now = res at hch ⊢
      obtain ⟨_ | (_ | _), _⟩ := res
      · exact hch
      · exact hch
      · exact hch
    | progressSend limit timedout id dst | answer id dst origin =>
      exact swimUpdatesSend_changes _ _ _
    | forward origin =>
      rw [SwimNode.step, SwimNode.runTask]
      dsimp only
      rw [takeIping]
      split
      · exact .refl n.ctx
      · exact changes_of_eq rfl rfl rfl rfl rfl

end Cart
