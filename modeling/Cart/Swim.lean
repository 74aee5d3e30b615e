/-
The SWIM protocol engine (`swim.c`, `swim_internal.h`).

A state machine pings one member after the other; there are lists of suspects, of updates to
pass on and of indirect pings.  The states of the members are behind callbacks.  A section
under the context's lock is a function here; what it meets is an argument.

Main results: `swimUpdatesSend`, `swimParseMessage`.
-/
import Cart.Basic

namespace Cart

/-! ### Constants and types -/

def swimIdInvalid : ℕ := 2 ^ 64 - 1

def swimProtocolPeriodLen : ℕ := 2400

def swimSuspectTimeout : ℕ := 3 * swimProtocolPeriodLen

def swimPingTimeoutMin : ℕ := 800

def swimSubgroupSize : ℕ := 2

def swimPiggybackEntries : ℕ := 8

def swimPiggybackTxCount : ℕ := 50

/-! Codes of `errno.h`. -/

def eNomem : ℤ := 12

def eInval : ℤ := 22

def eShutdown : ℤ := 108

def eAlready : ℤ := 114

/-- `enum swim_member_status`. -/
inductive SwimMemberStatus where
  | alive
  | suspect
  | dead
  | inactive
  deriving DecidableEq, Repr

structure SwimMemberState where
  smsIncarnation : ℕ
  smsStatus : SwimMemberStatus
  deriving DecidableEq, Repr

structure SwimMemberUpdate where
  smuId : ℕ
  smuState : SwimMemberState
  deriving DecidableEq, Repr

/-- `enum swim_context_state`. -/
inductive SwimContextState where
  | scsBegin
  | scsDpinged
  | scsIpinged
  | scsTimedout
  | scsAcked
  | scsDead
  deriving DecidableEq, Repr

/-- `u` is `si_deadline` or, in the list of updates, `si_count`. -/
structure SwimItem where
  siId : ℕ
  siFrom : ℕ
  u : ℕ
  deriving DecidableEq, Repr

/-- With the variable `swim_ping_timeout` and the states of the members behind `sc_ops`. -/
structure SwimContext where
  scSelf : ℕ
  scSubgroup : List ℕ
  scSuspects : List SwimItem
  scUpdates : List SwimItem
  scIpings : List SwimItem
  scState : SwimContextState
  scTarget : ℕ
  scNextTickTime : ℕ
  scDpingDeadline : ℕ
  scIpingDeadline : ℕ
  scPiggybackTxMax : ℕ
  swimPingTimeout : ℕ
  members : ℕ → Option SwimMemberState

/-- What one update meets. -/
structure CallEnv where
  now : ℕ
  allocSuspect : Bool
  allocUpdate : Bool

/-! ### Lists of items -/

/-- Changes the first entry for a member. -/
def updateItem (id : ℕ) (f : SwimItem → SwimItem) : List SwimItem → List SwimItem
  | [] => []
  | i :: l => if i.siId = id then f i :: l else i :: updateItem id f l

/-- Removes the first entry for a member. -/
def removeItem (id : ℕ) (l : List SwimItem) : List SwimItem := l.eraseP fun i => i.siId = id

/-- Whether there is an entry for a member. -/
def hasItem (id : ℕ) (l : List SwimItem) : Bool := l.any fun i => i.siId = id

namespace SwimContext

def swimInit (self : ℕ) (members : ℕ → Option SwimMemberState) : SwimContext where
  scSelf := self
  scSubgroup := []
  scSuspects := []
  scUpdates := []
  scIpings := []
  scState := .scsBegin
  scTarget := swimIdInvalid
  scNextTickTime := 0
  scDpingDeadline := 0
  scIpingDeadline := 0
  scPiggybackTxMax := swimPiggybackTxCount
  swimPingTimeout := swimPingTimeoutMin
  members := members

variable (env : TargetEnv) (call : CallEnv) (ctx : SwimContext) (id now : ℕ)

def setMemberState (state : SwimMemberState) : ℤ × SwimContext :=
  match ctx.members id with
  | none => (-derNonexist, ctx)
  | some _ => (0, { ctx with members := Function.update ctx.members id (some state) })

/-! ### Updates about a member -/

def swimUpdatesNotify (env : CallEnv) (ctx : SwimContext) (frm id : ℕ) (state : SwimMemberState) :
    ℤ × SwimContext :=
  let updates :=
    if hasItem id ctx.scUpdates then
      updateItem id (fun item => { item with siFrom := frm, u := 0 }) ctx.scUpdates
    else if env.allocUpdate then ⟨id, frm, 0⟩ :: ctx.scUpdates
    else ctx.scUpdates
  { ctx with scUpdates := updates }.setMemberState id state

def swimMemberAlive (env : CallEnv) (ctx : SwimContext) (frm id nr : ℕ) : ℤ × SwimContext :=
  match ctx.members id with
  | none => (-derNonexist, ctx)
  | some state =>
    -- old updates, or updates for dead members
    if nr ≤ state.smsIncarnation ∧ (state.smsStatus = .dead ∨ state.smsStatus = .alive ∨
        nr < state.smsIncarnation) then (-eAlready, ctx)
    else
      let ctx :=
        if hasItem id ctx.scSuspects then
          { ctx with
            scSuspects := removeItem id ctx.scSuspects
            swimPingTimeout :=
              if ctx.swimPingTimeout < swimProtocolPeriodLen then
                u64 (ctx.swimPingTimeout + swimPingTimeoutMin)
              else ctx.swimPingTimeout }
        else ctx
      ctx.swimUpdatesNotify env frm id ⟨nr, .alive⟩

def swimMemberDead (env : CallEnv) (ctx : SwimContext) (frm id nr : ℕ) : ℤ × SwimContext :=
  match ctx.members id with
  | none => (-derNonexist, ctx)
  | some state =>
    if nr ≤ state.smsIncarnation ∧ (state.smsStatus = .dead ∨ nr < state.smsIncarnation) then
      (-eAlready, ctx)
    else
      let ctx := { ctx with scSuspects := removeItem id ctx.scSuspects }
      ctx.swimUpdatesNotify env frm id ⟨nr, .dead⟩

def swimMemberSuspect (env : CallEnv) (ctx : SwimContext) (frm id nr : ℕ) : ℤ × SwimContext :=
  if swimSuspectTimeout = 0 then ctx.swimMemberDead env frm id nr
  else
    match ctx.members id with
    | none => (-derNonexist, ctx)
    | some state =>
      if nr ≤ state.smsIncarnation ∧ (state.smsStatus = .dead ∨ state.smsStatus = .suspect ∨
          nr < state.smsIncarnation) then (-eAlready, ctx)
      else if hasItem id ctx.scSuspects then ctx.swimUpdatesNotify env frm id ⟨nr, .suspect⟩
      else if env.allocSuspect = false then (-eNomem, ctx)
      else
        let item := ⟨id, frm, u64 (env.now + swimSuspectTimeout)⟩
        let ctx := { ctx with scSuspects := ctx.scSuspects ++ [item] }
        ctx.swimUpdatesNotify env frm id ⟨nr, .suspect⟩

/-! ### `swim_progress` -/

/-- One round of the loop of `swim_member_update_suspected`, with those to be confirmed. -/
def suspectedRound (calls : ℕ → CallEnv) (allocTarget : ℕ → Bool) (now : ℕ)
    (s : ℤ × List (ℕ × ℕ) × SwimContext) (item : SwimItem) : ℤ × List (ℕ × ℕ) × SwimContext :=
  let (rc, targets, ctx) := s
  if item.u < now then
    if item.siFrom ≠ ctx.scSelf then
      let ctx := { ctx with
        scSuspects := updateItem item.siId (fun item =>
          { item with siFrom := ctx.scSelf, u := u64 (item.u + ctx.swimPingTimeout) }) ctx.scSuspects }
      if allocTarget item.siId then (rc, targets ++ [(item.siId, item.siFrom)], ctx)
      else (-eNomem, targets, ctx)
    else
      match ctx.members item.siId with
      | some state =>
        (0, targets, (ctx.swimMemberDead (calls item.siId) item.siFrom item.siId
          state.smsIncarnation).2)
      | none => (-derNonexist, targets, { ctx with scSuspects := removeItem item.siId ctx.scSuspects })
  else (rc, targets, ctx)

/-- `swim_member_update_suspected` under the lock. -/
def swimMemberUpdateSuspected (calls : ℕ → CallEnv) (allocTarget : ℕ → Bool) (ctx : SwimContext)
    (now : ℕ) : ℤ × List (ℕ × ℕ) × SwimContext :=
  ctx.scSuspects.foldl (suspectedRound calls allocTarget now) (0, [], ctx)

def swimIpingsUpdate : SwimContext :=
  { ctx with scIpings := ctx.scIpings.filter fun item => ¬ item.u < now }

/-- What the choice of a target meets. -/
structure TargetEnv where
  dping : ℕ
  iping : ℕ → ℕ
  allocSubgroup : ℕ → Bool

/-- The loop of `swim_subgroup_init` from the round `i` on, with the number of
rounds to do. -/
def subgroupLoop (env : TargetEnv) (i : ℕ) : ℕ → SwimContext → ℤ × SwimContext
  | 0, ctx => (0, ctx)
  | n + 1, ctx =>
    if env.iping i = swimIdInvalid then (0, ctx)
    else if env.allocSubgroup i = false then (-eNomem, ctx)
    else subgroupLoop env (i + 1) n { ctx with scSubgroup := ctx.scSubgroup ++ [env.iping i] }

def swimSubgroupInit : ℤ × SwimContext :=
  subgroupLoop env 0 swimSubgroupSize ctx

/-- How the section of `swim_progress` that drives the state machine ends. -/
inductive ProgressRes where
  | out (rc : ℤ)
  | next (send : Option (ℕ × ℕ))

/-- The state is set and the lock given back. -/
def stateSet (state : SwimContextState) (send : Option (ℕ × ℕ)) : ProgressRes × SwimContext :=
  (.next send, { ctx with scState := state })

/-- The next target is selected. -/
def nextTarget : ProgressRes × SwimContext :=
  let ctx := { ctx with scTarget := env.dping }
  if env.dping = swimIdInvalid then (.out (-eShutdown), ctx) else ctx.stateSet .scsBegin none

/-- `SCS_BEGIN`. -/
def beginState : ProgressRes × SwimContext :=
  if ctx.scNextTickTime < now then
    { ctx with
      scNextTickTime := u64 (now + swimProtocolPeriodLen)
      scDpingDeadline := u64 (now + ctx.swimPingTimeout)
    }.stateSet .scsDpinged (some (ctx.scTarget, ctx.scTarget))
  else ctx.stateSet .scsBegin none

/-- `SCS_DPINGED`. -/
def dpingedState (state : SwimMemberState) : ProgressRes × SwimContext :=
  if ctx.scDpingDeadline < now then
    if state.smsStatus ≠ .inactive then
      (ctx.swimMemberSuspect call ctx.scSelf ctx.scTarget state.smsIncarnation).2.stateSet
        .scsTimedout none
    else ctx.stateSet .scsDead none
  else ctx.stateSet .scsDpinged none

/-- `SCS_IPINGED`. -/
def ipingedState (state : SwimMemberState) : ProgressRes × SwimContext :=
  if ctx.scIpingDeadline < now then
    (ctx.swimMemberDead call ctx.scSelf ctx.scTarget state.smsIncarnation).2.stateSet .scsDead none
  else ctx.stateSet .scsIpinged none

/-- `SCS_TIMEDOUT` once there is a subgroup. -/
def pingSubgroup : ProgressRes × SwimContext :=
  match ctx.scSubgroup with
  | [] => ctx.nextTarget env
  | [id] =>
    { ctx with scSubgroup := [], scIpingDeadline := u64 (now + 2 * ctx.swimPingTimeout) }.stateSet
      .scsIpinged (some (ctx.scTarget, id))
  | id :: ids => { ctx with scSubgroup := ids }.stateSet .scsTimedout (some (ctx.scTarget, id))

/-- `SCS_TIMEDOUT`. -/
def timedoutState : ProgressRes × SwimContext :=
  match ctx.scSubgroup with
  | [] =>
    let (rc, ctx) := ctx.swimSubgroupInit env
    if rc ≠ 0 then (.out rc, ctx) else ctx.pingSubgroup env now
  | _ :: _ => ctx.pingSubgroup env now

/-- The section of `swim_progress` that drives the state machine. -/
def swimProgressTarget : ProgressRes × SwimContext :=
  if ctx.scTarget = swimIdInvalid then ctx.nextTarget env
  else
    match ctx.members ctx.scTarget with
    | none => { ctx with scTarget := swimIdInvalid }.nextTarget env
    | some state =>
      match ctx.scState with
      | .scsBegin => ctx.beginState now
      | .scsDpinged => ctx.dpingedState call now state
      | .scsIpinged => ctx.ipingedState call now state
      | .scsTimedout => ctx.timedoutState env now
      | .scsAcked | .scsDead => ctx.nextTarget env

/-! ### Messages -/

/-- The loop of `swim_updates_send`: the message, and what stays in the list. -/
def updatesLoop (ctx : SwimContext) (id nupds : ℕ) :
    List SwimItem → List SwimMemberUpdate → List SwimMemberUpdate × List SwimItem
  | [], upds => (upds, [])
  | item :: items, upds =>
    -- entries that are too many are deleted
    if nupds ≤ upds.length then updatesLoop ctx id nupds items upds
    else
      -- the entry after it was passed on once more
      let keep := fun (res : List SwimMemberUpdate × List SwimItem) =>
        if ctx.scPiggybackTxMax < item.u + 1 then res
        else (res.1, { item with u := item.u + 1 } :: res.2)
      if item.siId ≠ id ∧ item.siId ≠ ctx.scSelf then
        match ctx.members item.siId with
        -- this member was removed already
        | none => updatesLoop ctx id nupds items upds
        | some state => keep (updatesLoop ctx id nupds items (upds ++ [⟨item.siId, state⟩]))
      else keep (updatesLoop ctx id nupds items upds)

/-- What sending meets: the allocation of the message, and the result of
`send_message`. -/
structure UpdatesEnv where
  allocUpds : Bool
  sendRc : ℤ

/-- A message about the member `id` for the member `sendTo`. -/
def swimUpdatesSend (env : UpdatesEnv) (ctx : SwimContext) (id sendTo : ℕ) :
    ℤ × Option (List SwimMemberUpdate) × SwimContext :=
  if id = swimIdInvalid ∨ sendTo = swimIdInvalid then (-eInval, none, ctx)
  else if env.allocUpds = false then (-eNomem, none, ctx)
  else
    let finish := fun (first : List SwimMemberUpdate) (nupds : ℕ) =>
      let (upds, items) := updatesLoop ctx id nupds ctx.scUpdates first
      let ctx := { ctx with scUpdates := items }
      if env.sendRc ≠ 0 then (env.sendRc, none, ctx) else (0, some upds, ctx)
    match ctx.members id with
    | none => (-derNonexist, none, ctx)
    | some state =>
      if id ≠ ctx.scSelf then
        -- the state of self is passed on to the target
        match ctx.members ctx.scSelf with
        | none => (-derNonexist, none, ctx)
        | some self => finish [⟨id, state⟩, ⟨ctx.scSelf, self⟩] (swimPiggybackEntries + 2)
      else finish [⟨id, state⟩] (swimPiggybackEntries + 1)

/-- One update of a message, with `ctx_state`; an error leaves
`swim_parse_message`. -/
def parseUpdate (env : CallEnv) (frm : ℕ) (upd : SwimMemberUpdate) (ctx : SwimContext)
    (state : SwimContextState) : Except (ℤ × SwimContext) (SwimContextState × SwimContext) :=
  match upd.smuState.smsStatus with
  | .inactive => .ok (state, ctx)
  | .alive =>
    if upd.smuId = ctx.scSelf then .ok (state, ctx)
    else
      let state := if state = .scsIpinged ∧ upd.smuId = ctx.scTarget then .scsAcked else state
      .ok (state, (ctx.swimMemberAlive env frm upd.smuId upd.smuState.smsIncarnation).2)
  | .suspect =>
    if upd.smuId = ctx.scSelf then
      match ctx.members ctx.scSelf with
      | none => .error (-derNonexist, ctx)
      | some self =>
        if upd.smuState.smsIncarnation < self.smsIncarnation then .ok (state, ctx)
        else
          let (rc, ctx) := ctx.swimUpdatesNotify env ctx.scSelf ctx.scSelf
            { self with smsIncarnation := u64 (self.smsIncarnation + 1) }
          if rc ≠ 0 then .error (rc, ctx) else .ok (state, ctx)
    else .ok (state, (ctx.swimMemberSuspect env frm upd.smuId upd.smuState.smsIncarnation).2)
  | .dead =>
    if upd.smuId = ctx.scSelf then .error (-eShutdown, ctx)
    else .ok (state, (ctx.swimMemberDead env frm upd.smuId upd.smuState.smsIncarnation).2)

/-- The loop of `swim_parse_message` over the updates. -/
def parseLoop (frm : ℕ) : (ℕ → CallEnv) → List SwimMemberUpdate → SwimContext → SwimContextState →
    Except (ℤ × SwimContext) (SwimContextState × SwimContext)
  | _, [], ctx, state => .ok (state, ctx)
  | calls, upd :: upds, ctx, state =>
    match parseUpdate (calls 0) frm upd ctx state with
    | .error e => .error e
    | .ok (state, ctx) => parseLoop frm (fun i => calls (i + 1)) upds ctx state

/-- What a message meets: its updates, and for an indirect ping request the clock
and the allocation of an entry. -/
structure ParseEnv where
  calls : ℕ → CallEnv
  now : ℕ
  allocIping : Bool

/-- Takes the first indirect ping of a member off the list: who asked for it. -/
def takeIping : Option ℕ × SwimContext :=
  match ctx.scIpings.find? fun item => item.siId = id with
  | none => (none, ctx)
  | some item => (some item.siFrom, { ctx with scIpings := removeItem id ctx.scIpings })

/-- The end of the section: the message that answers, by the first update. -/
def answer (env : ParseEnv) (frm : ℕ) (first : SwimMemberUpdate) (ctx : SwimContext) :
    ℤ × Option (ℕ × ℕ) × SwimContext :=
  let id := first.smuId
  if id = ctx.scSelf then (0, some (ctx.scSelf, frm), ctx)
  else if id = frm then
    let (origin, ctx) := ctx.takeIping frm
    (0, origin.map fun origin => (id, origin), ctx)
  else if id ≠ ctx.scTarget ∧ first.smuState.smsStatus = .suspect then
    if env.allocIping = false then (-eNomem, none, ctx)
    else
      -- a request that was passed on is not passed on a second time
      (0, if hasItem id ctx.scIpings then none else some (id, id),
        { ctx with scIpings := ctx.scIpings ++ [⟨id, frm, u64 (env.now + ctx.swimPingTimeout)⟩] })
  else (0, none, ctx)

/-- How the section of `swim_parse_message` ends: with an error, or with a message
about a member to another one. -/
inductive ParseRes where
  | out (rc : ℤ)
  | done (rc : ℤ) (send : Option (ℕ × ℕ))
  deriving DecidableEq

/-- `swim_parse_message` under the lock. -/
def swimParseMessage (env : ParseEnv) (ctx : SwimContext) (frm : ℕ) :
    List SwimMemberUpdate → ParseRes × SwimContext
  | [] => (.done 0 none, ctx)
  | first :: upds =>
    if ctx.scSelf = swimIdInvalid then (.done 0 none, ctx)
    else
      let state :=
        if frm = ctx.scTarget ∧ (ctx.scState = .scsBegin ∨ ctx.scState = .scsDpinged) then .scsAcked
        else ctx.scState
      match parseLoop frm env.calls (first :: upds) ctx state with
      | .error (rc, ctx) => (.out rc, ctx)
      | .ok (state, ctx) =>
        let (rc, send, ctx) := ctx.answer env frm first
        (.done rc send, { ctx with scState := state })

end SwimContext

end Cart
