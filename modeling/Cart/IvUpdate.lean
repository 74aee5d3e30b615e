/-
Updates of an incast variable, hop by hop (`crt_iv.c`).

An update is forwarded from parent to parent until some `ivo_on_update` takes it, and the
replies go back the same way; in the end the originator synchronises the group.  Each
definition is what one node does, given what the functions and the parent's reply return.

Main result: `update_failure_reported_iff`.
-/
import Cart.IvFetch

namespace Cart

variable {V : Type} {hop : UpdateHop} {sync : IvSync} {env : UpdateEnv}

/-- What has been done, and a reply with the result. -/
def replied (acts : List (IvAct V)) (rc : ℤ) : ℤ × List (IvAct V) := (rc, acts ++ [.reply rc])

/-! ### Synchronisation -/

/-- `ivs_mode`. -/
inductive IvSyncMode where
  | none
  | eager
  | lazy
  | unknown
  deriving DecidableEq, Repr

/-- `ivs_event`. -/
inductive IvSyncEvent where
  | update
  | notify
  | unknown
  deriving DecidableEq, Repr

/-- `crt_iv_sync_t`, with the flag `CRT_IV_SYNC_BIDIRECTIONAL`. -/
structure IvSync where
  ivsMode : IvSyncMode
  ivsEvent : IvSyncEvent
  bidirectional : Bool
  deriving DecidableEq, Repr

section

variable (sync : IvSync) (hasValue : Bool) (env : UpdateEnv) (response : ℤ × ℤ)

def checkSyncType : ℤ :=
  if sync.bidirectional then
    if sync.ivsMode ≠ .none then -derInval
    else if sync.ivsEvent ≠ .update then -derInval
    else 0
  else 0

/-- What `crt_ivsync_rpc_issue` meets. -/
structure SyncIssueEnv where
  onRefreshRc : ℤ
  bulkCreateRc : ℤ
  corpcReqCreateRc : ℤ
  cbAllocated : Bool
  keyAllocated : Bool
  reqSendRc : ℤ
  cciRc : ℤ
  deriving DecidableEq, Repr

/-- `crt_ivsync_rpc_issue` up to `exit`: `rc`, and whether the collective was handed on. -/
def ivsyncIssue (env : SyncIssueEnv) : ℤ × Bool :=
  if sync.ivsMode = .none then (0, false)
  else if sync.ivsMode = .unknown then (-derInval, false)
  else if sync.ivsEvent = .unknown then (-derInval, false)
  else if hasValue = true ∧ env.bulkCreateRc ≠ 0 then (env.bulkCreateRc, false)
  else if env.corpcReqCreateRc ≠ 0 then (env.corpcReqCreateRc, false)
  else if env.cbAllocated = false then (-derNomem, false)
  else if sync.ivsMode = .eager ∧ env.keyAllocated = false then (-derNomem, false)
  else (env.reqSendRc, true)

/-- Of an eager synchronisation; it takes only `cci_rc`. -/
def handleIvsyncResponse (updateRc cciRc : ℤ) : List (IvAct V) :=
  [.compCb (if cciRc ≠ 0 then cciRc else updateRc) none, .put .write]

/-- `crt_ivsync_rpc_issue` and the callback of its collective. -/
def crtIvsyncRpcIssue (updateRc : ℤ) (env : SyncIssueEnv) : List (IvAct V) :=
  let issued := ivsyncIssue sync hasValue env
  (if sync.ivsMode ≠ .eager ∨ issued.1 ≠ 0 then
    [.compCb (if issued.1 ≠ 0 then issued.1 else updateRc) none, .put .write]
  else []) ++
  if sync.ivsMode = .eager ∧ issued.2 = true then handleIvsyncResponse updateRc env.cciRc else []

/-! ### The originator -/

/-- What `crt_iv_update_internal` meets. -/
structure UpdateEnv where
  nsFound : Bool
  selfKnown : Bool
  opsFound : Bool
  onHashRc : ℤ
  onGetRc : ℤ
  onUpdateRc : ℤ
  compCbRc : ℤ
  nextNodeRc : ℤ
  cbInfoAllocated : Bool
  issueRc : ℤ
  sync : SyncIssueEnv
  deriving DecidableEq, Repr

/-- `handle_ivupdate_response` on the originator. -/
def originatorResponse (env : SyncIssueEnv) (cciRc outputRc : ℤ) : List (IvAct V) :=
  if sync.bidirectional then [.compCb cciRc none, .put .write]
  else crtIvsyncRpcIssue sync hasValue (if cciRc ≠ 0 then cciRc else outputRc) env

/-- `crt_iv_update_internal`, and what follows; `response` is the reply of the next node. -/
def crtIvUpdateInternal : ℤ × List (IvAct V) :=
  if checkSyncType sync ≠ 0 then (checkSyncType sync, [])
  else if env.nsFound = false then (-derNonexist, [])
  else if env.selfKnown = false then (-derGrpver, [])
  else if env.opsFound = false then (-derInval, [])
  else if env.onHashRc ≠ 0 then (env.onHashRc, [])
  else if env.onUpdateRc = 0 then
    if sync.bidirectional then
      (env.compCbRc, [.get .write env.onGetRc, .compCb 0 none, .put .write])
    else (0, .get .write env.onGetRc :: crtIvsyncRpcIssue sync hasValue 0 env.sync)
  else if env.onUpdateRc = -derIvcbForward then
    -- the callback is not told when the update cannot be forwarded
    if env.nextNodeRc ≠ 0 then (env.nextNodeRc, [.get .write env.onGetRc, .put .write])
    else if env.cbInfoAllocated = false then
      (-derNomem, [.get .write env.onGetRc, .put .write])
    else if env.issueRc ≠ 0 then (env.issueRc, [.get .write env.onGetRc, .put .write])
    else (0, .get .write env.onGetRc ::
      originatorResponse sync hasValue env.sync response.1 response.2)
  else (env.onUpdateRc, [.get .write env.onGetRc, .compCb env.onUpdateRc none, .put .write])

/-- An update needs a value. -/
def crtIvUpdate : ℤ × List (IvAct V) :=
  if hasValue = false then (-derInval, [.compCb (-derInval) none])
  else crtIvUpdateInternal sync true env response

def crtIvInvalidate : ℤ × List (IvAct V) :=
  crtIvUpdateInternal sync false env response

end

/-- The results that the completion callback is told. -/
def completions (acts : List (IvAct V)) : List ℤ :=
  acts.filterMap fun
    | .compCb rc _ => some rc
    | _ => none

/-! ### The nodes on the way -/

/-- What `crt_hdlr_iv_update` and its callbacks meet. -/
structure UpdateHop where
  nsFound : Bool
  opsFound : Bool
  onRefreshRc : ℤ
  onGetRc : ℤ
  bulkCreateRc : ℤ
  cbInfoAllocated : Bool
  transferRc : ℤ
  bciRc : ℤ
  preUpdateAllocated : Bool
  onUpdateRc : ℤ
  updateCbInfoAllocated : Bool
  parentRc : ℤ
  issueRc : ℤ
  bulkFreeRc : ℤ
  onPutRc : ℤ
  backTransferRc : ℤ
  backBciRc : ℤ
  deriving DecidableEq, Repr

namespace UpdateHop

variable (bidirectional hasValue : Bool) (response : ℤ × ℤ) (hop : UpdateHop)

/-- `transfer_back_to_child` and `finalize_transfer_back`. -/
def transferBackToChild : ℤ × List (IvAct V) :=
  replied [.put .write] (if hop.backTransferRc ≠ 0 then hop.backTransferRc else hop.backBciRc)

/-- On a node with a child. -/
def handleIvupdateResponse (cciRc outputRc : ℤ) (hop : UpdateHop) : ℤ × List (IvAct V) :=
  if bidirectional then hop.transferBackToChild
  else if hasValue then
    replied [.put .write]
      (if cciRc ≠ 0 then cciRc else if hop.onPutRc ≠ 0 then hop.onPutRc else outputRc)
  else replied [] (if cciRc ≠ 0 then cciRc else outputRc)

/-- At `send_error` `crt_bulk_free` overwrites the error. -/
def bulkUpdateTransferDoneAux : ℤ × List (IvAct V) :=
  if hop.updateCbInfoAllocated = false then replied [] hop.bulkFreeRc
  else if hop.onUpdateRc = -derIvcbForward then
    if hop.parentRc ≠ 0 then replied [] hop.bulkFreeRc
    else if hop.issueRc ≠ 0 then replied [] hop.bulkFreeRc
    else hop.handleIvupdateResponse bidirectional true response.1 response.2
  else if hop.onUpdateRc = 0 then
    if bidirectional then hop.transferBackToChild else replied [.put .write] hop.onPutRc
  else replied [] hop.bulkFreeRc

def bulkUpdateTransferDone : ℤ × List (IvAct V) :=
  if hop.bciRc ≠ 0 then replied [] hop.bciRc
  else if hop.preUpdateAllocated = false then replied [] (-derNomem)
  else hop.bulkUpdateTransferDoneAux bidirectional response

/-- `crt_hdlr_iv_update` for an invalidation, which comes without a bulk handle. -/
def hdlrInvalidate : ℤ × List (IvAct V) :=
  if hop.onRefreshRc = -derIvcbForward then
    if hop.parentRc ≠ 0 then replied [] (-derOog)
    else if hop.updateCbInfoAllocated = false then replied [] (-derNomem)
    else if hop.issueRc ≠ 0 then replied [] hop.issueRc
    else hop.handleIvupdateResponse bidirectional false response.1 response.2
  else replied [] hop.onRefreshRc

/-- `crt_hdlr_iv_update` for an update, after `ivo_on_get`. -/
def hdlrTransfer : ℤ × List (IvAct V) :=
  if hop.bulkCreateRc ≠ 0 then replied [] hop.bulkCreateRc
  else if hop.cbInfoAllocated = false then replied [] (-derNomem)
  else if hop.transferRc ≠ 0 then replied [] hop.transferRc
  else hop.bulkUpdateTransferDone bidirectional response

/-- The result that the child is told, and what is done until then. -/
def crtHdlrIvUpdate : ℤ × List (IvAct V) :=
  if hop.nsFound = false then replied [] (-derNonexist)
  else if hop.opsFound = false then replied [] (-derInval)
  else if hasValue = false then hop.hdlrInvalidate bidirectional response
  else if hop.onGetRc ≠ 0 then replied [.get .write hop.onGetRc] hop.onGetRc
  else
    let (rc, acts) := hop.hdlrTransfer bidirectional response
    (rc, .get .write 0 :: acts)

end UpdateHop

namespace UpdateHop

variable (hop : UpdateHop)

/-- The value has come over, and `ivo_on_update` is called. -/
def Ready : Prop :=
  hop.nsFound = true ∧ hop.opsFound = true ∧ hop.onGetRc = 0 ∧ hop.bulkCreateRc = 0 ∧
    hop.cbInfoAllocated = true ∧ hop.transferRc = 0 ∧ hop.bciRc = 0 ∧
    hop.preUpdateAllocated = true
deriving Decidable

/-- The node can send the update on to its parent. -/
def Forwards : Prop :=
  hop.updateCbInfoAllocated = true ∧ hop.parentRc = 0 ∧ hop.issueRc = 0
deriving Decidable

/-- The node sends the update on. -/
def SendsOn : Prop :=
  hop.Ready ∧ hop.onUpdateRc = -derIvcbForward ∧ hop.Forwards
deriving Decidable

/-- The value does not get back to the child. -/
def BackFails : Prop := hop.backTransferRc ≠ 0 ∨ hop.backBciRc ≠ 0
deriving Decidable

end UpdateHop

/-- The nodes that an update is forwarded through. -/
inductive UpdateChain where
  | last (hop : UpdateHop) (stops : ¬ hop.SendsOn)
  | relay (hop : UpdateHop) (sends : hop.SendsOn) (cciRc : ℤ) (parent : UpdateChain)

namespace UpdateChain

/-- What the first node of the chain tells the one before it. -/
def reply (bidirectional : Bool) : UpdateChain → ℤ
  | .last hop _ => (hop.crtHdlrIvUpdate (V := Unit) bidirectional true (0, 0)).1
  | .relay hop _ cciRc parent =>
    (hop.crtHdlrIvUpdate (V := Unit) bidirectional true (cciRc, parent.reply bidirectional)).1

end UpdateChain

/-! ### What the synchronisation tells the callback -/

namespace IvSync

variable (sync : IvSync) (hasValue : Bool) (env : SyncIssueEnv)

/-- `crt_ivsync_rpc_issue` ends with an error. -/
def IssueFails : Prop :=
  sync.ivsMode = .unknown ∨ sync.ivsMode ≠ .none ∧
    (sync.ivsEvent = .unknown ∨ (hasValue = true ∧ env.bulkCreateRc ≠ 0) ∨
      env.corpcReqCreateRc ≠ 0 ∨ env.cbAllocated = false ∨
      (sync.ivsMode = .eager ∧ env.keyAllocated = false) ∨ env.reqSendRc ≠ 0)
deriving Decidable

/-- The synchronisation cannot be issued, or an eager one fails. -/
def Fails : Prop :=
  sync.IssueFails hasValue env ∨ sync.ivsMode = .eager ∧ env.cciRc ≠ 0
deriving Decidable

end IvSync

/-- The collective is handed to `crt_req_send`. -/
def IvSync.Sends (sync : IvSync) (hasValue : Bool) (env : SyncIssueEnv) : Prop :=
  sync.ivsMode ≠ .unknown ∧ sync.ivsEvent ≠ .unknown ∧
    (hasValue = true → env.bulkCreateRc = 0) ∧ env.corpcReqCreateRc = 0 ∧
    env.cbAllocated = true ∧ (sync.ivsMode = .eager → env.keyAllocated = true)

section

variable (sync : IvSync) (hasValue : Bool) (env : SyncIssueEnv)

include hasValue

/-- What `crt_ivsync_rpc_issue` can do: nothing, stop with an error, or send. -/
theorem ivsyncIssue_cases : (sync.ivsMode = .none ∧ ivsyncIssue sync hasValue env = (0, false)) ∨
      (sync.ivsMode ≠ .none ∧ ¬ sync.Sends hasValue env ∧
        ∃ rc, rc ≠ 0 ∧ ivsyncIssue sync hasValue env = (rc, false)) ∨
      (sync.ivsMode ≠ .none ∧ sync.Sends hasValue env ∧
        ivsyncIssue sync hasValue env = (env.reqSendRc, true)) := by
  rw [IvSync.Sends, ivsyncIssue]
  by_cases hnone : sync.ivsMode = .none
  · exact .inl ⟨hnone, if_pos hnone⟩
  rw [if_neg hnone]
  refine .inr ?_
  by_cases hmode : sync.ivsMode = .unknown
  · exact .inl ⟨hnone, fun h => h.1 hmode, -derInval, by decide, if_pos hmode⟩
  rw [if_neg hmode]
  by_cases hevent : sync.ivsEvent = .unknown
  · exact .inl ⟨hnone, fun h => h.2.1 hevent, -derInval, by decide, if_pos hevent⟩
  rw [if_neg hevent]
  by_cases hbulk : hasValue = true ∧ env.bulkCreateRc ≠ 0
  · exact .inl ⟨hnone, fun h => hbulk.2 (h.2.2.1 hbulk.1), _, hbulk.2, if_pos hbulk⟩
  rw [if_neg hbulk]
  by_cases hcreate : env.corpcReqCreateRc = 0
  swap
  · exact .inl ⟨hnone, fun h => hcreate h.2.2.2.1, _, hcreate, if_pos hcreate⟩
  rw [if_neg (not_not.mpr hcreate)]
  by_cases hcb : env.cbAllocated = false
  · exact .inl ⟨hnone, fun h => by simp [hcb] at h, -derNomem, by decide, if_pos hcb⟩
  rw [if_neg hcb]
  by_cases hkey : sync.ivsMode = .eager ∧ env.keyAllocated = false
  · refine .inl ⟨hnone, fun h => ?_, -derNomem, by decide, if_pos hkey⟩
    exact absurd (h.2.2.2.2.2 hkey.1) (by simp [hkey.2])
  rw [if_neg hkey]
  refine .inr ⟨hnone, ⟨hmode, hevent, ?_, hcreate, by simpa using hcb, ?_⟩, rfl⟩
  · exact fun hvalue => not_not.mp fun hne => hbulk ⟨hvalue, hne⟩
  · intro heager
    by_contra hne
    exact hkey ⟨heager, by simpa using hne⟩

/-- The errors of `crt_ivsync_rpc_issue`, in terms of what is sent. -/
theorem IvSync.issueFails_iff : sync.IssueFails hasValue env ↔
      sync.ivsMode ≠ .none ∧ (sync.Sends hasValue env → env.reqSendRc ≠ 0) := by
  rw [IssueFails, Sends]
  by_cases hmode : sync.ivsMode = .unknown
  · simp [hmode]
  · simp only [hmode, false_or, ne_eq, ← Bool.not_eq_true]
    tauto

theorem ivsyncIssue_ne_zero_iff :
    (ivsyncIssue sync hasValue env).1 ≠ 0 ↔ sync.IssueFails hasValue env := by
  rw [IvSync.issueFails_iff]
  rcases ivsyncIssue_cases sync hasValue env with
    ⟨hmode, heq⟩ | ⟨hmode, hsends, rc, hrc, heq⟩ | ⟨hmode, hsends, heq⟩
  · simp [hmode, heq]
  · simp [hmode, hsends, heq, hrc]
  · simp [hmode, hsends, heq]

end

theorem ivsyncIssue_sent {hasValue : Bool} {env : SyncIssueEnv} (hmode : sync.ivsMode = .eager)
    (hrc : (ivsyncIssue sync hasValue env).1 = 0) : (ivsyncIssue sync hasValue env).2 = true := by
  rcases ivsyncIssue_cases sync hasValue env with
    ⟨hnone, _⟩ | ⟨_, _, rc, hne, heq⟩ | ⟨_, _, heq⟩
  · cases hmode.symm.trans hnone
  · rw [heq] at hrc
    exact absurd hrc hne
  · rw [heq]

/-- The callback is told an error iff the update has one or the synchronisation
does. -/
theorem completions_crtIvsyncRpcIssue (sync : IvSync) (hasValue : Bool) (updateRc : ℤ)
    (env : SyncIssueEnv) :
    (∃ r ∈ completions (crtIvsyncRpcIssue (V := V) sync hasValue updateRc env), r ≠ 0) ↔
      updateRc ≠ 0 ∨ sync.Fails hasValue env := by
  rw [IvSync.Fails, ← ivsyncIssue_ne_zero_iff, crtIvsyncRpcIssue]
  by_cases hrc : (ivsyncIssue sync hasValue env).1 = 0
  · by_cases hmode : sync.ivsMode = .eager
    · -- only the response calls back
      have hsent := ivsyncIssue_sent hmode hrc
      by_cases hcci : env.cciRc = 0 <;>
        simp [hrc, hmode, hsent, hcci, handleIvsyncResponse, completions]
    · simp [hrc, hmode, completions]
  · simp [hrc, completions]

/-! ### Where an update fails -/

namespace UpdateHop

/-- A node that does not get to `ivo_on_update` tells its child an error. -/
theorem crtHdlrIvUpdate_of_not_ready (h : ¬ hop.Ready) (bidirectional : Bool) (response : ℤ × ℤ) :
    ∃ rc, rc ≠ 0 ∧ hop.crtHdlrIvUpdate (V := V) bidirectional true response =
      (rc, if hop.nsFound = true ∧ hop.opsFound = true then
        [.get .write hop.onGetRc, .reply rc] else [.reply rc]) := by
  rw [Ready] at h
  rw [crtHdlrIvUpdate, hdlrTransfer, bulkUpdateTransferDone]
  by_cases hns : hop.nsFound = true
  swap
  · exact ⟨-derNonexist, by decide, by simp [hns, replied]⟩
  by_cases hops : hop.opsFound = true
  swap
  · exact ⟨-derInval, by decide, by simp [hns, hops, replied]⟩
  by_cases hget : hop.onGetRc = 0
  swap
  · exact ⟨hop.onGetRc, hget, by simp [hns, hops, hget, replied]⟩
  by_cases hbulk : hop.bulkCreateRc = 0
  swap
  · exact ⟨hop.bulkCreateRc, hbulk, by simp [hns, hops, hget, hbulk, replied]⟩
  by_cases hinfo : hop.cbInfoAllocated = true
  swap
  · exact ⟨-derNomem, by decide, by simp [hns, hops, hget, hbulk, hinfo, replied]⟩
  by_cases htransfer : hop.transferRc = 0
  swap
  · exact ⟨hop.transferRc, htransfer,
      by simp [hns, hops, hget, hbulk, hinfo, htransfer, replied]⟩
  by_cases hbci : hop.bciRc = 0
  swap
  · exact ⟨hop.bciRc, hbci, by simp [hns, hops, hget, hbulk, hinfo, htransfer, hbci, replied]⟩
  have hpre : hop.preUpdateAllocated = false := by
    by_contra hpre
    exact h ⟨hns, hops, hget, hbulk, hinfo, htransfer, hbci, by simpa using hpre⟩
  exact ⟨-derNomem, by decide,
    by simp [hns, hops, hget, hbulk, hinfo, htransfer, hbci, hpre, replied]⟩

theorem crtHdlrIvUpdate_of_ready (h : hop.Ready) (bidirectional : Bool) (response : ℤ × ℤ) :
    hop.crtHdlrIvUpdate (V := V) bidirectional true response =
      ((hop.bulkUpdateTransferDoneAux (V := V) bidirectional response).1,
        .get .write 0 :: (hop.bulkUpdateTransferDoneAux bidirectional response).2) := by
  obtain ⟨hns, hops, hget, hbulk, hinfo, htransfer, hbci, hpre⟩ := h
  simp [crtHdlrIvUpdate, hdlrTransfer, bulkUpdateTransferDone, hns, hops, hget, hbulk, hinfo,
    htransfer, hbci, hpre]

theorem reply_of_not_ready (h : ¬ hop.Ready) (bidirectional : Bool) (response : ℤ × ℤ) :
    (hop.crtHdlrIvUpdate (V := V) bidirectional true response).1 ≠ 0 := by
  obtain ⟨rc, hrc, heq⟩ := crtHdlrIvUpdate_of_not_ready (V := V) h bidirectional response
  rwa [heq]

/-- The child is told the result of `crt_bulk_free`. -/
theorem reply_of_stops (hready : hop.Ready) (hstops : ¬ hop.SendsOn)
    (hrc : hop.onUpdateRc ≠ 0) (bidirectional : Bool) (response : ℤ × ℤ) :
    (hop.crtHdlrIvUpdate (V := V) bidirectional true response).1 = hop.bulkFreeRc := by
  rw [crtHdlrIvUpdate_of_ready hready, bulkUpdateTransferDoneAux]
  split_ifs with halloc hforward hparent hissue
  · rfl
  · rfl
  · rfl
  · exact absurd ⟨hready, hforward, by simpa using halloc, not_not.mp hparent,
      not_not.mp hissue⟩ hstops
  · rfl

theorem reply_of_sendsOn (h : hop.SendsOn) (bidirectional : Bool) (response : ℤ × ℤ) :
    (hop.crtHdlrIvUpdate (V := V) bidirectional true response).1 =
      (hop.handleIvupdateResponse (V := V) bidirectional true response.1 response.2).1 := by
  obtain ⟨hready, hforward, halloc, hparent, hissue⟩ := h
  rw [crtHdlrIvUpdate_of_ready hready]
  simp [bulkUpdateTransferDoneAux, halloc, hforward, hparent, hissue]

end UpdateHop

namespace UpdateChain

/-- The update fails at some node that it gets to. -/
def Fails (bidirectional : Bool) : UpdateChain → Prop
  | .last hop _ =>
    ¬ hop.Ready ∨ hop.onUpdateRc ≠ 0 ∨
      (bidirectional = true ∧ hop.updateCbInfoAllocated = true ∧ hop.BackFails)
  | .relay hop _ cciRc parent =>
    cciRc ≠ 0 ∨ parent.Fails bidirectional ∨ (bidirectional = true ∧ hop.BackFails)

/-- The `ivo_on_update` of the last node takes the update. -/
def Accepted : UpdateChain → Prop
  | .last hop _ => hop.Ready ∧ hop.onUpdateRc = 0
  | .relay _ _ _ parent => parent.Accepted

/-- The last node puts success in the place of the error. -/
def Lost : UpdateChain → Prop
  | .last hop _ => hop.Ready ∧ hop.onUpdateRc ≠ 0 ∧ hop.bulkFreeRc = 0
  | .relay hop _ cciRc parent => cciRc = 0 ∧ hop.onPutRc = 0 ∧ parent.Lost

/-- The one-directional updates that fail with a reply of success. -/
theorem lost_iff (chain : UpdateChain) :
    chain.Lost ↔ chain.Fails false ∧ chain.reply false = 0 := by
  induction chain with
  | last hop stops =>
    rw [Lost, Fails, reply]
    by_cases hready : hop.Ready
    · by_cases hrc : hop.onUpdateRc = 0
      · simp [hready, hrc]
      · rw [UpdateHop.reply_of_stops hready stops hrc]
        simp [hready, hrc]
    · have hreply := UpdateHop.reply_of_not_ready (V := Unit) hready false (0, 0)
      simp [hready, hreply]
  | relay hop sends cciRc parent ih =>
    -- what the parent replies is passed on, unless there is something else to tell
    rw [Lost, Fails, reply, UpdateHop.reply_of_sendsOn sends, ih]
    by_cases hcci : cciRc = 0 <;> by_cases hput : hop.onPutRc = 0 <;>
      simp [hcci, hput, UpdateHop.handleIvupdateResponse, replied]

end UpdateChain

/-! ### What gets back to the originator -/

namespace UpdateEnv

/-- The update begins: the arguments are good, and the lookups find what they look
for. -/
def Admitted (sync : IvSync) (env : UpdateEnv) : Prop :=
  checkSyncType sync = 0 ∧ env.nsFound = true ∧ env.selfKnown = true ∧ env.opsFound = true ∧
    env.onHashRc = 0
deriving Decidable

/-- The originator can send the update to the next node. -/
def Forwards (env : UpdateEnv) : Prop :=
  env.nextNodeRc = 0 ∧ env.cbInfoAllocated = true ∧ env.issueRc = 0

/-- The update fails, at the originator or behind it.  `cciRc` is the result of the
originator's RPC. -/
def Fails (sync : IvSync) (env : UpdateEnv) (cciRc : ℤ) (chain : UpdateChain) : Prop :=
  env.Admitted sync ∧
    ((env.onUpdateRc ≠ 0 ∧ env.onUpdateRc ≠ -derIvcbForward) ∨
      (env.onUpdateRc = -derIvcbForward ∧
        (¬ env.Forwards ∨ cciRc ≠ 0 ∨ chain.Fails sync.bidirectional)))

/-- A bidirectional update fails nowhere behind the originator, a one-directional one loses no
failure. -/
def Reported (sync : IvSync) (env : UpdateEnv) (cciRc : ℤ) (chain : UpdateChain) : Prop :=
  env.Admitted sync → env.onUpdateRc = -derIvcbForward →
    env.Forwards ∧ (cciRc ≠ 0 ∨
      if sync.bidirectional then ¬ chain.Fails true
      else ¬ chain.Lost ∨ sync.Fails true env.sync)

section

variable (h : env.Admitted sync)

include h

/-- What is done for an update that the originator has sent to the next node. -/
theorem crtIvUpdate_of_admitted (hforward : env.onUpdateRc = -derIvcbForward)
    (hsends : env.Forwards) (response : ℤ × ℤ) :
    (crtIvUpdate (V := V) sync true env response).2 = .get .write env.onGetRc ::
      originatorResponse sync true env.sync response.1 response.2 := by
  obtain ⟨hsync, hns, hself, hops, hhash⟩ := h
  obtain ⟨hnext, halloc, hissue⟩ := hsends
  have hrc : -derIvcbForward ≠ 0 := by decide
  simp [crtIvUpdate, crtIvUpdateInternal, hsync, hns, hself, hops, hhash, hforward, hrc, hnext,
    halloc, hissue]

/-- The callback is not called when the originator cannot forward the update. -/
theorem completions_of_not_forwards (hforward : env.onUpdateRc = -derIvcbForward)
    (hsends : ¬ env.Forwards) (response : ℤ × ℤ) :
    completions (crtIvUpdate (V := V) sync true env response).2 = [] := by
  obtain ⟨hsync, hns, hself, hops, hhash⟩ := h
  have hrc : -derIvcbForward ≠ 0 := by decide
  simp only [crtIvUpdate, crtIvUpdateInternal, hsync, hns, hself, hops, hhash, hforward, hrc]
  rw [Forwards] at hsends
  by_cases hnext : env.nextNodeRc = 0
  · by_cases halloc : env.cbInfoAllocated = true
    · have hissue : env.issueRc ≠ 0 := fun hissue => hsends ⟨hnext, halloc, hissue⟩
      simp [hnext, halloc, hissue, completions]
    · simp [hnext, halloc, completions]
  · simp [hnext, completions]

theorem completions_of_error (hrc : env.onUpdateRc ≠ 0)
    (hforward : env.onUpdateRc ≠ -derIvcbForward) (response : ℤ × ℤ) :
    completions (crtIvUpdate (V := V) sync true env response).2 = [env.onUpdateRc] := by
  obtain ⟨hsync, hns, hself, hops, hhash⟩ := h
  simp [crtIvUpdate, crtIvUpdateInternal, hsync, hns, hself, hops, hhash, hforward, hrc,
    completions]

theorem completions_of_forwards (hforward : env.onUpdateRc = -derIvcbForward)
    (hsends : env.Forwards) (cciRc outputRc : ℤ) :
    (∃ r ∈ completions (crtIvUpdate (V := V) sync true env (cciRc, outputRc)).2, r ≠ 0) ↔
      cciRc ≠ 0 ∨ (sync.bidirectional = false ∧ (outputRc ≠ 0 ∨ sync.Fails true env.sync)) := by
  rw [crtIvUpdate_of_admitted h hforward hsends]
  show (∃ r ∈ completions (originatorResponse sync true env.sync cciRc outputRc), r ≠ 0) ↔ _
  rw [originatorResponse]
  cases hbi : sync.bidirectional with
  | true => simp [completions]
  | false =>
    simp only [Bool.false_eq_true, if_false, true_and]
    rw [completions_crtIvsyncRpcIssue]
    by_cases hcci : cciRc = 0 <;> simp [hcci]

end

end UpdateEnv

/-- **Which failures of an update get to the callback.** An error is lost at `send_error`, and
in a bidirectional update behind the originator's RPC. -/
theorem update_failure_reported_iff (sync : IvSync) (env : UpdateEnv) (cciRc : ℤ)
    (chain : UpdateChain) :
    (env.Fails sync cciRc chain →
      ∃ r ∈ completions
        (crtIvUpdate (V := V) sync true env (cciRc, chain.reply sync.bidirectional)).2, r ≠ 0) ↔
      env.Reported sync cciRc chain := by
  rw [UpdateEnv.Fails, UpdateEnv.Reported]
  by_cases hadm : env.Admitted sync
  swap
  · simp [hadm]
  by_cases hforward : env.onUpdateRc = -derIvcbForward
  swap
  · -- the originator tells its own error
    simp only [hadm, hforward, true_and, false_and, or_false, false_imp_iff, imp_true_iff,
      iff_true]
    rintro ⟨hrc, -⟩
    rw [UpdateEnv.completions_of_error hadm hrc hforward]
    exact ⟨env.onUpdateRc, List.mem_singleton_self _, hrc⟩
  by_cases hsends : env.Forwards
  swap
  · rw [UpdateEnv.completions_of_not_forwards hadm hforward hsends]
    simp [hadm, hforward, hsends]
  rw [UpdateEnv.completions_of_forwards hadm hforward hsends]
  cases hbi : sync.bidirectional with
  | true =>
    simp only [hadm, hforward, hsends]
    by_cases hcci : cciRc = 0 <;> simp [hcci]
  | false =>
    have hlost := chain.lost_iff
    simp only [hadm, hforward, hsends]
    by_cases hcci : cciRc = 0
    · simp only [hcci, hlost, ne_eq, not_true_eq_false, false_or, true_and, true_imp_iff,
        Bool.false_eq_true, if_false]
      tauto
    · simp [hcci]

/-- An originator whose own `ivo_on_update` forwards, and that meets no error. -/
def sampleUpdate : UpdateEnv where
  nsFound := true
  selfKnown := true
  opsFound := true
  onHashRc := 0
  onGetRc := 0
  onUpdateRc := -derIvcbForward
  compCbRc := 0
  nextNodeRc := 0
  cbInfoAllocated := true
  issueRc := 0
  sync := ⟨0, 0, 0, true, true, 0, 0⟩

/-- A node where nothing fails but `ivo_on_update`, with the given result. -/
def sampleHop (onUpdateRc : ℤ) : UpdateHop where
  nsFound := true
  opsFound := true
  onRefreshRc := 0
  onGetRc := 0
  bulkCreateRc := 0
  cbInfoAllocated := true
  transferRc := 0
  bciRc := 0
  preUpdateAllocated := true
  onUpdateRc := onUpdateRc
  updateCbInfoAllocated := true
  parentRc := 0
  issueRc := 0
  bulkFreeRc := 0
  onPutRc := 0
  backTransferRc := 0
  backBciRc := 0

/-- A node forwards, the root refuses. -/
def refusedChain : UpdateChain :=
  .relay (sampleHop (-derIvcbForward)) (by decide) 0 (.last (sampleHop (-derInval)) (by decide))

/-- The root refuses the update, no node has taken it, and the callback is told
success, in both directions. -/
theorem refused_update_succeeds (bidirectional : Bool) :
    sampleUpdate.Fails ⟨.none, .update, bidirectional⟩ 0 refusedChain ∧
      ¬ refusedChain.Accepted ∧
      completions (crtIvUpdate (V := Unit) ⟨.none, .update, bidirectional⟩ true sampleUpdate
        (0, refusedChain.reply bidirectional)).2 = [0] := by
  have hfails : refusedChain.Fails bidirectional :=
    .inr (.inl (.inr (.inl (by decide))))
  refine ⟨⟨?_, .inr ⟨rfl, .inr (.inr hfails)⟩⟩, ?_, ?_⟩
  · cases bidirectional <;> decide
  · rintro ⟨-, hrc⟩
    exact absurd hrc (by decide)
  · cases bidirectional <;> decide

theorem update_error_lost :
    (sampleUpdate.Fails ⟨.none, .update, false⟩ 0 refusedChain ∧ ¬ refusedChain.Accepted ∧
      completions (crtIvUpdate (V := Unit) ⟨.none, .update, false⟩ true sampleUpdate
        (0, refusedChain.reply false)).2 = [0]) ∧
    (sampleUpdate.Fails ⟨.none, .update, true⟩ 0 refusedChain ∧ ¬ refusedChain.Accepted ∧
      completions (crtIvUpdate (V := Unit) ⟨.none, .update, true⟩ true sampleUpdate
        (0, refusedChain.reply true)).2 = [0]) :=
  ⟨refused_update_succeeds false, refused_update_succeeds true⟩

end Cart
