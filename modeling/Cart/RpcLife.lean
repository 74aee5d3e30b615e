/-
The life of an RPC (`crt_rpc.c`, `crt_context.c`, `crt_hg.c`).

`crt_req_send` tracks an RPC and sends it, perhaps after a lookup.  It can then be completed by
a submission, the callbacks of the lookups, the timeout handler, Mercury, or an abort; each of
these is a step.  A callback is a step of its own where nothing more is done to the RPC after
it (`failed`, `finishing`).
-/
import Cart.ContextRun

namespace Cart

/-- `crp_complete_cb` and `crp_arg`: the caller's, or that of a URI lookup. -/
inductive CompleteCb (ι : Type) where
  | user
  | uriLookup (parent : ι)
  deriving DecidableEq

/-- What concerns the completion of an RPC, and how often its callback was invoked. -/
structure RpcLife (ι : Type) where
  crpCompleteCb : Option (CompleteCb ι)
  crpOnWire : Bool
  crpUlReq : Option ι
  crpUlRetry : ℕ
  -- `crt_req_hg_addr_lookup_cb` is to come
  addrPending : Bool
  -- `crt_hg_req_send_cb` is to come
  hgPending : Bool
  -- `crt_req_send` of a lookup request has failed, its completion is to come
  failed : Option ℤ
  -- the callback of `crt_hg_req_send_cb` was invoked, this state is to be set
  finishing : Option RpcState
  calls : ℕ
  deriving DecidableEq

/-- `crt_rpc_priv_init`. -/
def RpcLife.init (ι : Type) : RpcLife ι := ⟨none, false, none, 0, false, false, none, none, 0⟩

def crtUriLookupRetryMax : ℕ := 8

/-- What `HG_Forward` returns: `HG_SUCCESS`, `HG_NA_ERROR` or another error. -/
inductive HgForward where
  | success
  | naError
  | error

/-- What Mercury's completion reports: `HG_SUCCESS`, `HG_CANCELED` or another
error. -/
inductive HgRet where
  | success
  | canceled
  | error

/-- What `crt_req_send_internal` meets. -/
structure SendEnv where
  -- `crt_req_ep_lc_lookup`: its result, and whether it found an address and a URI
  lcRc : ℤ
  addrCached : Bool
  uriExists : Bool
  -- `crt_hg_addr_lookup`
  addrRc : ℤ
  -- `crt_hg_req_create` and `HG_Forward`
  hgCreateRc : ℤ
  forward : HgForward
  heap : HeapEnv
  -- `crt_req_uri_lookup`: an error before any request, or the RPC is to itself
  uriRc : ℤ
  toSelf : Bool
  -- `crt_lc_hg_addr_fill`: its result, and whether it found an address
  fillRc : ℤ
  addrFilled : Bool

/-- What a step meets. -/
structure RpcEnv (ι : Type) where
  deadlines : ι → DeadlineEnv
  send : ι → SendEnv
  -- `crp_have_ep`, and the creation of the endpoint in track
  haveEp : Bool
  epiRc : ℤ
  -- `crt_req_create` of a lookup request
  ulReq : ι
  ulCreateRc : ℤ
  -- the lookup's reply, and the functions that use it
  ulRc : ℤ
  uriInsertRc : ℤ
  uriFillRc : ℤ
  psrReloadRc : ℤ
  -- `crt_grp_lc_addr_insert`
  addrInsertRc : ℤ
  -- the reply: `HG_Get_output` or `cch_rc`
  replyRc : ℤ
  -- `CRT_RANK_PRESENT`
  present : Bool
  -- `HG_Cancel`
  cancelRc : ℤ

/-- An assertion on the state of an RPC, or on the context. -/
inductive Fault where
  | state
  | context
  deriving DecidableEq

/-- A context and the lives of its RPCs. -/
structure RpcWorld (ι : Type) where
  base : CtxState ι
  life : ι → RpcLife ι

/-- The state in which `crt_rpc_complete` leaves an RPC. -/
def completeState (rc : ℤ) : RpcState :=
  if rc = -derCanceled then .canceled
  else if rc = -derTimedout then .timeout
  else if rc = -derUnreach then .fwdUnreach
  else .completed

namespace RpcWorld

variable {ι : Type} [DecidableEq ι]

/-- A new context, and RPCs that were created and not sent. -/
def create (null : ι) : RpcWorld ι := ⟨.create null, fun _ => .init ι⟩

variable (cfg : CtxCfg ι) (env : RpcEnv ι) (w : RpcWorld ι) (r : ι)

def state : RpcState := (w.base.ctx.rpcs r).crpState

def setState (w : RpcWorld ι) (r : ι) (state : RpcState) : RpcWorld ι :=
  { w with base := { w.base with ctx := w.base.ctx.setState r state } }

def setLife (life : RpcLife ι) : RpcWorld ι :=
  { w with life := Function.update w.life r life }

/-- A result of the context. -/
def ofCtx {α : Type} : Option α → Except Fault α
  | some a => .ok a
  | none => .error .context

/-! ### Sending -/

/-- `crt_context_req_untrack`, with its assertion on the state. -/
def untrack (cfg : CtxCfg ι) (env : RpcEnv ι) (w : RpcWorld ι) (r : ι) : Except Fault (RpcWorld ι) :=
  if cfg.opcUriLookup r = false ∧ (w.state r).untrackable = false then .error .state
  else (ofCtx (w.base.untrack cfg env.deadlines r)).map fun base => { w with base := base }

/-- `crt_req_force_timeout`, unless the RPC has timed out. -/
def forceTimeout : Except Fault (RpcWorld ι) :=
  if (w.base.ctx.rpcs r).crtReqTimedout then .ok w
  else (ofCtx (w.base.ctx.crtReqForceTimeout cfg (env.send r).heap r)).map fun ctx =>
    { w with base := w.base.renewed r ctx }

def crtHgReqSend : Except Fault (ℤ × RpcWorld ι) :=
  match (env.send r).forward with
  | .success => .ok (0, w.setLife r { w.life r with crpOnWire := true, hgPending := true })
  | .naError => (w.forceTimeout cfg env r).map fun w => (0, w.setState r .fwdUnreach)
  | .error => .ok (-derHg, w)

def crtReqSendImmediately : Except Fault (ℤ × RpcWorld ι) :=
  if (env.send r).hgCreateRc ≠ 0 then .ok ((env.send r).hgCreateRc, w)
  else (w.setState r .reqSent).crtHgReqSend cfg env r

/-- With the state it is called in. -/
def crtReqHgAddrLookup : ℤ × RpcWorld ι :=
  let w := w.setState r .addrLookup
  if (env.send r).addrRc ≠ 0 then ((env.send r).addrRc, w)
  else (0, w.setLife r { w.life r with addrPending := true })

/-- The end of `crt_req_send_internal`. -/
def initedOnError : ℤ × RpcWorld ι → ℤ × RpcWorld ι
  | (rc, w) => (rc, if rc = 0 then w else w.setState r .inited)

/-- `crt_req_send_internal` for an RPC in `RPC_STATE_URI_LOOKUP`. -/
def sendWithUri : Except Fault (ℤ × RpcWorld ι) :=
  (if (env.send r).fillRc ≠ 0 then .ok ((env.send r).fillRc, w)
    else if (env.send r).addrFilled then w.crtReqSendImmediately cfg env r
    else .ok (w.crtReqHgAddrLookup env r)).map (initedOnError r)

/-- `crt_req_send_internal`, where `uriLookup` is `crt_req_uri_lookup`. -/
def sendInternalWith (uriLookup : RpcWorld ι → Except Fault (ℤ × RpcWorld ι)) (cfg : CtxCfg ι)
    (env : RpcEnv ι) (w : RpcWorld ι) (r : ι) : Except Fault (ℤ × RpcWorld ι) :=
  match w.state r with
  | .queued | .inited =>
    let w := w.setState r .inited
    (if (env.send r).lcRc ≠ 0 then .ok ((env.send r).lcRc, w)
      else if (env.send r).addrCached then w.crtReqSendImmediately cfg env r
      else if (env.send r).uriExists then .ok (w.crtReqHgAddrLookup env r)
      else uriLookup (w.setState r .uriLookup)).map (initedOnError r)
  | .uriLookup => w.sendWithUri cfg env r
  | .addrLookup => (w.crtReqSendImmediately cfg env r).map (initedOnError r)
  | .reqSent | .replyRecved | .completed | .canceled | .timeout | .fwdUnreach =>
    .ok (initedOnError r (-derProto, w))

/-- `crt_req_uri_lookup` for a lookup request, which goes to a rank whose URI is
known, to itself, or nowhere. -/
def uriLookupLocal : Except Fault (ℤ × RpcWorld ι) :=
  if (env.send r).uriRc ≠ 0 then .ok ((env.send r).uriRc, w) else w.sendWithUri cfg env r

/-- `crt_req_send` up to the completion of an RPC that cannot be sent; `send` is
`crt_req_send_internal`. -/
def trackAndSend (send : RpcWorld ι → Except Fault (ℤ × RpcWorld ι)) (cfg : CtxCfg ι)
    (env : RpcEnv ι) (w : RpcWorld ι) (r : ι) : Except Fault (ℤ × RpcWorld ι) :=
  (ofCtx (w.base.track cfg (env.deadlines r) env.epiRc r)).bind fun (res, base) =>
    let w := { w with base := base }
    match res with
    | .inflighq => (send w).bind fun (rc, w) =>
      if rc = 0 then .ok (0, w) else (w.untrack cfg env r).map fun w => (rc, w)
    | .waitq => .ok (0, w)
    | .error rc => .ok (rc, w)

/-- `crt_req_send` returns `0`, since the lookup request has a callback. -/
def crtReqUriLookupByRpc : Except Fault (ℤ × RpcWorld ι) :=
  if env.ulCreateRc ≠ 0 then .ok (env.ulCreateRc, w)
  else
    let u := env.ulReq
    let w := w.setLife r { w.life r with crpUlReq := some u }
    let w := w.setLife u { w.life u with crpCompleteCb := some (.uriLookup r) }
    (w.trackAndSend (fun w => w.sendInternalWith (fun w => w.uriLookupLocal cfg env u) cfg env u)
      cfg env u).map fun (rc, w) =>
        (0, if rc = 0 then w else w.setLife u { w.life u with failed := some rc })

def crtReqUriLookup : Except Fault (ℤ × RpcWorld ι) :=
  if (env.send r).uriRc ≠ 0 then .ok ((env.send r).uriRc, w)
  else if (env.send r).toSelf then w.sendWithUri cfg env r
  else w.crtReqUriLookupByRpc cfg env r

def crtReqSendInternal : Except Fault (ℤ × RpcWorld ι) :=
  w.sendInternalWith (fun w =>
    if cfg.opcUriLookup r then w.uriLookupLocal cfg env r else w.crtReqUriLookup cfg env r) cfg env r

/-! ### Completion -/

/-- Counts a call of the callback. -/
def called : RpcWorld ι :=
  if (w.life r).crpCompleteCb = none then w
  else w.setLife r { w.life r with calls := (w.life r).calls + 1 }

def crtReqUriLookupRetry (cfg : CtxCfg ι) (env : RpcEnv ι) (w : RpcWorld ι) (p : ι) :
    Except Fault (ℤ × RpcWorld ι) :=
  let w := w.setLife p { w.life p with crpUlReq := none }
  if env.psrReloadRc ≠ 0 then .ok (env.psrReloadRc, w)
  else (ofCtx (w.base.ctx.crtReqUriLookupRetry (env.deadlines p) p)).bind fun (rc, ctx) =>
    let w := { w with base := w.base.renewed p ctx }
    if rc ≠ 0 then .ok (rc, w) else (w.setState p .inited).crtReqSendInternal cfg env p

/-- `crt_req_uri_lookup_by_rpc_cb` up to its end: the return code, and whether
the lookup was retried. -/
def uriLookupOutcome (p : ι) (rc : ℤ) : Except Fault (ℤ × Bool × RpcWorld ι) :=
  if rc ≠ 0 then
    if rc = -derOog then .ok (-derOog, false, w)
    else
      let retry := (w.life p).crpUlRetry
      let w := w.setLife p { w.life p with crpUlRetry := retry + 1 }
      if retry < crtUriLookupRetryMax then
        (w.crtReqUriLookupRetry cfg env p).map fun (rc, w) => (rc, true, w)
      else .ok (rc, false, w)
  else if env.ulRc ≠ 0 then .ok (env.ulRc, false, w)
  else if env.uriInsertRc ≠ 0 then .ok (env.uriInsertRc, false, w)
  else if env.uriFillRc ≠ 0 then .ok (env.uriFillRc, false, w)
  else (w.crtReqSendInternal cfg env p).map fun (rc, w) => (rc, false, w)

/-- For the RPC `p`, with the result of the request `u`. -/
def crtReqUriLookupByRpcCb (p u : ι) (rc : ℤ) : Except Fault (RpcWorld ι) :=
  if w.state p ≠ .uriLookup ∨ (w.life p).crpUlReq ≠ some u then .error .state
  else (w.uriLookupOutcome cfg env p rc).bind fun (rc, retried, w) =>
    (if rc = 0 then .ok w
      else (w.untrack cfg env p).map fun w => (w.setState p (completeState rc)).called p).map fun w =>
        if retried then w else w.setLife p { w.life p with crpUlReq := none }

/-- Invokes `crp_complete_cb`. -/
def invoke (rc : ℤ) : Except Fault (RpcWorld ι) :=
  match (w.life r).crpCompleteCb with
  | some (.uriLookup p) => (w.called r).crtReqUriLookupByRpcCb cfg env p r rc
  | some .user | none => .ok (w.called r)

def crtRpcComplete (rc : ℤ) : Except Fault (RpcWorld ι) :=
  (w.setState r (completeState rc)).invoke cfg env r rc

/-- An RPC that cannot be sent is untracked and completed. -/
def untrackAndComplete (rc : ℤ) : Except Fault (RpcWorld ι) :=
  (w.untrack cfg env r).bind fun w => w.crtRpcComplete cfg env r rc

/-! ### What can happen to an RPC -/

/-- With a callback. -/
def crtReqSend : Except Fault (RpcWorld ι) :=
  let w := w.setLife r { w.life r with crpCompleteCb := some .user }
  (if env.haveEp = false then .ok (-derInval, w)
    else w.trackAndSend (fun w => w.crtReqSendInternal cfg env r) cfg env r).bind fun (rc, w) =>
      if rc = 0 then .ok w else w.crtRpcComplete cfg env r rc

/-- The loop over the submit list at the end of `crt_context_req_untrack`. -/
def resubmit : Except Fault (RpcWorld ι) :=
  let w := { w with base := { w.base with submit := w.base.submit.filter fun x => x ≠ r } }
  (w.crtReqSendInternal cfg env r).bind fun (rc, w) =>
    if rc = 0 then .ok w else (w.setState r .inited).untrackAndComplete cfg env r rc

def crtReqHgAddrLookupCb : Except Fault (RpcWorld ι) :=
  let w := w.setLife r { w.life r with addrPending := false }
  if w.state r = .fwdUnreach then .ok w
  else if env.addrInsertRc ≠ 0 then
    (w.setState r .fwdUnreach).untrackAndComplete cfg env r env.addrInsertRc
  else (w.crtReqSendInternal cfg env r).bind fun (rc, w) =>
    if rc = 0 then .ok w else w.untrackAndComplete cfg env r rc

/-- Up to the callback. -/
def crtHgReqSendCb : HgRet → Except Fault (RpcWorld ι)
  | .success =>
    let w := w.setLife r { w.life r with hgPending := false, finishing := some .completed }
    (w.setState r .replyRecved).invoke cfg env r env.replyRc
  | .canceled =>
    let rc := if env.present = false then -derEvicted
      else if (w.base.ctx.rpcs r).crtReqTimedout then -derTimedout else -derCanceled
    let w := w.setLife r { w.life r with hgPending := false, finishing := some .canceled }
    (w.setState r .canceled).invoke cfg env r rc
  | .error =>
    let w := w.setLife r { w.life r with hgPending := false, finishing := some .completed }
    w.invoke cfg env r (-derHg)

/-- `crt_hg_req_send_cb` after the callback. -/
def hgFinish : Except Fault (RpcWorld ι) :=
  match (w.life r).finishing with
  | none => .ok w
  | some state =>
    let w := w.setLife r { w.life r with finishing := none }
    (w.setState r state).untrack cfg env r

/-- The completion of a lookup request that could not be sent. -/
def lookupFailed (u : ι) : Except Fault (RpcWorld ι) :=
  match (w.life u).failed with
  | none => .ok w
  | some rc => (w.setLife u { w.life u with failed := none }).crtRpcComplete cfg env u rc

def crtReqAbort : Except Fault (ℤ × RpcWorld ι) :=
  if w.state r = .canceled ∨ w.state r = .completed then .ok (-derAlready, w)
  else if w.state r ≠ .reqSent ∨ (w.life r).crpOnWire = false then
    (w.crtRpcComplete cfg env r (-derCanceled)).map fun w => (0, w)
  else if env.cancelRc ≠ 0 then
    (w.crtRpcComplete cfg env r env.cancelRc).map fun w => (env.cancelRc, w)
  else .ok (0, w)

/-- `crt_req_timeout_hdlr` for an RPC whose timer is not reset. -/
def timedOut : Except Fault (RpcWorld ι) :=
  match w.state r with
  | .uriLookup =>
    match (w.life r).crpUlReq with
    | none => .error .state
    | some u => (w.crtReqAbort cfg env u).map Prod.snd
  | .addrLookup | .fwdUnreach => w.untrackAndComplete cfg env r (-derUnreach)
  | .inited | .queued | .reqSent | .replyRecved | .completed | .canceled | .timeout =>
    if (w.life r).crpOnWire then
      (w.crtReqAbort cfg env r).bind fun (rc, w) => if rc ≠ 0 then w.untrack cfg env r else .ok w
    else .ok w

def crtReqTimeoutHdlr : Except Fault (RpcWorld ι) :=
  (ofCtx (w.base.ctx.crtReqTimeoutReset cfg (env.deadlines r) env.present r)).bind fun (reset, ctx) =>
    let w := { w with base := w.base.renewed r ctx }
    if reset then .ok w else w.timedOut cfg env r

/-- One round of the loop of `crt_ctx_epi_abort` over the wait queue of the
endpoint `k`. -/
def epiAbort (k : ℕ) : Except Fault (RpcWorld ι) :=
  let epi := w.base.ctx.epis k
  match epi.epiReqWaitq with
  | [] => .ok w
  | r :: ws =>
    if epi.epiReqWaitNum ≤ 0 then .error .context
    else if w.state r ≠ .queued then .error .state
    else
      let ctx := w.base.ctx.setEpi k
        { epi with epiReqWaitq := ws, epiReqWaitNum := epi.epiReqWaitNum - 1 }
      { w with base := { w.base with ctx := ctx } }.crtRpcComplete cfg env r (-derCanceled)

end RpcWorld

/-! ### Runs -/

/-- What can happen.  `crt_ctx_epi_abort` aborts those in flight by
`crt_req_abort`, as the application does. -/
inductive RpcEvent (ι : Type) where
  | send (r : ι)
  | resubmit (r : ι)
  | addrLookupCb (r : ι)
  | hgReqSendCb (r : ι) (ret : HgRet)
  | hgFinish (r : ι)
  | lookupFailed (u : ι)
  | timeoutCheck (now : ℕ)
  | timeoutHdlr (r : ι)
  | abort (r : ι)
  | epiAbort (k : ℕ)

namespace RpcWorld

variable {ι : Type} [DecidableEq ι]

variable (cfg : CtxCfg ι) (w : RpcWorld ι)

/-- An RPC is sent once, callbacks come once, and lookup requests are internal and new. -/
def Enabled : RpcEvent ι → Prop
  | .send r => (w.life r).crpCompleteCb = none ∧ cfg.opcUriLookup r = false
  | .resubmit r => r ∈ w.base.submit
  | .addrLookupCb r => (w.life r).addrPending = true
  | .hgReqSendCb r _ => (w.life r).hgPending = true
  | .hgFinish r => (w.life r).finishing ≠ none
  | .lookupFailed u => (w.life u).failed ≠ none
  | .timeoutCheck _ => True
  | .timeoutHdlr r => r ∈ w.base.expired
  | .abort r => cfg.opcUriLookup r = false
  | .epiAbort _ => True

instance (e : RpcEvent ι) : Decidable (w.Enabled cfg e) := by
  cases e <;> dsimp only [Enabled] <;> infer_instance

def step (cfg : CtxCfg ι) (w : RpcWorld ι) (env : RpcEnv ι) : RpcEvent ι → Except Fault (RpcWorld ι)
  | .send r => w.crtReqSend cfg env r
  | .resubmit r => w.resubmit cfg env r
  | .addrLookupCb r => w.crtReqHgAddrLookupCb cfg env r
  | .hgReqSendCb r ret => w.crtHgReqSendCb cfg env r ret
  | .hgFinish r => w.hgFinish cfg env r
  | .lookupFailed u => w.lookupFailed cfg env u
  | .timeoutCheck now =>
    (ofCtx (w.base.step cfg (.timeoutCheck now))).map fun base => { w with base := base }
  | .timeoutHdlr r => w.crtReqTimeoutHdlr cfg env r
  | .abort r => (w.crtReqAbort cfg env r).map Prod.snd
  | .epiAbort k => w.epiAbort cfg env k

/-- The lookup request of the environment is new. -/
def NewLookup (env : RpcEnv ι) : Prop :=
  cfg.opcUriLookup env.ulReq = true ∧ (w.life env.ulReq).crpCompleteCb = none

end RpcWorld

/-- The runs of a context and its RPCs. -/
def rpcLts {ι : Type} [DecidableEq ι] (cfg : CtxCfg ι) (null : ι) :
    Lts (RpcWorld ι) (RpcEnv ι × RpcEvent ι) where
  init w := w = .create null
  enabled w e := w.NewLookup cfg e.1 ∧ w.Enabled cfg e.2
  step w e := (w.step cfg e.1 e.2).toOption

instance {ι : Type} [DecidableEq ι] (cfg : CtxCfg ι) (null : ι) (w : RpcWorld ι)
    (e : RpcEnv ι × RpcEvent ι) : Decidable ((rpcLts cfg null).enabled w e) :=
  inferInstanceAs (Decidable ((cfg.opcUriLookup e.1.ulReq = true ∧
    (w.life e.1.ulReq).crpCompleteCb = none) ∧ w.Enabled cfg e.2))

end Cart
