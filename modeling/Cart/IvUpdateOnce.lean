/-
The completion callback of an update (`crt_iv.c`, `crt_corpc.c`, `crt_rpc.c`).

It is called by the originator itself, by the end of `crt_ivsync_rpc_issue`, and by
`handle_ivsync_response`.  The last two go by what `crt_req_send` returns, which can be an
error although the collective completes.  Below, the pieces of the collective on the originator
(`Cart.CorpcNode`) interleave with both in all orders.

Main results: `calls_perm_completions`, `iv_update_once_iff`, `iv_update_twice`.
-/
import Cart.CorpcCompletion
import Cart.IvUpdate

open List

namespace Cart

open CorpcNode

variable {V ι : Type}

/-! ### The call -/

/-- The operation is over, the group is synchronised, or the next node asked. -/
inductive UpdateNext where
  | ended (calls : List ℤ)
  | sync
  | await
  deriving DecidableEq, Repr

/-- `crt_iv_update_internal`, up to the synchronisation or the reply of the next
node. -/
def crtIvUpdateNext (sync : IvSync) (env : UpdateEnv) : UpdateNext :=
  if checkSyncType sync ≠ 0 then .ended []
  else if env.nsFound = false then .ended []
  else if env.selfKnown = false then .ended []
  else if env.opsFound = false then .ended []
  else if env.onHashRc ≠ 0 then .ended []
  else if env.onUpdateRc = 0 then if sync.bidirectional then .ended [0] else .sync
  else if env.onUpdateRc = -derIvcbForward then
    if env.nextNodeRc ≠ 0 then .ended []
    else if env.cbInfoAllocated = false then .ended []
    else if env.issueRc ≠ 0 then .ended []
    else .await
  else .ended [env.onUpdateRc]

/-- The two ways to ask for an update; `crt_iv_update` has a value or not. -/
inductive UpdateApi where
  | update (hasValue : Bool)
  | invalidate
  deriving DecidableEq, Repr

/-- A call, in a group in which the process has the rank `gp_self`, and the rank
`pri_root` in the primary group. -/
structure UpdateCall where
  api : UpdateApi
  sync : IvSync
  gpSelf : ℕ
  priRoot : ℕ
  deriving DecidableEq, Repr

namespace UpdateCall

def hasValue (c : UpdateCall) : Bool :=
  match c.api with
  | .update hasValue => hasValue
  | .invalidate => false

variable (c : UpdateCall) (updateRc : ℤ) (env : UpdateEnv)

/-- What the call comes to. -/
def next : UpdateNext :=
  match c.api with
  | .update false => .ended [-derInval]
  | .update true | .invalidate => crtIvUpdateNext c.sync env

/-- What is done for the call, by `crtIvUpdate` and `crtIvInvalidate`. -/
def acts (response : ℤ × ℤ) : List (IvAct V) :=
  match c.api with
  | .update hasValue => (crtIvUpdate c.sync hasValue env response).2
  | .invalidate => (crtIvInvalidate c.sync env response).2

/-- The collective on the originator, which leaves its own rank out. -/
def cfg : CorpcCfg where
  coOps := true
  coRootExcluded := c.priRoot == c.gpSelf
  crOutputSize := 4
  amRoot := true

/-- The call of the callback at `exit` of `crt_ivsync_rpc_issue`, with `rc`. -/
def exitCalls (rc : ℤ) : List ℤ :=
  if c.sync.ivsMode ≠ .eager ∨ rc ≠ 0 then [if rc ≠ 0 then rc else updateRc] else []

/-- The call of the callback by `handle_ivsync_response`. -/
def responseCalls (cciRc : ℤ) : List ℤ :=
  if c.sync.ivsMode = .eager then [if cciRc ≠ 0 then cciRc else updateRc] else []

end UpdateCall

/-! ### The operation -/

/-- Where the originator is. -/
inductive UpdatePhase where
  | idle
  | awaiting
  | sending
  | returned
  | ended
  deriving DecidableEq, Repr

/-- The state of an operation; `iv_sync_cb` can be freed, and used after that. -/
structure UpdateOp (ι : Type) where
  phase : UpdatePhase
  updateRc : ℤ
  node : CorpcNode ι
  hdlrRc : ℤ
  responses : ℕ
  freed : Bool
  misused : Bool
  calls : List ℤ
  deriving DecidableEq, Repr

/-- What happens next. -/
inductive UpdateEvent (ι : Type) where
  | call (env : UpdateEnv)
  | reply (cciRc outputRc : ℤ) (env : SyncIssueEnv)
  | node (e : CorpcEvent ι)
  | response
  | exit

/-- `rc` of `crt_corpc_req_hdlr`. -/
def reqHdlrRc {ι : Type} (rc : ℤ) : CorpcEvent ι → ℤ
  | .start (.fail rc') => rc'
  | .start (.children _) => 0
  | .create rc' => rc'
  | .dispatch _ => 0
  | .forwardDone | .localDone | .childReply _ _ _ | .localReply => rc

namespace UpdateOp

def init (ι : Type) : UpdateOp ι := ⟨.idle, 0, .init ι, 0, 0, false, false, []⟩

section

variable (c : UpdateCall) (cciRc : ℤ) (s : UpdateOp ι)

/-- `crt_ivsync_rpc_issue` up to `crt_req_send`, or to its end if it does not come to
that. -/
def issue (env : SyncIssueEnv) (updateRc : ℤ) (s : UpdateOp ι) : UpdateOp ι :=
  if (ivsyncIssue c.sync c.hasValue env).2 then { s with phase := .sending, updateRc := updateRc }
  else { s with
    phase := .ended
    calls := s.calls ++ c.exitCalls updateRc (ivsyncIssue c.sync c.hasValue env).1 }

/-- The call. -/
def start (env : UpdateEnv) (s : UpdateOp ι) : UpdateOp ι :=
  match c.next env with
  | .ended calls => { s with phase := .ended, calls := s.calls ++ calls }
  | .sync => s.issue c env.sync 0
  | .await => { s with phase := .awaiting }

/-- `handle_ivupdate_response` on the originator. -/
def handleReply (outputRc : ℤ) (env : SyncIssueEnv) (s : UpdateOp ι) : UpdateOp ι :=
  if c.sync.bidirectional then { s with phase := .ended, calls := s.calls ++ [cciRc] }
  else s.issue c env (if cciRc ≠ 0 then cciRc else outputRc)

/-- `handle_ivsync_response`; it frees `iv_sync_cb`, which keeps its contents. -/
def handleResponse : UpdateOp ι :=
  { s with
    responses := s.responses + 1
    misused := s.misused || s.freed
    freed := true
    calls := s.calls ++ c.responseCalls s.updateRc cciRc }

/-- Of `crt_ivsync_rpc_issue`; `iv_sync_cb` is freed if there is an error. -/
def exit : UpdateOp ι :=
  { s with
    phase := .returned
    misused := s.misused || (s.freed && s.hdlrRc != 0)
    freed := s.freed || s.hdlrRc != 0
    calls := s.calls ++ c.exitCalls s.updateRc s.hdlrRc }

end

variable [DecidableEq ι]

/-- One piece of code. -/
def step (c : UpdateCall) (s : UpdateOp ι) : UpdateEvent ι → Option (UpdateOp ι)
  | .call env => some (s.start c env)
  | .reply cciRc outputRc env => some (s.handleReply c cciRc outputRc env)
  | .node e => (s.node.step c.cfg e).map fun n =>
      { s with node := n, hdlrRc := reqHdlrRc s.hdlrRc e }
  | .response => (s.node.completed[s.responses]?).map fun cciRc => s.handleResponse c cciRc
  | .exit => some (s.exit c)

/-- When a piece of code can run. -/
def Enabled (s : UpdateOp ι) : UpdateEvent ι → Prop
  | .call _ => s.phase = .idle
  | .reply _ _ _ => s.phase = .awaiting
  | .node e => (s.phase = .sending ∨ s.phase = .returned) ∧ s.node.Enabled e
  | .response =>
    (s.phase = .sending ∨ s.phase = .returned) ∧ s.responses < s.node.completed.length
  | .exit => s.phase = .sending ∧ s.node.pc = .finished

instance (s : UpdateOp ι) (e : UpdateEvent ι) : Decidable (s.Enabled e) := by
  cases e <;> dsimp only [Enabled] <;> infer_instance

omit [DecidableEq ι] in
/-- Nothing is left to be done but, possibly, by other nodes. -/
def Ended (s : UpdateOp ι) : Prop := s.phase = .ended ∨ s.phase = .returned ∧ 0 < s.responses

end UpdateOp

/-- The operation of a call. -/
@[reducible]
def updateLts (c : UpdateCall) (ι : Type) [DecidableEq ι] :
    Lts (UpdateOp ι) (UpdateEvent ι) where
  init s := s = UpdateOp.init ι
  enabled := UpdateOp.Enabled
  step := UpdateOp.step c

/-- The collective fails while it is forwarded. -/
def UpdateEvent.Fails {ι : Type} : UpdateEvent ι → Prop
  | .node (.start (.fail _)) => True
  | .node (.create rc) => rc ≠ 0
  | _ => False

instance {ι : Type} (e : UpdateEvent ι) : Decidable e.Fails := by
  unfold UpdateEvent.Fails
  split <;> infer_instance

/-- An eager collective does not fail while it is forwarded, unless the root runs the handler.
-/
def UpdateCall.Allows {ι : Type} (c : UpdateCall) (e : UpdateEvent ι) : Prop :=
  c.sync.ivsMode = .eager → c.priRoot = c.gpSelf → ¬ e.Fails

/-! ### The call, and what the callback is told -/

namespace UpdateCall

variable (c : UpdateCall)

/-- What the callback is told, if the originator comes to this. -/
def told (sync : IvSync) (hasValue : Bool) (env : UpdateEnv) (response : ℤ × ℤ) :
    UpdateNext → List ℤ
  | .ended calls => calls
  | .sync => completions (crtIvsyncRpcIssue (V := Unit) sync hasValue 0 env.sync)
  | .await => completions
      (originatorResponse (V := Unit) sync hasValue env.sync response.1 response.2)

theorem completions_crtIvUpdateInternal (sync : IvSync) (hasValue : Bool) (env : UpdateEnv)
    (response : ℤ × ℤ) :
    completions (crtIvUpdateInternal (V := Unit) sync hasValue env response).2 =
      told sync hasValue env response (crtIvUpdateNext sync env) := by
  simp only [crtIvUpdateInternal, crtIvUpdateNext, apply_ite Prod.snd, apply_ite (completions (V := Unit)),
    apply_ite (told sync hasValue env response)]
  rfl

theorem completions_acts (env : UpdateEnv) (response : ℤ × ℤ) :
    completions (c.acts (V := Unit) env response) =
      told c.sync c.hasValue env response (c.next env) := by
  obtain ⟨api, sync, gpSelf, priRoot⟩ := c
  cases api with
  | update hasValue =>
    cases hasValue with
    | false => rfl
    | true => exact completions_crtIvUpdateInternal sync true env response
  | invalidate => exact completions_crtIvUpdateInternal sync false env response

/-- The originator itself calls the callback once at most. -/
def Short : UpdateNext → Prop
  | .ended calls => calls.length ≤ 1
  | .sync | .await => True

theorem short_ite {p : Prop} [Decidable p] {x y : UpdateNext} (hx : Short x) (hy : Short y) :
    Short (if p then x else y) := by
  split
  · exact hx
  · exact hy

theorem short_crtIvUpdateNext (sync : IvSync) (env : UpdateEnv) :
    Short (crtIvUpdateNext sync env) := by
  have hnil : Short (.ended []) := Nat.zero_le 1
  have hone : ∀ rc, Short (.ended [rc]) := fun _ => le_refl 1
  have hforward : Short (if env.nextNodeRc ≠ 0 then .ended []
      else if env.cbInfoAllocated = false then .ended []
      else if env.issueRc ≠ 0 then .ended []
      else .await) := short_ite hnil (short_ite hnil (short_ite hnil trivial))
  exact short_ite hnil (short_ite hnil (short_ite hnil (short_ite hnil (short_ite hnil
    (short_ite (short_ite (hone 0) trivial) (short_ite hforward (hone _)))))))

theorem short_next (env : UpdateEnv) : Short (c.next env) := by
  rw [next]
  split
  · exact le_refl 1
  · exact short_crtIvUpdateNext c.sync env
  · exact short_crtIvUpdateNext c.sync env

theorem completions_sync (updateRc : ℤ) (env : SyncIssueEnv) :
    completions (crtIvsyncRpcIssue (V := V) c.sync c.hasValue updateRc env) =
      c.exitCalls updateRc (ivsyncIssue c.sync c.hasValue env).1 ++
        if (ivsyncIssue c.sync c.hasValue env).2 then c.responseCalls updateRc env.cciRc else [] := by
  rw [crtIvsyncRpcIssue, exitCalls, responseCalls]
  generalize ivsyncIssue c.sync c.hasValue env = issued
  rw [completions, filterMap_append]
  congr 1
  · split <;> rfl
  · cases issued.2 with
    | false =>
      rw [if_neg fun hc => by cases hc.2]
      rfl
    | true =>
      simp only [and_true]
      split <;> rfl

theorem length_exitCalls_le (updateRc rc : ℤ) : (c.exitCalls updateRc rc).length ≤ 1 := by
  rw [exitCalls]
  split <;> simp

end UpdateCall

/-! ### The result of the forwarding -/

namespace CorpcNode

variable {cfg : CorpcCfg} {n n' : CorpcNode ι} {e : CorpcEvent ι} {rc : ℤ}

/-- The main thread still has something to forward, or to find out what. -/
def forwarding (n : CorpcNode ι) : Bool :=
  match n.pc with
  | .start | .forward (_ :: _) => true
  | .forward [] | .dispatch | .localDone | .finished => false

/-- Where the main thread is when `crt_corpc_req_hdlr` has the result `rc`. -/
structure RcAt (cfg : CorpcCfg) (n : CorpcNode ι) (rc : ℤ) : Prop where
  failed : rc ≠ 0 → n.forwarding = false
  included : cfg.coRootExcluded = false → n.pc = .localDone ∨ n.pc = .finished → rc = 0

/-- The error of a thread that has nothing to forward and does not come to the local
handler. -/
theorem RcAt.of_pc (hpc : n.pc = .forward [] ∨
    n.pc = if cfg.coRootExcluded then .finished else .dispatch) : RcAt cfg n rc := by
  rcases hpc with hpc | hpc
  · refine ⟨fun _ => by rw [forwarding, hpc], fun _ hlast => ?_⟩
    rw [hpc] at hlast
    rcases hlast with hc | hc <;> cases hc
  · constructor
    · intro _
      rw [forwarding, hpc]
      cases cfg.coRootExcluded <;> rfl
    · intro hincluded hlast
      rw [hpc, hincluded] at hlast
      rcases hlast with hc | hc <;> cases hc

variable [DecidableEq ι]

theorem completed_of_step (h : n.step cfg e = some n') : ∃ l, n'.completed = n.completed ++ l := by
  rcases step_next h with rfl | rfl
  · exact ⟨[], by rw [next_completed, append_nil]⟩
  · exact ⟨[(n.next cfg e).result], by rw [complete_eq, next_completed]⟩

theorem pc_of_step (h : n.step cfg e = some n') : n'.pc = (n.next cfg e).pc := by
  obtain ⟨rc, cs, rfl⟩ := step_fields h
  rfl

theorem RcAt.step (h : RcAt cfg n rc) (henabled : n.Enabled e)
    (hstep : n.step cfg e = some n') : RcAt cfg n' (reqHdlrRc rc e) := by
  have hpc' := pc_of_step hstep
  cases e with
  | start outcome =>
    cases outcome with
    | fail rc' => exact .of_pc (.inl hpc')
    | children l => exact ⟨fun hne => absurd rfl hne, fun _ _ => rfl⟩
  | create rc' =>
    obtain ⟨c, cs, hpc⟩ := henabled
    by_cases hrc : rc' = 0
    · exact ⟨fun hne => absurd hrc hne, fun _ _ => hrc⟩
    · rw [next] at hpc'
      simp only [hpc, if_neg hrc] at hpc'
      exact .of_pc (.inl hpc')
  | forwardDone => exact .of_pc (.inr hpc')
  | dispatch rc' => exact ⟨fun hne => absurd rfl hne, fun _ _ => rfl⟩
  | localDone =>
    refine ⟨fun _ => by rw [forwarding, hpc']; rfl, fun hincluded _ => ?_⟩
    exact h.included hincluded (.inl henabled)
  | childReply c cciRc cchRc =>
    have hpc : n'.pc = n.pc := by
      obtain ⟨_, _, _, heq⟩ := next_childReply_eq cfg n c cciRc cchRc
      rw [hpc', heq, noteReply]
    exact ⟨by rw [forwarding, hpc]; exact h.failed, by rw [hpc]; exact h.included⟩
  | localReply =>
    have hpc : n'.pc = n.pc := hpc'
    exact ⟨by rw [forwarding, hpc]; exact h.failed, by rw [hpc]; exact h.included⟩

/-- With an excluded root, the result is an error once something has failed. -/
theorem RcAt.ne_zero_iff (h : RcAt cfg n rc) (hexcluded : cfg.coRootExcluded = true)
    (hinv : Inv cfg n) (henabled : n.Enabled e) :
    reqHdlrRc rc e ≠ 0 ↔ rc ≠ 0 ∨ (UpdateEvent.node e).Fails := by
  cases e with
  | start outcome =>
    have hpc : n.pc = .start := by
      cases outcome with
      | fail rc' | children l => exact henabled.1
    have hzero : rc = 0 := by
      by_contra hne
      have hforwarding := h.failed hne
      rw [forwarding, hpc] at hforwarding
      cases hforwarding
    rw [hzero]
    cases outcome with
    | fail rc' => exact iff_of_true henabled.2 (.inr trivial)
    | children l => exact (iff_of_eq (or_false _)).symm
  | create rc' =>
    obtain ⟨c, cs, hpc⟩ := henabled
    have hzero : rc = 0 := by
      by_contra hne
      have hforwarding := h.failed hne
      rw [forwarding, hpc] at hforwarding
      cases hforwarding
    rw [hzero]
    show rc' ≠ 0 ↔ 0 ≠ 0 ∨ rc' ≠ 0
    simp
  | dispatch rc' => exact absurd henabled (hinv.excluded hexcluded).1
  | forwardDone | localDone | childReply c cciRc cchRc | localReply =>
    exact (iff_of_eq (or_false _)).symm

end CorpcNode

/-! ### The runs of an operation -/

/-- Up to `crt_req_send` its result and the one of the collective do not matter. -/
theorem ivsyncIssue_with (sync : IvSync) (hasValue : Bool) (env : SyncIssueEnv) (rc cciRc : ℤ) :
    ivsyncIssue sync hasValue { env with reqSendRc := rc, cciRc := cciRc } =
    if (ivsyncIssue sync hasValue env).2 then (rc, true) else ivsyncIssue sync hasValue env := by
  -- each check in front of it ends the function without sending
  have hcheck (c : Prop) [Decidable c] (e : ℤ) {x y : ℤ × Bool}
      (h : y = if x.2 then (rc, true) else x) : (if c then (e, false) else y) =
        if (if c then (e, false) else x).2 then (rc, true) else if c then (e, false) else x := by
    split
    · rfl
    · exact h
  iterate 7 refine hcheck _ _ ?_
  rfl

namespace UpdateOp

variable {c : UpdateCall} {s s' : UpdateOp ι} {e : UpdateEvent ι} {n : CorpcNode ι}

/-- The calls that the response handler has made. -/
def responded (c : UpdateCall) (s : UpdateOp ι) : List ℤ :=
  (s.node.completed.take s.responses).flatMap (c.responseCalls s.updateRc)

/-- The error that `crt_ivsync_rpc_issue` has returned with. -/
def returnedRc (s : UpdateOp ι) : ℤ := if s.phase = .returned then s.hdlrRc else 0

/-- The call that `crt_ivsync_rpc_issue` has made at its end. -/
def left (c : UpdateCall) (s : UpdateOp ι) : List ℤ :=
  if s.phase = .returned then c.exitCalls s.updateRc s.hdlrRc else []

variable [DecidableEq ι]

/-- What holds from `crt_req_send` on. -/
structure Sent (c : UpdateCall) (s : UpdateOp ι) : Prop where
  phase : s.phase = .sending ∨ s.phase = .returned
  node : s.node.Inv c.cfg
  rc : s.node.RcAt c.cfg s.hdlrRc
  finished : s.phase = .returned → s.node.pc = .finished
  responses : s.responses ≤ s.node.completed.length
  freed : s.freed = (decide (0 < s.responses) || s.returnedRc != 0)
  misused : s.misused = (decide (0 < s.responses) && s.returnedRc != 0)
  calls : s.calls.Perm (s.responded c ++ s.left c)

/-- What holds in a state that is reached. -/
inductive Sound (c : UpdateCall) : UpdateOp ι → Prop
  | idle : Sound c (init ι)
  | awaiting : Sound c { init ι with phase := .awaiting }
  | ended {calls : List ℤ} (hlength : calls.length ≤ 1) :
      Sound c { init ι with phase := .ended, calls := calls }
  | sent {s : UpdateOp ι} (h : Sent c s) : Sound c s

theorem Sound.issue (phase : UpdatePhase) (updateRc : ℤ) (env : SyncIssueEnv) :
    Sound c ({ init ι with phase := phase }.issue c env updateRc) := by
  rw [UpdateOp.issue]
  split
  · exact .sent ⟨.inl rfl, init_inv, ⟨fun hne => absurd rfl hne, fun _ _ => rfl⟩,
      by rintro ⟨⟩, le_refl 0, rfl, rfl, Perm.refl []⟩
  · exact .ended (c.length_exitCalls_le _ _)

theorem Sound.start (env : UpdateEnv) : Sound c ((init ι).start c env) := by
  rw [UpdateOp.start]
  have hshort := c.short_next env
  generalize c.next env = next at hshort
  cases next with
  | ended calls => exact .ended hshort
  | sync => exact .issue .idle 0 env.sync
  | await => exact .awaiting

theorem Sound.handleReply (cciRc outputRc : ℤ) (x : SyncIssueEnv) :
    Sound c ({ init ι with phase := .awaiting }.handleReply c cciRc outputRc x) := by
  rw [UpdateOp.handleReply]
  split
  · exact .ended (le_refl 1)
  · exact .issue _ _ x

/-- Once the main thread has finished there are only replies. -/
theorem reply_of_finished {e : CorpcEvent ι} (cfg : CorpcCfg) (rc : ℤ) (hpc : n.pc = .finished)
    (henabled : n.Enabled e) : reqHdlrRc rc e = rc ∧ (n.next cfg e).pc = .finished := by
  cases e with
  | start outcome =>
    cases outcome with
    | fail rc' | children l => cases hpc.symm.trans henabled.1
  | create rc' =>
    obtain ⟨c, cs, hpc'⟩ := henabled
    cases hpc.symm.trans hpc'
  | dispatch rc' | forwardDone | localDone => cases hpc.symm.trans henabled
  | childReply c cciRc cchRc =>
    obtain ⟨_, _, _, heq⟩ := next_childReply_eq cfg n c cciRc cchRc
    rw [heq, noteReply]
    exact ⟨rfl, hpc⟩
  | localReply => exact ⟨rfl, hpc⟩

theorem Sent.nodeStep (h : Sent c s) {e : CorpcEvent ι}
    (henabled : s.node.Enabled e) (hstep : s.node.step c.cfg e = some n) :
    Sent c { s with node := n, hdlrRc := reqHdlrRc s.hdlrRc e } := by
  have hreply : s.phase = .returned →
      reqHdlrRc s.hdlrRc e = s.hdlrRc ∧ (s.node.next c.cfg e).pc = .finished :=
    fun hphase => reply_of_finished c.cfg s.hdlrRc (h.finished hphase) henabled
  have hreturnedRc : returnedRc { s with node := n, hdlrRc := reqHdlrRc s.hdlrRc e } =
      s.returnedRc := by
    rw [returnedRc, returnedRc]
    split_ifs with hphase
    · exact (hreply hphase).1
    · rfl
  have hleft : left c { s with node := n, hdlrRc := reqHdlrRc s.hdlrRc e } = s.left c := by
    rw [left, left]
    split_ifs with hphase
    · rw [(hreply hphase).1]
    · rfl
  obtain ⟨l, hcompleted⟩ := completed_of_step hstep
  have hresponded : responded c { s with node := n, hdlrRc := reqHdlrRc s.hdlrRc e } =
      s.responded c := by
    show (n.completed.take s.responses).flatMap _ = _
    rw [hcompleted, take_append_of_le_length h.responses]
    rfl
  refine ⟨h.phase, (inv_invariant c.cfg).step _ _ _ h.node henabled hstep,
    h.rc.step henabled hstep, fun hphase => ?_, ?_, ?_, ?_, ?_⟩
  · exact (pc_of_step hstep).trans (hreply hphase).2
  · rw [hcompleted, length_append]
    exact h.responses.trans (Nat.le_add_right _ _)
  · rw [hreturnedRc]
    exact h.freed
  · rw [hreturnedRc]
    exact h.misused
  · rw [hresponded, hleft]
    exact h.calls

theorem Sent.completed_le (h : Sent c s) : s.node.completed.length ≤ 1 := by
  rw [h.node.done]
  split
  · exact le_refl 1
  · exact Nat.zero_le 1

theorem Sent.response (h : Sent c s) {cciRc : ℤ} (hget : s.node.completed[s.responses]? = some cciRc) :
    Sent c (s.handleResponse c cciRc) := by
  have hresponded : (s.handleResponse c cciRc).responded c =
      s.responded c ++ c.responseCalls s.updateRc cciRc := by
    show (s.node.completed.take (s.responses + 1)).flatMap _ = _
    rw [take_add_one, hget, flatMap_append, Option.toList_some, flatMap_singleton]
    rfl
  have hlt : s.responses < s.node.completed.length := (List.getElem?_eq_some_iff.mp hget).1
  have hfirst : s.responses = 0 := by
    have hone := h.completed_le
    omega
  refine ⟨h.phase, h.node, h.rc, h.finished, hlt, ?_, ?_, ?_⟩
  · show true = (decide (0 < s.responses + 1) || _)
    rw [decide_eq_true (Nat.succ_pos _)]
    rfl
  · show (s.misused || s.freed) = (decide (0 < s.responses + 1) && s.returnedRc != 0)
    rw [decide_eq_true (Nat.succ_pos _), h.misused, h.freed, hfirst]
    rfl
  · rw [hresponded]
    refine (h.calls.append_right _).trans ?_
    rw [append_assoc, append_assoc]
    exact perm_append_comm.append_left _

theorem Sent.exit (h : Sent c s) (hphase : s.phase = .sending) (hpc : s.node.pc = .finished) :
    Sent c (s.exit c) := by
  have hreturnedRc : s.returnedRc = 0 := by
    rw [returnedRc, hphase]
    rfl
  have hleft : s.left c = [] := by
    rw [left, hphase]
    rfl
  refine ⟨.inr rfl, h.node, h.rc, fun _ => hpc, h.responses, ?_, ?_, ?_⟩
  · show (s.freed || s.hdlrRc != 0) = (_ || s.hdlrRc != 0)
    rw [h.freed, hreturnedRc]
    simp
    rfl
  · show (s.misused || (s.freed && s.hdlrRc != 0)) = (_ && s.hdlrRc != 0)
    rw [h.misused, h.freed, hreturnedRc]
    simp
    rfl
  · have hcalls := h.calls
    rw [hleft, append_nil] at hcalls
    exact hcalls.append_right _

theorem Sound.toSent (h : Sound c s) (hphase : s.phase = .sending ∨ s.phase = .returned) :
    Sent c s := by
  cases h with
  | idle | awaiting | ended hlength => rcases hphase with hc | hc <;> cases hc
  | sent h => exact h

theorem Sent.step (h : Sent c s) (henabled : s.Enabled e) (hstep : s.step c e = some s') :
    Sent c s' ∧ s'.updateRc = s.updateRc := by
  have hphase := h.phase
  cases e with
  | call env | reply cciRc outputRc env => rcases hphase with hc | hc <;> cases hc.symm.trans henabled
  | node e =>
    obtain ⟨n, hnode, rfl⟩ := Option.map_eq_some_iff.mp hstep
    exact ⟨h.nodeStep henabled.2 hnode, rfl⟩
  | response =>
    obtain ⟨cciRc, hget, rfl⟩ := Option.map_eq_some_iff.mp hstep
    exact ⟨h.response hget, rfl⟩
  | exit =>
    cases hstep
    exact ⟨h.exit henabled.1 henabled.2, rfl⟩

theorem Sound.step (h : Sound c s) (henabled : s.Enabled e)
    (hstep : s.step c e = some s') : Sound c s' := by
  cases e with
  | call env =>
    have hphase : s.phase = .idle := henabled
    cases hstep
    cases h with
    | idle => exact .start env
    | awaiting | ended hlength => cases hphase
    | sent h => rcases h.phase with hc | hc <;> cases hphase.symm.trans hc
  | reply cciRc outputRc env =>
    have hphase : s.phase = .awaiting := henabled
    cases hstep
    cases h with
    | idle | ended hlength => cases hphase
    | awaiting => exact .handleReply cciRc outputRc env
    | sent h => rcases h.phase with hc | hc <;> cases hphase.symm.trans hc
  | node e | response => exact .sent ((h.toSent henabled.1).step henabled hstep).1
  | exit => exact .sent ((h.toSent (.inl henabled.1)).step henabled hstep).1

theorem sound_invariant (c : UpdateCall) (ι : Type) [DecidableEq ι] :
    (updateLts c ι).Invariant (Sound c) where
  init := by
    rintro s rfl
    exact .idle
  step := fun _ _ _ h henabled hstep => h.step henabled hstep

/-- With an excluded root, `crt_corpc_req_hdlr` has an error once something has
failed. -/
theorem Sound.hdlrRc_step (h : Sound c s) (hexcluded : c.priRoot = c.gpSelf)
    (henabled : s.Enabled e) (hstep : s.step c e = some s') :
    s'.hdlrRc ≠ 0 ↔ s.hdlrRc ≠ 0 ∨ e.Fails := by
  have hissue : ∀ (x : SyncIssueEnv) (updateRc : ℤ), (s.issue c x updateRc).hdlrRc = s.hdlrRc := by
    intro x updateRc
    rw [UpdateOp.issue]
    split <;> rfl
  have hsame : s'.hdlrRc = s.hdlrRc → ¬ e.Fails → (s'.hdlrRc ≠ 0 ↔ s.hdlrRc ≠ 0 ∨ e.Fails) := by
    intro heq hfails
    rw [heq]
    exact (or_iff_left hfails).symm
  cases e with
  | call env =>
    cases hstep
    refine hsame ?_ id
    rw [UpdateOp.start]
    split
    · rfl
    · exact hissue _ _
    · rfl
  | reply cciRc outputRc env =>
    cases hstep
    refine hsame ?_ id
    rw [UpdateOp.handleReply]
    split
    · rfl
    · exact hissue _ _
  | node e =>
    obtain ⟨n, hnode, rfl⟩ := Option.map_eq_some_iff.mp hstep
    have hsent := h.toSent henabled.1
    exact hsent.rc.ne_zero_iff (beq_iff_eq.mpr hexcluded) hsent.node henabled.2
  | response =>
    obtain ⟨cciRc, hget, rfl⟩ := Option.map_eq_some_iff.mp hstep
    exact hsame rfl id
  | exit =>
    cases hstep
    exact hsame rfl id

theorem Sound.hdlrRc_run (h : Sound c s) (hexcluded : c.priRoot = c.gpSelf)
    {es : List (UpdateEvent ι)} (hrun : (updateLts c ι).Run s es s') :
    s'.hdlrRc ≠ 0 ↔ s.hdlrRc ≠ 0 ∨ ∃ e ∈ es, e.Fails := by
  induction hrun with
  | nil s => simp
  | cons henabled hstep _ ih =>
    rw [ih (h.step henabled hstep), h.hdlrRc_step hexcluded henabled hstep, or_assoc]
    simp

/-! ### How often the callback is called -/

theorem Sent.length_calls (h : Sent c s) :
    s.calls.length = (if c.sync.ivsMode = .eager then s.responses else 0) +
      if s.phase = .returned ∧ (c.sync.ivsMode ≠ .eager ∨ s.hdlrRc ≠ 0) then 1 else 0 := by
  rw [h.calls.length_eq, length_append]
  congr 1
  · rw [responded, length_flatMap]
    by_cases heager : c.sync.ivsMode = .eager
    · simpa [UpdateCall.responseCalls, heager] using h.responses
    · simp [UpdateCall.responseCalls, heager]
  · rw [left]
    by_cases hphase : s.phase = .returned
    · rw [if_pos hphase, UpdateCall.exitCalls]
      simp only [hphase, true_and]
      split <;> rfl
    · rw [if_neg hphase, if_neg fun hc => hphase hc.1]
      rfl

/-- Called twice iff an eager synchronisation has failed and been answered. -/
theorem Sound.length_calls_le_iff (h : Sound c s) : s.calls.length ≤ 1 ↔
      ¬ (c.sync.ivsMode = .eager ∧ s.phase = .returned ∧ s.hdlrRc ≠ 0 ∧ 0 < s.responses) := by
  cases h with
  | idle | awaiting => exact iff_of_true (Nat.zero_le 1) fun hc => by cases hc.2.1
  | ended hlength => exact iff_of_true hlength fun hc => by cases hc.2.1
  | sent h =>
    have hresponses := h.responses.trans h.completed_le
    rw [h.length_calls]
    by_cases heager : c.sync.ivsMode = .eager
    · by_cases hreturned : s.phase = .returned ∧ s.hdlrRc ≠ 0
      · rw [if_pos heager, if_pos ⟨hreturned.1, .inr hreturned.2⟩]
        simp only [heager, hreturned, true_and, not_false_eq_true, ne_eq]
        omega
      · have hnot : ¬ (s.phase = .returned ∧ (c.sync.ivsMode ≠ .eager ∨ s.hdlrRc ≠ 0)) := by
          rintro ⟨hphase, hc | hrc⟩
          · exact hc heager
          · exact hreturned ⟨hphase, hrc⟩
        rw [if_pos heager, if_neg hnot]
        exact iff_of_true hresponses fun hc => hreturned ⟨hc.2.1, hc.2.2.1⟩
    · rw [if_neg heager]
      refine iff_of_true ?_ fun hc => heager hc.1
      split <;> decide

/-- Where the root is not excluded `crt_req_send` succeeds. -/
theorem Sound.hdlrRc_eq_zero (h : Sound c s) (hphase : s.phase = .returned)
    (hincluded : c.priRoot ≠ c.gpSelf) : s.hdlrRc = 0 := by
  have hsent := h.toSent (.inr hphase)
  exact hsent.rc.included (beq_eq_false_iff_ne.mpr hincluded) (.inr (hsent.finished hphase))

/-- How an operation gets over: without a collective, or with its callback. -/
theorem Sound.ended_cases (h : Sound c s) (hended : s.Ended) : (s.hdlrRc = 0 ∧ s.misused = false) ∨
      Sent c s ∧ s.phase = .returned ∧ 0 < s.responses := by
  rcases hended with hphase | hreturned
  · cases h with
    | idle | awaiting => cases hphase
    | ended hlength => exact .inl ⟨rfl, rfl⟩
    | sent h => rcases h.phase with hc | hc <;> cases hphase.symm.trans hc
  · exact .inr ⟨h.toSent (.inr hreturned.1), hreturned⟩

/-- An operation that is over has used `iv_sync_cb` after it was freed iff
`crt_req_send` returned an error. -/
theorem Sound.misused_iff (h : Sound c s) (hended : s.Ended) :
    s.misused = false ↔ s.hdlrRc = 0 := by
  rcases h.ended_cases hended with ⟨hrc, hmisused⟩ | ⟨hsent, hphase, hresponses⟩
  · exact iff_of_true hmisused hrc
  · rw [hsent.misused, returnedRc, if_pos hphase, decide_eq_true hresponses]
    simp

/-! ### What the callback is told -/

omit [DecidableEq ι] in
/-- What `crt_ivsync_rpc_issue` has met, with the outcome of the collective. -/
def syncMet (s : UpdateOp ι) (x : SyncIssueEnv) : SyncIssueEnv :=
  { x with reqSendRc := s.hdlrRc, cciRc := s.node.completed.headD 0 }

omit [DecidableEq ι] in
/-- What the call of a run has met, and the reply of the next node if there was one. -/
def met (s : UpdateOp ι) : List (UpdateEvent ι) → Option (UpdateEnv × ℤ × ℤ)
  | .call env :: .reply cciRc outputRc x :: _ =>
    some ({ env with sync := s.syncMet x }, cciRc, outputRc)
  | .call env :: _ => some ({ env with sync := s.syncMet env.sync }, 0, 0)
  | _ => none

theorem run_ended {es : List (UpdateEvent ι)} (hphase : s.phase = .ended)
    (hrun : (updateLts c ι).Run s es s') : s' = s := by
  cases hrun with
  | nil => rfl
  | @cons _ _ _ e _ henabled _ _ =>
    exfalso
    cases e <;> simp [Enabled, hphase] at henabled

theorem Sent.run {es : List (UpdateEvent ι)} (h : Sent c s) (hrun : (updateLts c ι).Run s es s') :
    Sent c s' ∧ s'.updateRc = s.updateRc := by
  induction hrun with
  | nil s => exact ⟨h, rfl⟩
  | cons henabled hstep _ ih =>
    obtain ⟨h', hrc⟩ := h.step henabled hstep
    exact ⟨(ih h').1, (ih h').2.trans hrc⟩

/-- The end of `crt_ivsync_rpc_issue` and the response handler have called back once each. -/
theorem Sent.calls_perm (h : Sent c s) (hended : s.Ended) : s.calls.Perm
    (c.exitCalls s.updateRc s.hdlrRc ++ c.responseCalls s.updateRc (s.node.completed.headD 0)) := by
  rcases hended with hphase | ⟨hphase, hresponses⟩
  · rcases h.phase with hc | hc <;> cases hphase.symm.trans hc
  · have hle := h.responses
    have hone := h.completed_le
    obtain ⟨cciRc, hcompleted⟩ := length_eq_one_iff.mp (hone.antisymm (Nat.lt_of_lt_of_le hresponses hle))
    have hcalls := h.calls
    rw [responded, left, if_pos hphase, hcompleted, take_of_length_le hresponses,
      flatMap_singleton] at hcalls
    rw [hcompleted]
    exact hcalls.trans perm_append_comm

omit [DecidableEq ι] in
theorem phase_issue (x : SyncIssueEnv) (updateRc : ℤ) : (s.issue c x updateRc).phase ≠ .awaiting := by
  rw [UpdateOp.issue]
  split <;> simp

/-- What an operation tells from `crt_ivsync_rpc_issue` on. -/
theorem calls_issue {es : List (UpdateEvent ι)} {p : UpdatePhase} {updateRc : ℤ} {x : SyncIssueEnv}
    (hrun : (updateLts c ι).Run ({ init ι with phase := p }.issue c x updateRc) es s)
    (hended : s.Ended) : s.calls.Perm
      (completions (crtIvsyncRpcIssue (V := Unit) c.sync c.hasValue updateRc (s.syncMet x))) := by
  have hsound := Sound.issue (ι := ι) (c := c) p updateRc x
  rw [c.completions_sync, syncMet, ivsyncIssue_with]
  rw [UpdateOp.issue] at hrun hsound
  by_cases hsent : (ivsyncIssue c.sync c.hasValue x).2 = true
  · rw [if_pos hsent] at hrun hsound
    obtain ⟨hsent', hrc⟩ := (hsound.toSent (.inl rfl)).run hrun
    have hrc : s.updateRc = updateRc := hrc
    rw [if_pos hsent, if_pos rfl, ← hrc]
    exact hsent'.calls_perm hended
  · rw [if_neg hsent] at hrun
    obtain rfl := run_ended rfl hrun
    rw [if_neg hsent, if_neg hsent, append_nil]
    exact Perm.refl _

theorem met_of_phase {es : List (UpdateEvent ι)} {s₁ : UpdateOp ι} (hphase : s₁.phase ≠ .awaiting)
    (hrun : (updateLts c ι).Run s₁ es s') (env : UpdateEnv) :
    s.met (.call env :: es) = some ({ env with sync := s.syncMet env.sync }, 0, 0) := by
  cases hrun with
  | nil => rfl
  | @cons _ _ _ e _ henabled _ _ =>
    cases e with
    | reply cciRc outputRc x => exact absurd henabled hphase
    | call | node | response | exit => rfl

/-- The next node has replied, and this decides what is told. -/
theorem calls_reply {es : List (UpdateEvent ι)} (hended : s.Ended)
    (hrun : (updateLts c ι).Run { init ι with phase := .awaiting } es s) :
    ∃ cciRc outputRc x es', es = .reply cciRc outputRc x :: es' ∧ s.calls.Perm
      (completions (originatorResponse (V := Unit) c.sync c.hasValue (s.syncMet x) cciRc outputRc)) := by
  cases hrun with
  | nil => rcases hended with hc | ⟨hc, _⟩ <;> cases hc
  | @cons _ _ _ e es henabled hstep hrun =>
    cases e with
    | call | node | response | exit => simp [UpdateOp.Enabled] at henabled
    | reply cciRc outputRc x =>
      obtain rfl := Option.some.inj hstep
      refine ⟨cciRc, outputRc, x, es, rfl, ?_⟩
      rw [UpdateOp.handleReply] at hrun
      rw [originatorResponse]
      by_cases hbi : c.sync.bidirectional = true
      · rw [if_pos hbi] at hrun ⊢
        obtain rfl := run_ended rfl hrun
        exact Perm.refl _
      · rw [if_neg hbi] at hrun ⊢
        exact calls_issue hrun hended

end UpdateOp

/-- **Refinement.**  What an operation that is over has told the callback, `crtIvUpdate` or
`crtIvInvalidate` tells it for the outcomes that the run has had. -/
theorem calls_perm_completions (c : UpdateCall) {ι : Type} [DecidableEq ι]
    {es : List (UpdateEvent ι)} {s : UpdateOp ι}
    (hrun : (updateLts c ι).Run (UpdateOp.init ι) es s) (hended : s.Ended) :
    ∃ env response, s.met es = some (env, response) ∧
      s.calls.Perm (completions (c.acts (V := Unit) env response)) := by
  cases hrun with
  | nil => rcases hended with hc | ⟨hc, _⟩ <;> cases hc
  | @cons _ _ _ e es henabled hstep hrun =>
    cases e with
    | reply | node | response | exit => simp [UpdateOp.Enabled, UpdateOp.init] at henabled
    | call env =>
      obtain rfl := Option.some.inj hstep
      have hacts (x : SyncIssueEnv) (response : ℤ × ℤ) :
          completions (c.acts (V := Unit) { env with sync := x } response) =
            UpdateCall.told c.sync c.hasValue { env with sync := x } response (c.next env) :=
        c.completions_acts _ _
      rw [UpdateOp.start] at hrun
      generalize c.next env = next at hrun hacts
      cases next with
      | ended calls =>
        obtain rfl := UpdateOp.run_ended rfl hrun
        refine ⟨_, _, UpdateOp.met_of_phase (by simp) hrun env, ?_⟩
        rw [hacts]
        exact Perm.refl _
      | sync =>
        refine ⟨_, _, UpdateOp.met_of_phase (UpdateOp.phase_issue _ _) hrun env, ?_⟩
        rw [hacts]
        exact UpdateOp.calls_issue (p := .idle) hrun hended
      | await =>
        obtain ⟨cciRc, outputRc, x, es, rfl, hcalls⟩ := UpdateOp.calls_reply hended hrun
        refine ⟨_, _, rfl, ?_⟩
        rw [hacts]
        exact hcalls

/-- **The callback of an update is called once** if an eager collective with an excluded root
does not fail while it is forwarded, and twice otherwise. -/
theorem iv_update_once_iff (c : UpdateCall) {ι : Type} [DecidableEq ι]
    {es : List (UpdateEvent ι)} {s : UpdateOp ι}
    (hrun : (updateLts c ι).Run (UpdateOp.init ι) es s) :
    ((∀ e ∈ es, c.Allows e) → s.calls.length ≤ 1) ∧
      (s.Ended → (s.calls.length ≤ 1 ↔ ∀ e ∈ es, c.Allows e) ∧
        (s.misused = false ↔ (c.priRoot = c.gpSelf → ∀ e ∈ es, ¬ e.Fails))) := by
  have hsound := (UpdateOp.sound_invariant c ι).run hrun .idle
  have hfails : c.priRoot = c.gpSelf → (s.hdlrRc = 0 ↔ ∀ e ∈ es, ¬ e.Fails) := by
    intro hexcluded
    have hiff := UpdateOp.Sound.idle.hdlrRc_run hexcluded hrun
    have hzero : (UpdateOp.init ι).hdlrRc = 0 := rfl
    rw [hzero, or_iff_right (fun hne => hne rfl), ← not_iff_not, ne_eq, not_not] at hiff
    rw [hiff]
    simp only [not_exists, not_and]
  have hincluded : s.Ended → c.priRoot ≠ c.gpSelf → s.hdlrRc = 0 := by
    intro hended hne
    rcases hsound.ended_cases hended with ⟨hrc, _⟩ | ⟨_, hphase, _⟩
    · exact hrc
    · exact hsound.hdlrRc_eq_zero hphase hne
  have honce : (∀ e ∈ es, c.Allows e) → s.calls.length ≤ 1 := by
    intro hallows
    refine hsound.length_calls_le_iff.mpr ?_
    rintro ⟨heager, hphase, hrc, _⟩
    by_cases hexcluded : c.priRoot = c.gpSelf
    · exact hrc ((hfails hexcluded).mpr fun e he => hallows e he heager hexcluded)
    · exact hrc (hsound.hdlrRc_eq_zero hphase hexcluded)
  refine ⟨honce, fun hended => ⟨⟨?_, honce⟩, ?_⟩⟩
  · intro hlength e he heager hexcluded hfail
    have hrc : s.hdlrRc ≠ 0 := fun hzero => (hfails hexcluded).mp hzero e he hfail
    rcases hsound.ended_cases hended with ⟨hzero, _⟩ | ⟨_, hphase, hresponses⟩
    · exact hrc hzero
    · exact hsound.length_calls_le_iff.mp hlength ⟨heager, hphase, hrc, hresponses⟩
  · rw [hsound.misused_iff hended]
    by_cases hexcluded : c.priRoot = c.gpSelf
    · rw [hfails hexcluded]
      exact (imp_iff_right hexcluded).symm
    · exact iff_of_true (hincluded hended hexcluded) fun hc => absurd hc hexcluded

/-- An eager update in the primary group, on a process of rank 0. -/
def eagerUpdate : UpdateCall := ⟨.update true, ⟨.eager, .update, false⟩, 0, 0⟩

/-- The originator takes the update, and the collective is answered early. -/
def startedRun (outcome : CorpcStart ℕ) : List (UpdateEvent ℕ) :=
  [.call { sampleUpdate with onUpdateRc := 0 }, .node (.start outcome), .node .forwardDone,
    .response, .exit]

/-- The first of two children replies after `crt_req_send` has returned. -/
def brokenOffRun : List (UpdateEvent ℕ) :=
  [.call { sampleUpdate with onUpdateRc := 0 }, .node (.start (.children [1, 2])),
    .node (.create 0), .node (.create (-derNomem)), .node .forwardDone, .exit,
    .node (.childReply 1 0 0), .response]

/-- Both children reply. -/
def repliedRun : List (UpdateEvent ℕ) :=
  [.call { sampleUpdate with onUpdateRc := 0 }, .node (.start (.children [1, 2])),
    .node (.create 0), .node (.create 0), .node .forwardDone, .node (.childReply 2 0 0), .exit,
    .node (.childReply 1 (-derHg) 0), .response]

theorem iv_update_once_replied : ∃ s, (updateLts eagerUpdate ℕ).exec repliedRun (.init ℕ) = some s ∧
    s.Ended ∧ s.calls = [-derHg] ∧ s.calls.length ≤ 1 := by
  have hallows : ∀ e ∈ repliedRun, ¬ e.Fails := by decide
  exact ⟨_, rfl, Or.inr ⟨rfl, by decide⟩, rfl, (iv_update_once_iff eagerUpdate
    (Lts.run_of_exec rfl)).1 fun e he _ _ => hallows e he⟩

theorem calls_perm_completions_brokenOff :
    ∃ s env response, (updateLts eagerUpdate ℕ).exec brokenOffRun (.init ℕ) = some s ∧
      s.met brokenOffRun = some (env, response) ∧
      s.calls.Perm (completions (eagerUpdate.acts (V := Unit) env response)) := by
  have hrun : (updateLts eagerUpdate ℕ).Run (.init ℕ) brokenOffRun _ := Lts.run_of_exec rfl
  obtain ⟨env, response, hmet, hperm⟩ :=
    calls_perm_completions eagerUpdate hrun (Or.inr ⟨rfl, by decide⟩)
  exact ⟨_, env, response, rfl, hmet, hperm⟩

/-- Both the end of `crt_ivsync_rpc_issue` and the response handler call the callback. -/
theorem iv_update_twice :
    (∃ s, (updateLts eagerUpdate ℕ).Run (.init ℕ) (startedRun (.fail (-derGrpver))) s ∧
      s.calls = [-derGrpver, -derGrpver]) ∧
    ∃ s, (updateLts eagerUpdate ℕ).Run (.init ℕ) brokenOffRun s ∧
      s.calls = [-derNomem, -derNomem] :=
  ⟨⟨_, Lts.run_of_exec rfl, rfl⟩, _, Lts.run_of_exec rfl, rfl⟩

end Cart
