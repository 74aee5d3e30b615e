/-
Fetching an incast variable, piece by piece (`crt_iv.c`).

A fetch comes from the node itself or from a child.  The user's callbacks answer it, or it is
forwarded to the parent, or waits for a fetch of the same key.  Each definition is one piece of
code that runs without waiting, with what it calls as a parameter and a list of actions as its
result.

Main results: `crtIvfBulkTransfer_cases`, `answers_pendingStep`,
`answers_crtIvfFinalize`, `answers_start`.
-/
import Cart.HgProc

namespace Cart

variable {V : Type}

/-- The callback cannot answer locally. -/
def derIvcbForward : ℤ := derErrGurtBase + 24

/-! ### Keys and fetches -/

/-- For keys with a buffer. -/
def crtIvKeysMatch (key1 key2 : DIov) : Bool := key1.iovLen = key2.iovLen ∧ key1.used = key2.used

/-- The key as `d_iov_set` puts it into the RPC: all of the buffer is in use. -/
def DIov.wire (key : DIov) : DIov := { key with iovLen := key.iovBufLen }

/-- The whole buffer of the key is in use. -/
def DIov.Full (key : DIov) : Prop := key.iovLen = key.iovBufLen
deriving Decidable

/-- `struct iv_fetch_cb_info`: the fetch of a child (`ifc_child_rpc`) or of the
node itself.  Fetches have names. -/
structure IvFetch where
  name : ℕ
  child : Bool
  classId : ℕ
  ivKey : DIov
  deriving DecidableEq

/-- The classes of a namespace: whether they bring their own `ivo_keys_match`. -/
structure IvNamespace where
  ivoKeysMatch : ℕ → Option (DIov → DIov → Bool)

/-- The comparison of `crt_ivf_key_in_progress_find`, with the callbacks of a
class. -/
def IvNamespace.keysMatch (ns : IvNamespace) (classId : ℕ) (key1 key2 : DIov) : Bool :=
  match ns.ivoKeysMatch classId with
  | some keysMatch => keysMatch key1 key2
  | none => crtIvKeysMatch key1 key2

/-! ### What a node does for a fetch -/

/-- The buffers that `ivo_on_get` hands out for a fetch. -/
inductive IvBuf where
  | read
  | write
  | pending
  deriving DecidableEq, Repr

/-- What is done for a fetch; `V` are the values. -/
inductive IvAct (V : Type) where
  | get (buf : IvBuf) (rc : ℤ)
  | put (buf : IvBuf)
  | compCb (rc : ℤ) (value : Option V)
  | reply (rc : ℤ)
  | transfer (buf : IvBuf) (value : V)
  | transferred (rc : ℤ)
  deriving DecidableEq, Repr

namespace IvAct

/-- The fetch is answered, or its answer is on the way. -/
def completes : IvAct V → Bool
  | .compCb _ _ | .reply _ | .transfer _ _ => true
  | .get _ _ | .put _ | .transferred _ => false

/-- The child gets its reply. -/
def replies : IvAct V → Bool
  | .reply _ | .transferred _ => true
  | .get _ _ | .put _ | .compCb _ _ | .transfer _ _ => false

end IvAct

/-- What `crt_ivf_bulk_transfer` meets: `crt_bulk_create`, `D_ALLOC_PTR` and
`crt_bulk_transfer`. -/
structure TransferEnv where
  bulkCreateRc : ℤ
  cbInfoAllocated : Bool
  transferRc : ℤ
  deriving DecidableEq, Repr

variable {child : Bool} {env : TransferEnv}

/-- A transfer that cannot be started is reported to the child. -/
def crtIvfBulkTransfer (buf : IvBuf) (value : V) (env : TransferEnv) : ℤ × List (IvAct V) :=
  if env.bulkCreateRc ≠ 0 then (env.bulkCreateRc, [])
  else if env.cbInfoAllocated = false then (0, [.reply (-derNomem)])
  else if env.transferRc ≠ 0 then (0, [.reply env.transferRc])
  else (0, [.transfer buf value])

def crtIvfBulkTransferDoneCb (buf : IvBuf) (bciRc : ℤ) : List (IvAct V) :=
  [.put buf, .transferred bciRc]

/-- For a fetch that has been forwarded. -/
def crtIvfFinalize (child : Bool) (outputRc : ℤ) (value : V) (env : TransferEnv) :
    List (IvAct V) :=
  if child then
    if outputRc = 0 then (crtIvfBulkTransfer .write value env).2
    else [.put .write, .reply outputRc]
  else [.compCb outputRc (some value), .put .write]

/-- What a fetch that has waited meets: `ivo_on_get`, `ivo_on_fetch` with the
value, and the transfer. -/
structure PendingEnv (V : Type) where
  onGetRc : ℤ
  onFetchRc : ℤ
  value : V
  transfer : TransferEnv

/-- One round of `crt_ivf_pending_reqs_process`: what is done for the fetch, and
`rc_value` afterwards. -/
def pendingStep (child : Bool) (rcValue : ℤ) (env : PendingEnv V) : List (IvAct V) × ℤ :=
  if child then
    if rcValue ≠ 0 then ([.reply rcValue], rcValue)
    else if env.onGetRc ≠ 0 then ([.get .pending env.onGetRc, .reply env.onGetRc], rcValue)
    else if env.onFetchRc ≠ 0 then
      ([.get .pending 0, .reply env.onFetchRc, .put .pending], rcValue)
    else
      -- the return code is not looked at
      (.get .pending 0 :: (crtIvfBulkTransfer .pending env.value env.transfer).2, rcValue)
  else
    if rcValue ≠ 0 then ([.compCb rcValue none], rcValue)
    else if env.onGetRc ≠ 0 then
      ([.get .pending env.onGetRc, .compCb env.onGetRc none], env.onGetRc)
    else
      -- the callback is told rc_value, whatever ivo_on_fetch returned
      ([.get .pending 0, .compCb rcValue (some env.value), .put .pending], rcValue)

/-- The loop of `crt_ivf_pending_reqs_process`. -/
def crtIvfPendingReqsProcess (env : IvFetch → PendingEnv V) :
    ℤ → List IvFetch → List (IvFetch × List (IvAct V))
  | _, [] => []
  | rcValue, f :: queue =>
    let (acts, rcValue) := pendingStep f.child rcValue (env f)
    (f, acts) :: crtIvfPendingReqsProcess env rcValue queue

/-- What a fetch meets up to `crt_ivf_rpc_issue`, in the order of the calls. -/
structure FetchEnv (V : Type) where
  nsFound : Bool
  opsFound : Bool
  auxNsFound : Bool
  auxOpsFound : Bool
  onHashRc : ℤ
  valueAllocated : Bool
  onGetReadRc : ℤ
  onFetchRc : ℤ
  value : V
  onPutRc : ℤ
  onGetWriteRc : ℤ
  isRoot : Bool
  nextNodeRc : ℤ
  cbInfoAllocated : Bool
  entryAllocated : Bool
  pendingAllocated : Bool
  transfer : TransferEnv

/-- A fetch is not taken on, is answered, or has to be forwarded. -/
inductive FetchStart (V : Type) where
  | refused
  | answered (acts : List (IvAct V))
  | forwarded (acts : List (IvAct V))

/-- Up to `crt_ivf_rpc_issue`. -/
def crtHdlrIvFetchAux (env : FetchEnv V) : FetchStart V :=
  if env.auxNsFound = false then .answered [.reply (-derNonexist)]
  else if env.auxOpsFound = false then .answered [.reply (-derInval)]
  else if env.onGetReadRc ≠ 0 then
    .answered [.get .read env.onGetReadRc, .reply env.onGetReadRc]
  else if env.onFetchRc = 0 then
    let (rc, acts) := crtIvfBulkTransfer .read env.value env.transfer
    .answered (.get .read 0 :: acts ++ if rc ≠ 0 then [.put .read, .reply rc] else [])
  else if env.onFetchRc ≠ -derIvcbForward then
    .answered [.get .read 0, .put .read, .reply env.onFetchRc]
  else if env.isRoot then .answered [.get .read 0, .put .read, .reply (-derInval)]
  else if env.onPutRc ≠ 0 then
    -- put_needed is still set
    .answered [.get .read 0, .put .read, .put .read, .reply env.onPutRc]
  else if env.onGetWriteRc ≠ 0 then
    .answered [.get .read 0, .put .read, .get .write env.onGetWriteRc, .reply env.onGetWriteRc]
  else if env.nextNodeRc ≠ 0 then
    .answered [.get .read 0, .put .read, .get .write 0, .put .write, .reply (-derOog)]
  else if env.cbInfoAllocated = false then
    .answered [.get .read 0, .put .read, .get .write 0, .put .write, .reply (-derNomem)]
  else .forwarded [.get .read 0, .put .read, .get .write 0]

def crtHdlrIvFetch (env : FetchEnv V) : FetchStart V :=
  if env.nsFound = false then .answered [.reply (-derNonexist)]
  else if env.opsFound = false then .answered [.reply (-derInval)]
  else crtHdlrIvFetchAux env

/-- Up to `crt_ivf_rpc_issue`. -/
def crtIvFetch (env : FetchEnv V) : FetchStart V :=
  if env.nsFound = false ∨ env.opsFound = false then .refused
  else if env.onHashRc ≠ 0 then .answered [.compCb env.onHashRc none]
  else if env.valueAllocated = false then .answered [.compCb (-derNomem) none]
  else if env.onGetReadRc ≠ 0 then
    .answered [.get .read env.onGetReadRc, .compCb env.onGetReadRc none]
  else if env.onFetchRc = 0 then
    .answered [.get .read 0, .compCb 0 (some env.value), .put .read]
  else if env.onFetchRc ≠ -derIvcbForward then
    .answered [.get .read 0, .compCb env.onFetchRc none, .put .read]
  else if env.onGetWriteRc ≠ 0 then
    .answered [.get .read 0, .put .read, .get .write env.onGetWriteRc,
      .compCb env.onGetWriteRc none]
  else if env.nextNodeRc ≠ 0 then
    .answered [.get .read 0, .put .read, .get .write 0, .compCb env.nextNodeRc none, .put .write]
  else if env.cbInfoAllocated = false then
    .answered [.get .read 0, .put .read, .get .write 0, .compCb (-derNomem) none, .put .write]
  else .forwarded [.get .read 0, .put .read, .get .write 0]

/-- A fetch of a child, or of the node itself. -/
def FetchEnv.start (child : Bool) (env : FetchEnv V) : FetchStart V :=
  if child then crtHdlrIvFetch env else crtIvFetch env

/-- What the two callers do when `crt_ivf_rpc_issue` returns an error. -/
def issueFailed (child : Bool) (rc : ℤ) : List (IvAct V) :=
  if child then [.put .write, .reply rc] else [.compCb rc none, .put .write]

/-! ### Every fetch is completed once -/

/-- What becomes of a transfer: the child is told, the transfer is started, or
the caller is told. -/
theorem crtIvfBulkTransfer_cases (buf : IvBuf) (value : V) (env : TransferEnv) :
    (∃ rc, rc ≠ 0 ∧ rc = env.bulkCreateRc ∧ crtIvfBulkTransfer buf value env = (rc, [])) ∨
      env.bulkCreateRc = 0 ∧
        ((∃ rc, crtIvfBulkTransfer buf value env = (0, [.reply rc])) ∨
          crtIvfBulkTransfer buf value env = (0, [.transfer buf value])) := by
  rw [crtIvfBulkTransfer]
  by_cases hcreate : env.bulkCreateRc = 0
  · rw [if_neg (not_not.mpr hcreate)]
    refine .inr ⟨hcreate, ?_⟩
    split_ifs
    · exact .inl ⟨_, rfl⟩
    · exact .inl ⟨_, rfl⟩
    · exact .inr rfl
  · rw [if_pos hcreate]
    exact .inl ⟨_, hcreate, rfl, rfl⟩

/-- A child is told by a reply, the node itself by its callback. -/
def IvAct.addressed (child : Bool) : IvAct V → Bool
  | .compCb _ _ => !child
  | .reply _ | .transfer _ _ => child
  | .get _ _ | .put _ => true
  | .transferred _ => false

/-- The actions complete the fetch `n` times, and tell nobody else. -/
structure Answers (child : Bool) (n : ℕ) (acts : List (IvAct V)) : Prop where
  addressed : ∀ act ∈ acts, act.addressed child = true
  completes : acts.countP IvAct.completes = n

/-- The transfer of a child's value can be set up, where its caller does not look
at the result. -/
def TransferEnv.Created (child : Bool) (env : TransferEnv) : Prop :=
  child = true → env.bulkCreateRc = 0
deriving Decidable

/-- The same where a fetch of the queue gets as far as its transfer. -/
def PendingEnv.Creates (child : Bool) (rcValue : ℤ) (env : PendingEnv V) : Prop :=
  rcValue = 0 → env.onGetRc = 0 → env.onFetchRc = 0 → env.transfer.Created child
deriving Decidable

open IvAct

theorem answers_crtIvfBulkTransfer {buf : IvBuf} {value : V}
    (h : env.bulkCreateRc = 0) : Answers true 1 (crtIvfBulkTransfer buf value env).2 := by
  rcases crtIvfBulkTransfer_cases buf value env with ⟨rc, hrc, heq, _⟩ | ⟨_, ⟨rc, heq⟩ | heq⟩
  · exact absurd (heq.trans h) hrc
  · rw [heq]
    exact ⟨by simp [addressed], rfl⟩
  · rw [heq]
    exact ⟨by simp [addressed], rfl⟩

/-- A buffer is got or put on the way. -/
theorem Answers.cons {n : ℕ} {act : IvAct V} {acts : List (IvAct V)}
    (h : Answers child n acts) (haddressed : act.addressed child = true)
    (hcompletes : act.completes = false) : Answers child n (act :: acts) := by
  refine ⟨List.forall_mem_cons.mpr ⟨haddressed, h.addressed⟩, ?_⟩
  rw [List.countP_cons_of_neg (by simp [hcompletes]), h.completes]

theorem Answers.append {n n' : ℕ} {acts acts' : List (IvAct V)} (h : Answers child n acts)
    (h' : Answers child n' acts') : Answers child (n + n') (acts ++ acts') :=
  ⟨List.forall_mem_append.mpr ⟨h.addressed, h'.addressed⟩, by
    rw [List.countP_append, h.completes, h'.completes]⟩

theorem answers_crtIvfFinalize {rc : ℤ} (value : V)
    (h : rc = 0 → env.Created child) : Answers child 1 (crtIvfFinalize child rc value env) := by
  rw [crtIvfFinalize]
  split_ifs with hchild hrc
  · subst hchild
    exact answers_crtIvfBulkTransfer (h hrc rfl)
  · subst hchild
    exact ⟨by simp [addressed], rfl⟩
  · rw [Bool.not_eq_true] at hchild
    subst hchild
    exact ⟨by simp [addressed], rfl⟩

theorem answers_pendingStep (rcValue : ℤ) {env : PendingEnv V}
    (h : env.Creates child rcValue) : Answers child 1 (pendingStep child rcValue env).1 := by
  rw [pendingStep]
  cases child with
  | true =>
    rw [if_pos rfl]
    split_ifs with hrc hget hfetch
    · exact ⟨by simp [addressed], rfl⟩
    · exact ⟨by simp [addressed], rfl⟩
    · exact ⟨by simp [addressed], rfl⟩
    · exact (answers_crtIvfBulkTransfer (h (not_not.mp hrc) (not_not.mp hget)
        (not_not.mp hfetch) rfl)).cons rfl rfl
  | false =>
    rw [if_neg (by decide)]
    split_ifs
    · exact ⟨by simp [addressed], rfl⟩
    · exact ⟨by simp [addressed], rfl⟩
    · exact ⟨by simp [addressed], rfl⟩

theorem answers_issueFailed (child : Bool) (rc : ℤ) :
    Answers child 1 (issueFailed child rc : List (IvAct V)) := by
  cases child with
  | true | false => exact ⟨by simp [issueFailed, addressed], rfl⟩

/-- A fetch is answered once, or not yet if it has to be forwarded; only the
node's own can be refused. -/
def FetchStart.Answers (child : Bool) : FetchStart V → Prop
  | .refused => child = false
  | .answered acts => Cart.Answers child 1 acts
  | .forwarded acts => Cart.Answers child 0 acts

theorem FetchStart.Answers.ite {p : Prop} [Decidable p] {a b : FetchStart V}
    (ha : a.Answers child) (hb : b.Answers child) : (if p then a else b).Answers child := by
  by_cases h : p
  · rwa [if_pos h]
  · rwa [if_neg h]

/-- The value that is there is sent, or the caller answers the child. -/
theorem answers_transfer (env : FetchEnv V) :
    Answers true 1 (.get .read 0 :: (crtIvfBulkTransfer .read env.value env.transfer).2 ++
      if (crtIvfBulkTransfer .read env.value env.transfer).1 ≠ 0 then
        [.put .read, .reply (crtIvfBulkTransfer .read env.value env.transfer).1] else []) := by
  rcases crtIvfBulkTransfer_cases .read env.value env.transfer with
    ⟨rc, hrc, _, heq⟩ | ⟨_, ⟨rc, heq⟩ | heq⟩
  · rw [heq, if_pos hrc]
    exact ⟨by simp [addressed], rfl⟩
  · rw [heq, if_neg (not_not.mpr rfl)]
    exact ⟨by simp [addressed], rfl⟩
  · rw [heq, if_neg (not_not.mpr rfl)]
    exact ⟨by simp [addressed], rfl⟩

theorem answers_crtHdlrIvFetchAux (env : FetchEnv V) : (crtHdlrIvFetchAux env).Answers true := by
  refine .ite ?_ (.ite ?_ (.ite ?_ (.ite (answers_transfer env) (.ite ?_ (.ite ?_ (.ite ?_
    (.ite ?_ (.ite ?_ (.ite ?_ ?_)))))))))
  all_goals exact ⟨by simp [addressed], rfl⟩

theorem answers_crtIvFetch (env : FetchEnv V) : (crtIvFetch env).Answers false := by
  refine .ite rfl (.ite ?_ (.ite ?_ (.ite ?_ (.ite ?_ (.ite ?_ (.ite ?_ (.ite ?_ (.ite ?_ ?_))))))))
  all_goals exact ⟨by simp [addressed], rfl⟩

theorem answers_start (child : Bool) (env : FetchEnv V) : (env.start child).Answers child := by
  cases child with
  | true =>
    show (crtHdlrIvFetch env).Answers true
    rw [crtHdlrIvFetch]
    split_ifs
    · exact ⟨by simp [addressed], rfl⟩
    · exact ⟨by simp [addressed], rfl⟩
    · exact answers_crtHdlrIvFetchAux env
  | false => exact answers_crtIvFetch env

end Cart
