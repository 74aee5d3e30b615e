/-
The buffers of the incast variables (`crt_iv.c`).

Whoever gets a buffer from `ivo_on_get` has to hand it back to `ivo_on_put`, and the duty
travels: with the transfer to a child, with a forwarded fetch or update to the response.  An
operation is followed to its end on one node, and what is got and put is read off what it does.

Main result: `buffers_balanced_iff`.
-/
import Cart.IvSync

namespace Cart

variable {V : Type} {sync : IvSync} {env : UpdateEnv}

/-! ### Getting and putting a buffer -/

/-- What is done to a buffer: `true` is an `ivo_on_get` that succeeds, `false` an
`ivo_on_put`. -/
def bufEvents (buf : IvBuf) (acts : List (IvAct V)) : List Bool :=
  acts.filterMap fun
    | .get b rc => if b = buf ∧ rc = 0 then some true else none
    | .put b => if b = buf then some false else none
    | .compCb _ _ | .reply _ | .transfer _ _ | .transferred _ => none

/-- Every buffer that is got is put afterwards, once. -/
def Balanced (acts : List (IvAct V)) : Prop :=
  ∀ buf, true ∈ bufEvents buf acts → bufEvents buf acts = [true, false]

section

variable (buf : IvBuf) (acts acts' : List (IvAct V))

@[simp] theorem bufEvents_nil : bufEvents buf ([] : List (IvAct V)) = [] := rfl

variable (b : IvBuf) (rc : ℤ)

@[simp] theorem bufEvents_get : bufEvents buf (.get b rc :: acts) =
      if b = buf ∧ rc = 0 then true :: bufEvents buf acts else bufEvents buf acts := by
  by_cases h : b = buf ∧ rc = 0 <;> simp [bufEvents, h]

@[simp] theorem bufEvents_put : bufEvents buf (.put b :: acts) =
      if b = buf then false :: bufEvents buf acts else bufEvents buf acts := by
  by_cases h : b = buf <;> simp [bufEvents, h]

@[simp] theorem bufEvents_compCb (value : Option V) :
    bufEvents buf (.compCb rc value :: acts) = bufEvents buf acts := rfl

@[simp] theorem bufEvents_reply : bufEvents buf (.reply rc :: acts) = bufEvents buf acts := rfl

@[simp] theorem bufEvents_transfer (value : V) :
    bufEvents buf (.transfer b value :: acts) = bufEvents buf acts := rfl

@[simp] theorem bufEvents_transferred :
    bufEvents buf (.transferred rc :: acts) = bufEvents buf acts := rfl

@[simp] theorem bufEvents_append :
    bufEvents buf (acts ++ acts') = bufEvents buf acts ++ bufEvents buf acts' :=
  List.filterMap_append ..

end

theorem balanced_iff (acts : List (IvAct V)) : Balanced acts ↔
      (true ∈ bufEvents .read acts → bufEvents .read acts = [true, false]) ∧
      (true ∈ bufEvents .write acts → bufEvents .write acts = [true, false]) ∧
      (true ∈ bufEvents .pending acts → bufEvents .pending acts = [true, false]) := by
  constructor
  · exact fun h => ⟨h .read, h .write, h .pending⟩
  · rintro ⟨hread, hwrite, hpending⟩ buf
    cases buf with
    | read => exact hread
    | write => exact hwrite
    | pending => exact hpending

instance (acts : List (IvAct V)) : Decidable (Balanced acts) :=
  decidable_of_iff _ (balanced_iff acts).symm

theorem balanced_of_not_got {acts : List (IvAct V)} (h : ∀ buf, true ∉ bufEvents buf acts) :
    Balanced acts := fun buf hbuf => absurd hbuf (h buf)

theorem balanced_get_put (rc : ℤ) {acts : List (IvAct V)}
    (h : ∀ buf, bufEvents buf acts = if buf = .write then [false] else []) :
    Balanced (.get .write rc :: acts) := by
  intro buf hbuf
  rw [bufEvents_get, h buf] at hbuf ⊢
  cases buf with
  | read | pending => simp at hbuf
  | write =>
    by_cases hrc : rc = 0
    · simp [hrc]
    · simp [hrc] at hbuf

/-! ### Operations -/

/-- A fetch that is forwarded waits, finds no memory, cannot be issued, or gets a response. -/
inductive FetchCourse (V : Type) where
  | waits (rcValue : ℤ) (env : PendingEnv V)
  | noEntry
  | issueFails (rc : ℤ)
  | responds (rc : ℤ) (value : V) (env : TransferEnv)

section

variable (child : Bool) (env : FetchEnv V)

/-- What is done for a fetch after it has been handed to `crt_ivf_rpc_issue`. -/
def FetchCourse.acts : FetchCourse V → List (IvAct V)
  | .waits rcValue pending =>
    if env.pendingAllocated then .put .write :: (pendingStep child rcValue pending).1
    else .put .write :: issueFailed child (-derNomem)
  | .noEntry => issueFailed child (-derNomem)
  | .issueFails rc => issueFailed child rc
  | .responds rc value transfer => crtIvfFinalize child rc value transfer

/-- The transport is done with the transfers that have been started. -/
def settle (bciRc : ℤ) (acts : List (IvAct V)) : List (IvAct V) :=
  acts ++ acts.flatMap fun
    | .transfer buf _ => crtIvfBulkTransferDoneCb buf bciRc
    | .get _ _ | .put _ | .compCb _ _ | .reply _ | .transferred _ => []

/-- What is done for a fetch, from its arrival to its end. -/
def fetchTrace (course : FetchCourse V) (bciRc : ℤ) : List (IvAct V) :=
  match env.start child with
  | .refused => []
  | .answered acts => settle bciRc acts
  | .forwarded acts => settle bciRc (acts ++ course.acts child env)

/-- The operations that a node handles. -/
inductive IvOperation (V : Type) where
  | fetch (child : Bool) (env : FetchEnv V) (course : FetchCourse V) (bciRc : ℤ)
  | update (sync : IvSync) (hasValue : Bool) (env : UpdateEnv) (response : ℤ × ℤ)
  | updateHop (bidirectional hasValue : Bool) (hop : UpdateHop) (response : ℤ × ℤ)
  | syncHop (event : IvSyncEvent) (hasBulk : Bool) (hop : SyncHop)
  | preSync (hop : SyncHop)

/-- What is done for an operation. -/
def IvOperation.trace : IvOperation V → List (IvAct V)
  | .fetch child env course bciRc => fetchTrace child env course bciRc
  | .update sync hasValue env response => (crtIvUpdateInternal sync hasValue env response).2
  | .updateHop bidirectional hasValue hop response =>
    (hop.crtHdlrIvUpdate bidirectional hasValue response).2
  | .syncHop event hasBulk hop => (hop.crtHdlrIvSync event hasBulk).2
  | .preSync hop => hop.crtIvSyncCorpcPreForward.2

/-! ### Fetches -/

/-- The transfer to the child is started. -/
def TransferEnv.Starts (env : TransferEnv) : Prop :=
  env.bulkCreateRc = 0 ∧ env.cbInfoAllocated = true ∧ env.transferRc = 0

/-- A child's fetch gets to `ivo_on_fetch` with the first buffer. -/
def FetchEnv.Fetches : Prop :=
  env.nsFound = true ∧ env.opsFound = true ∧ env.auxNsFound = true ∧ env.auxOpsFound = true ∧
    env.onGetReadRc = 0

/-- A fetch gets to `crt_ivf_rpc_issue`. -/
def FetchEnv.Issues : Prop :=
  env.nsFound = true ∧ env.opsFound = true ∧
    (if child then env.auxNsFound = true ∧ env.auxOpsFound = true ∧ env.isRoot = false ∧
        env.onPutRc = 0
      else env.onHashRc = 0 ∧ env.valueAllocated = true) ∧
    env.onGetReadRc = 0 ∧ env.onFetchRc = -derIvcbForward ∧ env.onGetWriteRc = 0 ∧
    env.nextNodeRc = 0 ∧ env.cbInfoAllocated = true

/-- A fetch that waits gets its record, and its value can be sent. -/
def FetchCourse.Clean : FetchCourse V → Prop
  | .waits rcValue pending =>
    env.pendingAllocated = true ∧
      (child = true → rcValue = 0 → pending.onGetRc = 0 → pending.onFetchRc = 0 →
        pending.transfer.Starts)
  | .noEntry | .issueFails _ => True
  | .responds rc _ transfer => child = true → rc = 0 → transfer.Starts

end

/-- No value is lost on the way to a child, and no first buffer is put with an error. -/
def FetchEnv.Clean (child : Bool) (env : FetchEnv V) (course : FetchCourse V) : Prop :=
  (child = true → env.Fetches →
    (env.onFetchRc = 0 → env.transfer.bulkCreateRc ≠ 0 ∨ env.transfer.Starts) ∧
      (env.onFetchRc = -derIvcbForward → env.isRoot = false → env.onPutRc = 0)) ∧
    (env.Issues child → course.Clean child env)

/-! ### Updates and synchronisations -/

/-- The collective of an eager synchronisation is not refused by `crt_req_send`. -/
def UpdateEnv.Clean (sync : IvSync) (hasValue : Bool) (env : UpdateEnv) : Prop :=
  env.Admitted sync → env.onGetRc = 0 → env.Syncs → sync.ivsMode = .eager →
    sync.ivsEvent ≠ .unknown → (hasValue = true → env.sync.bulkCreateRc = 0) →
    env.sync.corpcReqCreateRc = 0 → env.sync.cbAllocated = true →
    env.sync.keyAllocated = true → env.sync.reqSendRc = 0

/-- A node that has got the buffer for an update takes the update or sends it on. -/
def UpdateHop.Clean (hasValue : Bool) (hop : UpdateHop) : Prop :=
  hasValue = true → hop.nsFound = true → hop.opsFound = true → hop.onGetRc = 0 →
    hop.Ready ∧ hop.updateCbInfoAllocated = true ∧ (hop.onUpdateRc = 0 ∨ hop.SendsOn)

/-- After a refresh the buffer is put without an error. -/
def SyncHop.Clean (event : IvSyncEvent) (hasBulk : Bool) (hop : SyncHop) : Prop :=
  hop.nsFound = true → hop.auxNsFound = true → hasBulk = true → event = .update →
    hop.onGetRc = 0 → hop.iovsAllocated = true → hop.bulkAccessRc = 0 → hop.onRefreshRc = 0 →
    hop.onPutRc = 0

/-- What an operation must meet for its buffers to be balanced. -/
def IvOperation.Clean : IvOperation V → Prop
  | .fetch child env course _ => env.Clean child course
  | .update sync hasValue env _ => env.Clean sync hasValue
  | .updateHop _ hasValue hop _ => hop.Clean hasValue
  | .syncHop event hasBulk hop => hop.Clean event hasBulk
  | .preSync _ => True

/-! ### When a fetch is balanced -/

/-- A transfer is started, or it is not and the buffer stays with the caller. -/
theorem crtIvfBulkTransfer_starts (buf : IvBuf) (value : V) (env : TransferEnv) :
    (env.Starts ∧ crtIvfBulkTransfer buf value env = (0, [.transfer buf value])) ∨
      (¬ env.Starts ∧ ((env.bulkCreateRc ≠ 0 ∧
          crtIvfBulkTransfer buf value env = (env.bulkCreateRc, [])) ∨
        (env.bulkCreateRc = 0 ∧ ∃ rc, crtIvfBulkTransfer buf value env = (0, [.reply rc])))) := by
  rw [TransferEnv.Starts, crtIvfBulkTransfer]
  by_cases hcreate : env.bulkCreateRc = 0
  · by_cases halloc : env.cbInfoAllocated = true
    · by_cases htransfer : env.transferRc = 0
      · simp [hcreate, halloc, htransfer]
      · simp [hcreate, halloc, htransfer]
    · simp [hcreate, halloc]
  · simp [hcreate]

/-- What a fetch has done when it is handed to `crt_ivf_rpc_issue`. -/
def handedOver : List (IvAct V) := [.get .read 0, .put .read, .get .write 0]

/-- From there on a fetch is balanced exactly if its course is clean. -/
theorem FetchCourse.balanced_iff_clean (child : Bool) (env : FetchEnv V) (course : FetchCourse V)
    (bciRc : ℤ) :
    Balanced (settle bciRc (handedOver ++ course.acts child env)) ↔ course.Clean child env := by
  cases course with
  | noEntry => cases child <;> simp [acts, Clean, handedOver, issueFailed, settle, balanced_iff]
  | issueFails rc =>
    cases child <;> simp [acts, Clean, handedOver, issueFailed, settle, balanced_iff]
  | responds rc value transfer =>
    cases child with
    | false => simp [acts, Clean, handedOver, crtIvfFinalize, settle, balanced_iff]
    | true =>
      by_cases hrc : rc = 0
      · rcases crtIvfBulkTransfer_starts .write value transfer with
          ⟨hstarts, heq⟩ | ⟨hstarts, ⟨_, heq⟩ | ⟨_, rc', heq⟩⟩ <;>
        simp [acts, Clean, handedOver, crtIvfFinalize, settle, balanced_iff, hrc, hstarts, heq,
          crtIvfBulkTransferDoneCb]
      · simp [acts, Clean, handedOver, crtIvfFinalize, settle, balanced_iff, hrc]
  | waits rcValue pending =>
    by_cases hrecord : env.pendingAllocated = true
    · cases child with
      | false =>
        by_cases hrc : rcValue = 0 <;> by_cases hget : pending.onGetRc = 0 <;>
          simp [acts, Clean, handedOver, pendingStep, settle, balanced_iff, hrecord, hrc, hget]
      | true =>
        by_cases hrc : rcValue = 0
        · by_cases hget : pending.onGetRc = 0
          · by_cases hfetch : pending.onFetchRc = 0
            · rcases crtIvfBulkTransfer_starts .pending pending.value pending.transfer with
                ⟨hstarts, heq⟩ | ⟨hstarts, ⟨_, heq⟩ | ⟨_, rc', heq⟩⟩ <;>
              simp [acts, Clean, handedOver, pendingStep, settle, balanced_iff, hrecord, hrc, hget,
                hfetch, hstarts, heq, crtIvfBulkTransferDoneCb]
            · simp [acts, Clean, handedOver, pendingStep, settle, balanced_iff, hrecord, hrc,
                hget, hfetch]
          · simp [acts, Clean, handedOver, pendingStep, settle, balanced_iff, hrecord, hrc, hget]
        · simp [acts, Clean, handedOver, pendingStep, settle, balanced_iff, hrecord, hrc]
    · -- the buffer is put before the record is allocated, and once more by the caller
      cases child <;>
        simp [acts, Clean, handedOver, issueFailed, settle, balanced_iff, hrecord]

namespace FetchEnv

/-- A child's fetch that does not get to `ivo_on_fetch` has no buffer. -/
theorem start_of_not_fetches {env : FetchEnv V} (h : ¬ env.Fetches) :
    ∃ acts, env.start true = .answered acts ∧
      ∀ bciRc buf, true ∉ bufEvents buf (settle bciRc acts) := by
  rw [Fetches] at h
  rw [start, if_pos rfl, crtHdlrIvFetch, crtHdlrIvFetchAux]
  by_cases hns : env.nsFound = true
  swap
  · exact ⟨_, if_pos (by simpa using hns), by simp [settle]⟩
  by_cases hops : env.opsFound = true
  swap
  · simp [hns, hops, settle]
  by_cases hauxNs : env.auxNsFound = true
  swap
  · simp [hns, hops, hauxNs, settle]
  by_cases hauxOps : env.auxOpsFound = true
  swap
  · simp [hns, hops, hauxNs, hauxOps, settle]
  have hget : env.onGetReadRc ≠ 0 := fun hget => h ⟨hns, hops, hauxNs, hauxOps, hget⟩
  simp [hns, hops, hauxNs, hauxOps, hget, settle]

variable (env : FetchEnv V) (course : FetchCourse V) (bciRc : ℤ)

theorem balanced_child : Balanced (fetchTrace true env course bciRc) ↔ env.Clean true course := by
  rw [fetchTrace, Clean]
  by_cases hfetches : env.Fetches
  swap
  · obtain ⟨acts, hstart, hacts⟩ := start_of_not_fetches hfetches
    have hissues : ¬ env.Issues true := by
      rintro ⟨hns, hops, haux, hget, _⟩
      exact hfetches ⟨hns, hops, haux.1, haux.2.1, hget⟩
    rw [hstart]
    simp only [hfetches, hissues, false_imp_iff, imp_true_iff, and_self, iff_true]
    exact balanced_of_not_got (hacts bciRc)
  have hne : (0 : ℤ) ≠ -derIvcbForward := by decide
  obtain ⟨hns, hops, hauxNs, hauxOps, hread⟩ := id hfetches
  have hissues : env.Issues true ↔ env.onFetchRc = -derIvcbForward ∧ env.isRoot = false ∧
      env.onPutRc = 0 ∧ env.onGetWriteRc = 0 ∧ env.nextNodeRc = 0 ∧
      env.cbInfoAllocated = true := by
    simp only [Issues, hns, hops, hauxNs, hauxOps, hread, if_true, true_and]
    tauto
  -- the guards out of the way
  rw [start, if_pos rfl, crtHdlrIvFetch, crtHdlrIvFetchAux]
  simp only [hns, hops, hauxNs, hauxOps, hread, Bool.true_eq_false, if_false, ne_eq,
    not_true_eq_false]
  by_cases hfetch : env.onFetchRc = 0
  · -- the value is sent to the child
    rcases crtIvfBulkTransfer_starts .read env.value env.transfer with
      ⟨hstarts, heq⟩ | ⟨hstarts, ⟨hcreate, heq⟩ | ⟨hcreate, rc, heq⟩⟩
    · simp [hissues, hfetches, hfetch, hne, heq, hstarts, settle, balanced_iff,
        crtIvfBulkTransferDoneCb]
    · simp [hissues, hfetches, hfetch, hne, heq, hstarts, hcreate, settle, balanced_iff]
    · simp [hissues, hfetches, hfetch, hne, heq, hstarts, hcreate, settle, balanced_iff]
  by_cases hforward : env.onFetchRc = -derIvcbForward
  swap
  · simp [hissues, hfetches, hfetch, hforward, settle, balanced_iff]
  by_cases hroot : env.isRoot = true
  · simp [hissues, hfetches, hforward, hne.symm, hroot, settle, balanced_iff]
  by_cases hput : env.onPutRc = 0
  swap
  · simp [hissues, hfetches, hforward, hne.symm, hroot, hput, settle, balanced_iff]
  by_cases hget : env.onGetWriteRc = 0
  swap
  · simp [hissues, hfetches, hforward, hne.symm, hroot, hput, hget, settle, balanced_iff]
  by_cases hnext : env.nextNodeRc = 0
  swap
  · simp [hissues, hfetches, hforward, hne.symm, hroot, hput, hget, hnext, settle,
      balanced_iff]
  by_cases halloc : env.cbInfoAllocated = true
  swap
  · simp [hissues, hfetches, hforward, hne.symm, hroot, hput, hget, hnext, halloc, settle,
      balanced_iff]
  have hcourse := course.balanced_iff_clean true env bciRc
  simpa [hissues, hfetches, hforward, hne.symm, hroot, hput, hget, hnext, halloc, handedOver]
    using hcourse

/-- A fetch of the node itself is forwarded, or it is balanced already. -/
theorem start_own : (env.Issues false ∧ env.start false = .forwarded handedOver) ∨
      (¬ env.Issues false ∧ (env.start false = .refused ∨
        ∃ acts, env.start false = .answered acts ∧ Balanced (settle bciRc acts))) := by
  have hne : (0 : ℤ) ≠ -derIvcbForward := by decide
  simp only [Issues, start, crtIvFetch, Bool.false_eq_true, if_false]
  by_cases hns : env.nsFound = true
  swap
  · simp [hns]
  by_cases hops : env.opsFound = true
  swap
  · simp [hops]
  by_cases hhash : env.onHashRc = 0
  swap
  · simp [hns, hops, hhash, settle, balanced_iff]
  by_cases hvalue : env.valueAllocated = true
  swap
  · simp [hns, hops, hhash, hvalue, settle, balanced_iff]
  by_cases hread : env.onGetReadRc = 0
  swap
  · simp [hns, hops, hhash, hvalue, hread, settle, balanced_iff]
  by_cases hforward : env.onFetchRc = -derIvcbForward
  swap
  · by_cases hfetch : env.onFetchRc = 0 <;>
      simp [hns, hops, hhash, hvalue, hread, hforward, hfetch, hne, settle, balanced_iff]
  by_cases hwrite : env.onGetWriteRc = 0
  swap
  · simp [hns, hops, hhash, hvalue, hread, hforward, hne.symm, hwrite, settle, balanced_iff]
  by_cases hnext : env.nextNodeRc = 0
  swap
  · simp [hns, hops, hhash, hvalue, hread, hforward, hne.symm, hwrite, hnext, settle, balanced_iff]
  by_cases halloc : env.cbInfoAllocated = true
  swap
  · simp [hns, hops, hhash, hvalue, hread, hforward, hne.symm, hwrite, hnext, halloc, settle,
      balanced_iff]
  simp [hns, hops, hhash, hvalue, hread, hforward, hne.symm, hwrite, hnext, halloc, handedOver]

theorem balanced_own : Balanced (fetchTrace false env course bciRc) ↔ env.Clean false course := by
  rw [fetchTrace, Clean]
  rcases start_own env bciRc with ⟨hissues, hstart⟩ | ⟨hissues, hstart | ⟨acts, hstart, hacts⟩⟩
  · simp [hissues, hstart, course.balanced_iff_clean false env bciRc]
  · simp [hissues, hstart, balanced_iff]
  · simp [hissues, hstart, hacts]

end FetchEnv

/-! ### When an update is balanced -/

/-- An eager collective is handed to `crt_req_send`, which refuses it. -/
def IvSync.Refused (sync : IvSync) (hasValue : Bool) (env : SyncIssueEnv) : Prop :=
  sync.ivsMode = .eager ∧ (ivsyncIssue sync hasValue env).2 = true ∧
    (ivsyncIssue sync hasValue env).1 ≠ 0
deriving Decidable

/-- The buffer is put once, and once more if an eager collective is refused. -/
theorem bufEvents_crtIvsyncRpcIssue (buf : IvBuf) (sync : IvSync) (hasValue : Bool) (updateRc : ℤ)
    (env : SyncIssueEnv) : bufEvents buf (crtIvsyncRpcIssue (V := V) sync hasValue updateRc env) =
      if buf = .write then if sync.Refused hasValue env then [false, false] else [false]
      else [] := by
  rw [crtIvsyncRpcIssue]
  by_cases hrc : (ivsyncIssue sync hasValue env).1 = 0
  · by_cases hmode : sync.ivsMode = .eager
    · have hsent := ivsyncIssue_sent hmode hrc
      cases buf <;> simp [IvSync.Refused, hrc, hmode, hsent, handleIvsyncResponse]
    · cases buf <;> simp [IvSync.Refused, hrc, hmode]
  · by_cases hsent : sync.ivsMode = .eager ∧ (ivsyncIssue sync hasValue env).2 = true
    · cases buf <;> simp [IvSync.Refused, hrc, hsent, handleIvsyncResponse]
    · have hsent' : ¬ sync.Refused hasValue env := fun h => hsent ⟨h.1, h.2.1⟩
      rw [if_neg hsent, if_neg hsent']
      cases buf <;> simp [hrc]

namespace UpdateEnv

theorem crtIvUpdateInternal_of_not_admitted (h : ¬ env.Admitted sync) (hasValue : Bool)
    (response : ℤ × ℤ) : (crtIvUpdateInternal (V := V) sync hasValue env response).2 = [] := by
  rw [Admitted] at h
  rw [crtIvUpdateInternal]
  by_cases hsync : checkSyncType sync = 0
  swap
  · simp [hsync]
  by_cases hns : env.nsFound = true
  swap
  · simp [hsync, hns]
  by_cases hself : env.selfKnown = true
  swap
  · simp [hsync, hns, hself]
  by_cases hops : env.opsFound = true
  swap
  · simp [hsync, hns, hself, hops]
  have hhash : env.onHashRc ≠ 0 := fun hhash => h ⟨hsync, hns, hself, hops, hhash⟩
  simp [hsync, hns, hself, hops, hhash]

/-- An update that begins and does not get to the synchronisation puts the buffer
once. -/
theorem balanced_of_not_syncs (hadmitted : env.Admitted sync)
    (h : ¬ (sync.bidirectional = false ∧ env.Syncs)) (hasValue : Bool) (response : ℤ × ℤ) :
    Balanced (crtIvUpdateInternal (V := V) sync hasValue env response).2 := by
  obtain ⟨hsync, hns, hself, hops, hhash⟩ := hadmitted
  simp only [crtIvUpdateInternal, hsync, hns, hself, hops, hhash, ne_eq, not_true_eq_false,
    if_false, Bool.true_eq_false]
  by_cases hrc : env.onUpdateRc = 0
  · have hbi : sync.bidirectional = true := by
      by_contra hbi
      exact h ⟨by simpa using hbi, Or.inl hrc⟩
    rw [if_pos hrc, if_pos hbi]
    exact balanced_get_put _ fun buf => by cases buf <;> rfl
  rw [if_neg hrc]
  by_cases hforward : env.onUpdateRc = -derIvcbForward
  swap
  · rw [if_neg hforward]
    exact balanced_get_put _ fun buf => by cases buf <;> rfl
  rw [if_pos hforward]
  split_ifs with hnext halloc hissue
  · exact balanced_get_put _ fun buf => by cases buf <;> rfl
  · -- the response of a bidirectional update puts the buffer
    have hbi : sync.bidirectional = true := by
      by_contra hbi
      exact h ⟨by simpa using hbi,
        Or.inr ⟨hforward, hnext, by simpa using halloc, hissue⟩⟩
    rw [originatorResponse, if_pos hbi]
    exact balanced_get_put _ fun buf => by cases buf <;> rfl
  · exact balanced_get_put _ fun buf => by cases buf <;> rfl
  · exact balanced_get_put _ fun buf => by cases buf <;> rfl

theorem balanced_iff_clean (sync : IvSync) (hasValue : Bool) (env : UpdateEnv) (response : ℤ × ℤ) :
    Balanced (crtIvUpdateInternal (V := V) sync hasValue env response).2 ↔
      env.Clean sync hasValue := by
  by_cases hadmitted : env.Admitted sync
  swap
  · rw [crtIvUpdateInternal_of_not_admitted hadmitted]
    simp [Clean, hadmitted, balanced_iff]
  by_cases h : sync.bidirectional = false ∧ env.Syncs
  swap
  · refine iff_of_true (balanced_of_not_syncs hadmitted h hasValue response) ?_
    intro _ _ hsyncs hmode
    exact absurd ⟨not_bidirectional_of_mode hadmitted.1 (by simp [hmode]), hsyncs⟩ h
  obtain ⟨hbi, hsyncs⟩ := h
  have hrefused : Balanced (crtIvUpdateInternal (V := V) sync hasValue env response).2 ↔
      (env.onGetRc = 0 → ¬ sync.Refused hasValue env.sync) := by
    rw [crtIvUpdateInternal_of_syncs hadmitted hbi hsyncs, balanced_iff]
    simp only [bufEvents_get, bufEvents_crtIvsyncRpcIssue]
    by_cases hget : env.onGetRc = 0 <;> by_cases hrefused : sync.Refused hasValue env.sync <;>
      simp [hget, hrefused]
  rw [hrefused, Clean, IvSync.Refused]
  by_cases hmode : sync.ivsMode = .eager
  swap
  · simp [hmode]
  rcases ivsyncIssue_cases sync hasValue env.sync with
    ⟨hnone, _⟩ | ⟨_, hnot, rc, _, heq⟩ | ⟨_, hsent, heq⟩
  · cases hmode.symm.trans hnone
  · -- nothing is sent
    refine iff_of_true (by simp [heq]) fun _ _ _ _ hevent hbulk hcreate hcb hkey => ?_
    exact absurd ⟨by simp [hmode], hevent, hbulk, hcreate, hcb, fun _ => hkey⟩ hnot
  · obtain ⟨_, hevent, hbulk, hcreate, hcb, hkey⟩ := hsent
    simp only [heq, hmode, hadmitted, hsyncs, hevent, hcreate, hcb, hkey hmode, true_and, ne_eq,
      not_not, forall_const, not_false_eq_true]
    exact ⟨fun h hget _ => h hget, fun h hget => h hget hbulk⟩

end UpdateEnv

namespace UpdateHop

/-- A node that gets to `ivo_on_update` puts the buffer exactly if the update is taken
or sent on. -/
theorem bufEvents_aux {hop : UpdateHop} (h : hop.Ready) (bidirectional : Bool)
    (response : ℤ × ℤ) (buf : IvBuf) :
    bufEvents buf (hop.bulkUpdateTransferDoneAux (V := V) bidirectional response).2 =
      if buf = .write ∧ hop.updateCbInfoAllocated = true ∧ (hop.onUpdateRc = 0 ∨ hop.SendsOn)
      then [false] else [] := by
  have hne : (0 : ℤ) ≠ -derIvcbForward := by decide
  simp only [SendsOn, h, Forwards, true_and, bulkUpdateTransferDoneAux]
  by_cases halloc : hop.updateCbInfoAllocated = true
  swap
  · simp [halloc, replied]
  by_cases hforward : hop.onUpdateRc = -derIvcbForward
  · by_cases hparent : hop.parentRc = 0
    swap
    · simp [halloc, hforward, hne.symm, hparent, replied]
    by_cases hissue : hop.issueRc = 0
    swap
    · simp [halloc, hforward, hne.symm, hparent, hissue, replied]
    cases bidirectional <;> cases buf <;>
      simp [halloc, hforward, hparent, hissue, handleIvupdateResponse, transferBackToChild,
        replied]
  · by_cases hrc : hop.onUpdateRc = 0
    · cases bidirectional <;> cases buf <;>
        simp [halloc, hrc, hne, transferBackToChild, replied]
    · simp [halloc, hforward, hrc, replied]

variable (hop : UpdateHop) (bidirectional hasValue : Bool)

theorem not_got_of_response (cciRc outputRc : ℤ) (buf : IvBuf) : true ∉ bufEvents buf
      (hop.handleIvupdateResponse (V := V) bidirectional hasValue cciRc outputRc).2 := by
  rw [handleIvupdateResponse, transferBackToChild]
  cases bidirectional <;> cases hasValue <;> cases buf <;> simp [replied]

theorem not_got_of_invalidate (response : ℤ × ℤ) (buf : IvBuf) :
    true ∉ bufEvents buf (hop.hdlrInvalidate (V := V) bidirectional response).2 := by
  rw [hdlrInvalidate]
  split_ifs with hforward hparent halloc hissue
  · simp [replied]
  · simp [replied]
  · simp [replied]
  · exact hop.not_got_of_response bidirectional false _ _ buf
  · simp [replied]

theorem balanced_iff_clean (hop : UpdateHop) (response : ℤ × ℤ) :
    Balanced (hop.crtHdlrIvUpdate (V := V) bidirectional hasValue response).2 ↔
      hop.Clean hasValue := by
  cases hasValue with
  | false =>
    refine iff_of_true (balanced_of_not_got fun buf => ?_) (by simp [Clean])
    simp only [crtHdlrIvUpdate, if_true]
    split_ifs with hns hops
    · simp [replied]
    · simp [replied]
    · exact hop.not_got_of_invalidate bidirectional response buf
  | true =>
    by_cases hready : hop.Ready
    · rw [crtHdlrIvUpdate_of_ready hready, balanced_iff]
      simp only [bufEvents_get, bufEvents_aux hready]
      by_cases hput : hop.updateCbInfoAllocated = true ∧ (hop.onUpdateRc = 0 ∨ hop.SendsOn) <;>
        simp [Clean, hready, hready.1, hready.2.1, hready.2.2.1, hput]
    · -- a buffer that has been got is kept
      obtain ⟨rc, _, heq⟩ := crtHdlrIvUpdate_of_not_ready (V := V) hready bidirectional response
      rw [heq]
      by_cases hfound : hop.nsFound = true ∧ hop.opsFound = true
      · by_cases hget : hop.onGetRc = 0 <;>
          simp [Clean, hready, hfound, hget, balanced_iff]
      · have hclean : hop.Clean true := fun _ hns hops => absurd ⟨hns, hops⟩ hfound
        simp [hclean, hfound, balanced_iff]

end UpdateHop

namespace SyncHop

theorem balanced_iff_clean (event : IvSyncEvent) (hasBulk : Bool) (hop : SyncHop) :
    Balanced (hop.crtHdlrIvSync (V := V) event hasBulk).2 ↔ hop.Clean event hasBulk := by
  rw [crtHdlrIvSync, Clean]
  unfold crtHdlrIvSyncAux
  by_cases hns : hop.nsFound = true
  swap
  · simp [hns, replied, balanced_iff]
  by_cases haux : hop.auxNsFound = true
  swap
  · simp [hns, haux, replied, balanced_iff]
  cases hasBulk with
  | false => simp [hns, haux, replied, balanced_iff]
  | true =>
    cases event with
    | notify | unknown => simp [hns, haux, replied, balanced_iff]
    | update =>
      by_cases hget : hop.onGetRc = 0
      swap
      · simp [hns, haux, hget, replied, balanced_iff]
      by_cases halloc : hop.iovsAllocated = true
      swap
      · simp [hns, haux, hget, halloc, replied, balanced_iff]
      by_cases haccess : hop.bulkAccessRc = 0
      swap
      · simp [hns, haux, hget, halloc, haccess, replied, balanced_iff]
      by_cases hrefresh : hop.onRefreshRc = 0
      swap
      · simp [hns, haux, hget, halloc, haccess, hrefresh, replied, balanced_iff]
      by_cases hput : hop.onPutRc = 0 <;>
        simp [hns, haux, hget, halloc, haccess, hrefresh, hput, replied, balanced_iff]

theorem balanced_preForward (hop : SyncHop) :
    Balanced (hop.crtIvSyncCorpcPreForward (V := V)).2 := by
  rw [crtIvSyncCorpcPreForward, callPreSyncCb]
  split_ifs with hns hpre hget <;> simp_all [balanced_iff]

end SyncHop

/-- **The operations that put every buffer exactly once.**  It is kept if a transfer is not
started or an update fails after `ivo_on_get`, and put twice if `ivo_on_put` fails, a record or
the eager collective is refused. -/
theorem buffers_balanced_iff (op : IvOperation V) : Balanced op.trace ↔ op.Clean := by
  cases op with
  | fetch child env course bciRc =>
    cases child with
    | false => exact env.balanced_own course bciRc
    | true => exact env.balanced_child course bciRc
  | update sync hasValue env response => exact env.balanced_iff_clean sync hasValue response
  | updateHop bidirectional hasValue hop response =>
    exact hop.balanced_iff_clean bidirectional hasValue response
  | syncHop event hasBulk hop => exact hop.balanced_iff_clean event hasBulk
  | preSync hop => exact iff_of_true hop.balanced_preForward trivial

/-- A fetch that meets no error, with the given results. -/
def sampleBufferFetch (onFetchRc : ℤ) (transfer : TransferEnv) (pendingAllocated : Bool) :
    FetchEnv Unit where
  nsFound := true
  opsFound := true
  auxNsFound := true
  auxOpsFound := true
  onHashRc := 0
  valueAllocated := true
  onGetReadRc := 0
  onFetchRc := onFetchRc
  value := ()
  onPutRc := 0
  onGetWriteRc := 0
  isRoot := false
  nextNodeRc := 0
  cbInfoAllocated := true
  entryAllocated := true
  pendingAllocated := pendingAllocated
  transfer := transfer

/-- A buffer is kept, kept, and put twice. -/
theorem buffers_kept_and_put_twice :
    bufEvents .read (IvOperation.fetch true
      (sampleBufferFetch 0 ⟨0, true, -derNomem⟩ true) .noEntry 0).trace = [true] ∧
    bufEvents .write (IvOperation.updateHop (V := Unit) false true
      (sampleHop (-derInval)) (0, 0)).trace = [true] ∧
    bufEvents .write (IvOperation.fetch true
      (sampleBufferFetch (-derIvcbForward) ⟨0, true, 0⟩ false)
      (.waits 0 ⟨0, 0, (), ⟨0, true, 0⟩⟩) 0).trace = [true, false, false] := by
  decide

end Cart
