/-
The synchronisation of an incast variable on all nodes (`crt_iv.c`).

The collective `CRT_OPC_IV_SYNC` takes a new value to every node; the originator's rank in the
group is excluded, but looked for as a rank of the primary group.
`crt_iv_sync_corpc_aggregate` merges the outputs, but `handle_ivsync_response` looks at the
result of the collective only.

Main result: `eager_refresh_reported_iff`.
-/
import Cart.CorpcNet
import Cart.IvUpdate

namespace Cart

variable {V ι : Type} {sync : IvSync}

/-! ### One node -/

/-- What a node meets, in the handler and in the pre-forward callback. -/
structure SyncHop where
  nsFound : Bool
  auxNsFound : Bool
  onRefreshRc : ℤ
  onGetRc : ℤ
  iovsAllocated : Bool
  bulkAccessRc : ℤ
  onPutRc : ℤ
  preNsFound : Bool
  hasPreSync : Bool
  preGetRc : ℤ
  preIovsAllocated : Bool
  preBulkAccessRc : ℤ
  preSyncRc : ℤ
  deriving DecidableEq, Repr

namespace SyncHop

variable (event : IvSyncEvent) (hasBulk : Bool) (hop : SyncHop)

/-- Without a bulk handle the value is invalidated. -/
def crtHdlrIvSyncAux : ℤ × List (IvAct V) :=
  if hop.auxNsFound = false then replied [] (-derNonexist)
  else if hasBulk = false then replied [] hop.onRefreshRc
  else
    match event with
    | .update =>
      if hop.onGetRc ≠ 0 then replied [.get .read hop.onGetRc] hop.onGetRc
      else if hop.iovsAllocated = false then replied [.get .read 0, .put .read] (-derNomem)
      else if hop.bulkAccessRc ≠ 0 then replied [.get .read 0, .put .read] hop.bulkAccessRc
      else if hop.onRefreshRc ≠ 0 then replied [.get .read 0, .put .read] hop.onRefreshRc
      else if hop.onPutRc ≠ 0 then
        -- need_put is still set
        replied [.get .read 0, .put .read, .put .read] hop.onPutRc
      else replied [.get .read 0, .put .read] 0
    | .notify => replied [] hop.onRefreshRc
    | .unknown => replied [] (-derInval)

def crtHdlrIvSync : ℤ × List (IvAct V) :=
  if hop.nsFound = false then replied [] (-derNonexist)
  else hop.crtHdlrIvSyncAux event hasBulk

/-- When there is no memory for the iovs the result is the `0` of `ivo_on_get`. -/
def callPreSyncCb : ℤ × List (IvAct V) :=
  if hop.preGetRc ≠ 0 then (hop.preGetRc, [.get .read hop.preGetRc])
  else if hop.preIovsAllocated = false then (0, [.get .read 0, .put .read])
  else if hop.preBulkAccessRc ≠ 0 then (hop.preBulkAccessRc, [.get .read 0, .put .read])
  else (hop.preSyncRc, [.get .read 0, .put .read])

def crtIvSyncCorpcPreForward : ℤ × List (IvAct V) :=
  if hop.preNsFound = false then (-derNonexist, [])
  else if hop.hasPreSync then hop.callPreSyncCb
  else (0, [])

/-- `ivo_on_refresh`, or `ivo_on_get` or `crt_bulk_access` before it, fails on the
node. -/
def Fails : Prop :=
  hop.nsFound = true ∧ hop.auxNsFound = true ∧
    ((hasBulk = false ∧ hop.onRefreshRc ≠ 0) ∨
      (hasBulk = true ∧ event = .notify ∧ hop.onRefreshRc ≠ 0) ∨
      (hasBulk = true ∧ event = .update ∧
        (hop.onGetRc ≠ 0 ∨
          (hop.iovsAllocated = true ∧ (hop.bulkAccessRc ≠ 0 ∨ hop.onRefreshRc ≠ 0)))))
deriving Decidable

end SyncHop

/-- The result of the parent after that of a child. -/
def crtIvSyncCorpcAggregate (source result : ℤ) : ℤ :=
  if result = 0 then if source ≠ 0 then source else result else result

/-! ### All nodes -/

/-- A synchronisation: its type, whether it carries a value, the originator's ranks in the group
and in the primary group, and what each node meets. -/
structure SyncRequest (ι : Type) where
  sync : IvSync
  hasBulk : Bool
  gpSelf : ℕ
  priRoot : ℕ
  hops : List ι → SyncHop

/-- The collective is registered with its operations, its output is the result, and
`gp_self` is excluded. -/
def syncCfg (req : SyncRequest ι) : CorpcNetCfg ι :=
  ⟨fun _ => true, fun _ => 4, req.priRoot = req.gpSelf⟩

/-- The requests on all nodes, and the results in their outputs. -/
structure SyncNet (ι : Type) where
  net : CorpcNet ι
  outputs : List ι → ℤ
  received : List ι → ℤ

namespace SyncNet

def init (ι : Type) : SyncNet ι := ⟨CorpcNet.init ι, fun _ => 0, fun _ => 0⟩

/-- A reply is merged into the output of the node `p`. -/
def mergeOutput (received : List ι → ℤ) (p : List ι) (result : ℤ) (m : MergeOp × ι) : ℤ :=
  match m.1 with
  | .copy => received (m.2 :: p)
  | .aggregate => crtIvSyncCorpcAggregate (received (m.2 :: p)) result

variable [DecidableEq ι]

/-- The outputs that have come in: a delivered reply brings the one of the child. -/
def receive (s : SyncNet ι) : CorpcNetEvent ι → List ι → ℤ
  | .deliver p c _ => Function.update s.received (c :: p) (s.outputs (c :: p))
  | .on _ _ | .transportFail _ _ _ _ => s.received

/-- The output of the node of the event before anything is merged: the handler
writes its result there. -/
def own (req : SyncRequest ι) (s : SyncNet ι) : CorpcNetEvent ι → ℤ
  | .on p (.node .localReply) =>
    ((req.hops p).crtHdlrIvSync (V := Unit) req.sync.ivsEvent req.hasBulk).1
  | e => s.outputs e.place

/-- A step of the collective, with the replies merged that it merges. -/
def step (req : SyncRequest ι) (s : SyncNet ι) (e : CorpcNetEvent ι) : Option (SyncNet ι) :=
  (s.net.step (syncCfg req) e).map fun net =>
    let merged := (net.nodes e.place).node.merged.drop (s.net.nodes e.place).node.merged.length
    { net
      outputs := Function.update s.outputs e.place
        (merged.foldl (mergeOutput (s.receive e) e.place) (s.own req e))
      received := s.receive e }

end SyncNet

/-- The pre-forward callback decides how the collective starts on a node. -/
def SyncRequest.PreForward {ι : Type} (req : SyncRequest ι) : CorpcNetEvent ι → Prop
  | .on p (.node (.start (.fail rc))) =>
    ((req.hops p).crtIvSyncCorpcPreForward (V := Unit)).1 ≠ 0 →
      rc = ((req.hops p).crtIvSyncCorpcPreForward (V := Unit)).1
  | .on p (.node (.start (.children _))) =>
    ((req.hops p).crtIvSyncCorpcPreForward (V := Unit)).1 = 0
  | _ => True

instance {ι : Type} (req : SyncRequest ι) (e : CorpcNetEvent ι) : Decidable (req.PreForward e) :=
  match e with
  | .on _ (.node (.start (.fail _))) => inferInstanceAs (Decidable (_ → _))
  | .on _ (.node (.start (.children _))) => inferInstanceAs (Decidable (_ = _))
  | .on _ (.handle _) | .on _ (.bulkDone _ _) | .on _ (.node (.create _))
  | .on _ (.node .forwardDone) | .on _ (.node (.dispatch _)) | .on _ (.node .localDone)
  | .on _ (.node (.childReply _ _ _)) | .on _ (.node .localReply)
  | .deliver _ _ _ | .transportFail _ _ _ _ => isTrue trivial

/-- A synchronisation on all nodes. -/
def syncNetLts {ι : Type} [DecidableEq ι] (req : SyncRequest ι) :
    Lts (SyncNet ι) (CorpcNetEvent ι) where
  init s := s = SyncNet.init ι
  enabled s e := s.net.Enabled (syncCfg req) e ∧ req.PreForward e
  step := SyncNet.step req

instance {ι : Type} [DecidableEq ι] (req : SyncRequest ι) (s : SyncNet ι) (e : CorpcNetEvent ι) :
    Decidable ((syncNetLts req).enabled s e) :=
  inferInstanceAs (Decidable ((_ ∧ _) ∧ _))

namespace SyncNet

variable [DecidableEq ι]

/-- The outputs do not act on the collective. -/
theorem net_step {req : SyncRequest ι} {s s' : SyncNet ι} {e : CorpcNetEvent ι}
    (hstep : s.step req e = some s') : s.net.step (syncCfg req) e = some s'.net := by
  obtain ⟨net, hnet, rfl⟩ := Option.map_eq_some_iff.mp hstep
  exact hnet

theorem net_invariant (req : SyncRequest ι) :
    (syncNetLts req).Invariant fun s => s.net.Inv (syncCfg req) where
  init := by
    rintro s rfl
    exact CorpcNet.init_inv
  step := fun _ _ _ h henabled hstep => h.step henabled.1 (net_step hstep)

end SyncNet

/-! ### What the callback is told -/

namespace UpdateEnv

/-- The update gets as far as the synchronisation. -/
def Syncs (env : UpdateEnv) : Prop :=
  env.onUpdateRc = 0 ∨ env.onUpdateRc = -derIvcbForward ∧ env.Forwards

/-- The result of the update, with the reply of the next node if there is one. -/
def updateRc (env : UpdateEnv) (response : ℤ × ℤ) : ℤ :=
  if env.onUpdateRc = 0 then 0 else if response.1 ≠ 0 then response.1 else response.2

theorem not_bidirectional_of_mode (h : checkSyncType sync = 0)
    (hmode : sync.ivsMode ≠ .none) : sync.bidirectional = false := by
  have hinval : -derInval ≠ 0 := by decide
  rw [checkSyncType] at h
  by_contra hbi
  rw [if_pos (by simpa using hbi), if_pos hmode] at h
  exact hinval h

theorem crtIvUpdateInternal_of_syncs {env : UpdateEnv} (h : env.Admitted sync)
    (hbi : sync.bidirectional = false) (hsyncs : env.Syncs) (hasValue : Bool) (response : ℤ × ℤ) :
    (crtIvUpdateInternal (V := V) sync hasValue env response).2 = .get .write env.onGetRc ::
      crtIvsyncRpcIssue sync hasValue (env.updateRc response) env.sync := by
  obtain ⟨hsync, hns, hself, hops, hhash⟩ := h
  have hforward : -derIvcbForward ≠ 0 := by decide
  rcases hsyncs with hrc | ⟨hrc, hnext, halloc, hissue⟩
  · simp [crtIvUpdateInternal, updateRc, hsync, hns, hself, hops, hhash, hrc, hbi]
  · simp [crtIvUpdateInternal, updateRc, originatorResponse, hsync, hns, hself, hops, hhash, hrc,
      hbi, hforward, hnext, halloc, hissue]

end UpdateEnv

section

variable {ι : Type} (req : SyncRequest ι) (s : SyncNet ι)

/-- The refresh fails on the originator, or on a node whose handler has run. -/
def SyncNet.RefreshFails (env : SyncIssueEnv) : Prop :=
  (req.sync.ivsEvent ≠ .unknown ∧ env.onRefreshRc ≠ 0) ∨
    ∃ p, (s.net.nodes p).node.localReplied = true ∧ (req.hops p).Fails req.sync.ivsEvent req.hasBulk

/-- The results that the callback has been told: the last one only if the collective has called
back. -/
def SyncNet.told (env : UpdateEnv) (response : ℤ × ℤ) : List ℤ :=
  let completed := (s.net.nodes []).node.completed
  let results := completions (crtIvUpdateInternal (V := Unit) req.sync req.hasBulk
    { env with sync.cciRc := completed.headD 0 } response).2
  if (ivsyncIssue req.sync req.hasBulk env.sync).2 = true ∧ completed = [] then results.dropLast
  else results

end

/-- **When a failed refresh is reported.** Only if something else has failed, and if it is not in
`crt_ivsync_rpc_issue`, the collective has to call back: results of refreshes are overwritten or
not read. -/
theorem eager_refresh_reported_iff {ι : Type} [DecidableEq ι] (req : SyncRequest ι)
    (hmode : req.sync.ivsMode = .eager) (s : SyncNet ι) (hreach : (syncNetLts req).Reach s)
    (env : UpdateEnv) (hadmitted : env.Admitted req.sync) (hsyncs : env.Syncs) (response : ℤ × ℤ) :
    (s.RefreshFails req env.sync → ∃ r ∈ s.told req env response, r ≠ 0) ↔
    (s.RefreshFails req env.sync → req.sync.IssueFails req.hasBulk env.sync ∨
      (s.net.nodes []).node.completed ≠ [] ∧ (env.updateRc response ≠ 0 ∨
        ∃ p f, (p, f) ∈ s.net.failures ∧ (s.net.nodes p).phase ≠ .arrived)) := by
  have hbi : req.sync.bidirectional = false :=
    UpdateEnv.not_bidirectional_of_mode hadmitted.1 (by simp [hmode])
  have hacts (rc : ℤ) : completions (crtIvUpdateInternal (V := Unit) req.sync req.hasBulk
      { env with sync.cciRc := rc } response).2 =
      completions (crtIvsyncRpcIssue (V := Unit) req.sync req.hasBulk (env.updateRc response)
        { env.sync with cciRc := rc }) := by
    have hadmitted' : { env with sync.cciRc := rc }.Admitted req.sync := hadmitted
    rw [UpdateEnv.crtIvUpdateInternal_of_syncs hadmitted' hbi hsyncs]
    rfl
  have hissued (rc : ℤ) : ivsyncIssue req.sync req.hasBulk { env.sync with cciRc := rc } =
    ivsyncIssue req.sync req.hasBulk env.sync := rfl
  simp only [SyncNet.told, hacts, crtIvsyncRpcIssue, hissued, hmode, handleIvsyncResponse,
    ← ivsyncIssue_ne_zero_iff]
  by_cases hrc : (ivsyncIssue req.sync req.hasBulk env.sync).1 = 0
  · -- the collective has been sent, and its result tells of its failures only
    have hsent := ivsyncIssue_sent hmode hrc
    cases hcompleted : (s.net.nodes []).node.completed with
    | nil => simp [hrc, hsent, completions]
    | cons rc rest =>
      rw [← ((SyncNet.net_invariant req).reach hreach).result_ne_zero_iff
        (hcompleted ▸ List.mem_cons_self)]
      by_cases hcci : rc = 0 <;> simp [hrc, hsent, hcci, completions]
  · cases (ivsyncIssue req.sync req.hasBulk env.sync).2 with
    | false => simp [hrc, completions]
    | true =>
      cases (s.net.nodes []).node.completed <;> simp [hrc, completions]

/-- A node where nothing fails but `ivo_on_refresh`, with the given result. -/
def sampleSyncHop (onRefreshRc : ℤ) : SyncHop where
  nsFound := true
  auxNsFound := true
  onRefreshRc := onRefreshRc
  onGetRc := 0
  iovsAllocated := true
  bulkAccessRc := 0
  onPutRc := 0
  preNsFound := true
  hasPreSync := false
  preGetRc := 0
  preIovsAllocated := true
  preBulkAccessRc := 0
  preSyncRc := 0

/-- An originator that takes the update itself, and whose own refresh has the given
result. -/
def sampleSyncUpdate (onRefreshRc : ℤ) : UpdateEnv :=
  { sampleUpdate with onUpdateRc := 0, sync := ⟨onRefreshRc, 0, 0, true, true, 0, 0⟩ }

/-- The originator and one other node, which gets the value in a chained bulk
transfer. -/
def sampleSyncRun : List (CorpcNetEvent ℕ) :=
  [.on [] (.node (.start (.children [1]))), .on [] (.node (.create 0)),
    .on [] (.node .forwardDone), .on [1] (.handle (.good (some ⟨0, 8, true, 0, 0⟩))),
    .on [1] (.bulkDone 0 ⟨true, true, 0⟩), .on [1] (.node (.start (.children []))),
    .on [1] (.node .forwardDone), .on [1] (.node (.dispatch 0)), .on [1] (.node .localReply),
    .deliver [] 1 0]

/-- An update of which the refresh has this result on every node; the originator has the rank 0 in
the group. -/
def sampleSync (priRoot : ℕ) (onRefreshRc : ℤ) : SyncRequest ℕ :=
  ⟨⟨.eager, .update, false⟩, true, 0, priRoot, fun _ => sampleSyncHop onRefreshRc⟩

theorem eager_refresh_reported_sample :
    ∃ s, (syncNetLts (sampleSync 0 (-derInval))).Reach s ∧
      ((s.RefreshFails (sampleSync 0 (-derInval)) (sampleSyncUpdate 0).sync →
        ∃ r ∈ s.told (sampleSync 0 (-derInval)) (sampleSyncUpdate 0) (0, 0), r ≠ 0) ↔
      (s.RefreshFails (sampleSync 0 (-derInval)) (sampleSyncUpdate 0).sync →
        IvSync.IssueFails ⟨.eager, .update, false⟩ true (sampleSyncUpdate 0).sync ∨
        (s.net.nodes []).node.completed ≠ [] ∧ ((sampleSyncUpdate 0).updateRc (0, 0) ≠ 0 ∨
          ∃ p f, (p, f) ∈ s.net.failures ∧ (s.net.nodes p).phase ≠ .arrived))) := by
  have hrun : (syncNetLts (sampleSync 0 (-derInval))).Run (SyncNet.init ℕ) sampleSyncRun _ :=
    Lts.run_of_exec rfl
  exact ⟨_, ⟨_, _, rfl, hrun⟩, eager_refresh_reported_iff _ rfl _ ⟨_, _, rfl, hrun⟩
    (sampleSyncUpdate 0) (by decide) (Or.inl rfl) (0, 0)⟩

/-- The refresh fails on the other node, on the originator, or in the handler on the originator
where it is alone in a group that numbers it otherwise, and the callback is told success. -/
theorem failed_refresh_unreported :
    (∃ s, (syncNetLts (sampleSync 0 (-derInval))).Reach s ∧
      s.RefreshFails (sampleSync 0 (-derInval)) (sampleSyncUpdate 0).sync ∧
      s.outputs [] = -derInval ∧
      s.told (sampleSync 0 (-derInval)) (sampleSyncUpdate 0) (0, 0) = [0]) ∧
    (∃ s, (syncNetLts (sampleSync 0 0)).Reach s ∧
      s.RefreshFails (sampleSync 0 0) (sampleSyncUpdate (-derInval)).sync ∧
      s.told (sampleSync 0 0) (sampleSyncUpdate (-derInval)) (0, 0) = [0]) ∧
    ∃ s, (syncNetLts (sampleSync 7 (-derInval))).Reach s ∧
      s.RefreshFails (sampleSync 7 (-derInval)) (sampleSyncUpdate 0).sync ∧
      s.told (sampleSync 7 (-derInval)) (sampleSyncUpdate 0) (0, 0) = [0] :=
  ⟨⟨_, ⟨_, sampleSyncRun, rfl, Lts.run_of_exec rfl⟩, Or.inr ⟨[1], rfl, by decide⟩, rfl, by decide⟩,
    ⟨_, ⟨_, sampleSyncRun, rfl, Lts.run_of_exec rfl⟩, Or.inl (by decide), by decide⟩,
    ⟨_, ⟨_, [.on [] (.node (.start (.children []))), .on [] (.node .forwardDone),
        .on [] (.node (.dispatch 0)), .on [] (.node .localReply)], rfl, Lts.run_of_exec rfl⟩,
      Or.inr ⟨[], rfl, by decide⟩, by decide⟩⟩

end Cart
