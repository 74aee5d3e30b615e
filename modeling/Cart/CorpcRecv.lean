/-
Receiving a collective request (`crt_rpc_handler_common`, `crt_corpc.c`).

The errors of everything that it calls are answered by `crt_rpc_handler_common`, those of a
chained bulk transfer by `crt_corpc_chained_bulk_cb`, and the rest by the completion of the
collective.  Two exits leave the request with nobody: an empty bulk, and a bulk transfer that
fails.

Main result: `corpc_one_reply_iff`.
-/
import Cart.CorpcFailure

open List Option

namespace Cart

variable {ι : Type} {cfg : CorpcCfg}

/-- What the calls for a chained bulk handle return. -/
structure ChainedBulk where
  getLenRc : ℤ
  bulkLen : ℕ
  bufAllocated : Bool
  createRc : ℤ
  transferRc : ℤ

/-- What `crt_corpc_initiate` meets. -/
structure InitiateEnv where
  primaryGrp : Bool
  grpFound : Bool
  infoInitRc : ℤ

/-- What the calls of `crt_rpc_handler_common` return, up to the collective. -/
structure RecvEnv where
  unpackHeaderRc : ℤ
  opcFound : Bool
  rpcAllocated : Bool
  privInitRc : ℤ
  crInputSize : ℕ
  unpackBodyRc : ℤ
  coiRpcCb : Bool
  crtInitialized : Bool
  crtIsService : Bool
  cohBulkHdl : Option ChainedBulk
  initiate : InitiateEnv

/-- Who owes the reply when a function returns. -/
inductive Owes where
  | nobody
  | bulk
  | collective
  deriving DecidableEq, Repr

/-- The return code; with `0` the collective runs. -/
def InitiateEnv.crtCorpcInitiate (env : InitiateEnv) : ℤ :=
  if env.primaryGrp = false ∧ env.grpFound = false then -derInval else env.infoInitRc

/-- `crt_corpc_initiate`, with who owes the reply afterwards. -/
def InitiateEnv.handOver (env : InitiateEnv) : ℤ × Owes :=
  if env.crtCorpcInitiate = 0 then (0, .collective) else (env.crtCorpcInitiate, .nobody)

/-- The error replies it sends. -/
def crtCorpcChainedBulkCb (bciRc : ℤ) (env : InitiateEnv) : List ℤ × Owes :=
  if bciRc ≠ 0 then ([], .nobody)
  else
    let (rc, owes) := env.handOver
    (if rc ≠ 0 then [rc] else [], owes)

/-- The part of `crt_corpc_common_hdlr` for a chained bulk handle. -/
def ChainedBulk.start (bulk : ChainedBulk) : ℤ × Owes :=
  if bulk.getLenRc ≠ 0 ∨ bulk.bulkLen = 0 then (bulk.getLenRc, .nobody)
  else if bulk.bufAllocated = false then (-derNomem, .nobody)
  else if bulk.createRc ≠ 0 then (bulk.createRc, .nobody)
  else if bulk.transferRc ≠ 0 then (bulk.transferRc, .nobody)
  else (0, .bulk)

def RecvEnv.crtCorpcCommonHdlr (env : RecvEnv) : ℤ × Owes :=
  if env.crtInitialized = false then (-derUninit, .nobody)
  else if env.crtIsService = false then (-derNoPerm, .nobody)
  else
    match env.cohBulkHdl with
    | some bulk => bulk.start
    | none => env.initiate.handOver

/-- For a collective request: the error replies it sends. -/
def RecvEnv.crtRpcHandlerCommon (env : RecvEnv) : List ℤ × Owes :=
  if env.unpackHeaderRc ≠ 0 then ([-derMisc], .nobody)
  else if env.opcFound = false then ([-derUnreg], .nobody)
  else if env.rpcAllocated = false then ([-derDos], .nobody)
  else if env.privInitRc ≠ 0 then ([-derMisc], .nobody)
  else if 0 < env.crInputSize ∧ env.unpackBodyRc ≠ 0 then ([-derMisc], .nobody)
  else if env.coiRpcCb = false then ([-derUnreg], .nobody)
  else
    let (rc, owes) := env.crtCorpcCommonHdlr
    (if rc ≠ 0 then [rc] else [], owes)

/-- The request gets as far as the chained bulk handle. -/
def RecvEnv.Accepted (env : RecvEnv) : Prop :=
  env.unpackHeaderRc = 0 ∧ env.opcFound = true ∧ env.rpcAllocated = true ∧ env.privInitRc = 0 ∧
    (0 < env.crInputSize → env.unpackBodyRc = 0) ∧ env.coiRpcCb = true ∧
    env.crtInitialized = true ∧ env.crtIsService = true
deriving Decidable

/-- The length query succeeds with length `0`, and nobody has the request. -/
def RecvEnv.EmptyBulk (env : RecvEnv) : Prop :=
  env.Accepted ∧ ∃ bulk ∈ env.cohBulkHdl, bulk.getLenRc = 0 ∧ bulk.bulkLen = 0

/-! ### One reply, or somebody who owes it -/

/-- A function that returned `rc` leaves a reply, or somebody who owes it. -/
def Answered (r : List ℤ × Owes) : Prop :=
  r = ([], .bulk) ∨ r = ([], .collective) ∨ ∃ rc, rc ≠ 0 ∧ r = ([rc], .nobody)

theorem InitiateEnv.handOver_cases (env : InitiateEnv) :
    env.handOver = (0, .collective) ∨ ∃ rc, rc ≠ 0 ∧ env.handOver = (rc, .nobody) := by
  rw [handOver]
  split_ifs with h
  · exact .inl rfl
  · exact .inr ⟨_, h, rfl⟩

theorem ChainedBulk.start_cases (bulk : ChainedBulk) :
    (bulk.getLenRc = 0 ∧ bulk.bulkLen = 0 ∧ bulk.start = (0, .nobody)) ∨
      ¬ (bulk.getLenRc = 0 ∧ bulk.bulkLen = 0) ∧
        (bulk.start = (0, .bulk) ∨ ∃ rc, rc ≠ 0 ∧ bulk.start = (rc, .nobody)) := by
  rw [start]
  by_cases hlen : bulk.getLenRc = 0
  · by_cases h0 : bulk.bulkLen = 0
    · rw [if_pos (.inr h0), hlen]
      exact .inl ⟨rfl, h0, rfl⟩
    · right
      refine ⟨fun h => h0 h.2, ?_⟩
      rw [if_neg (by simp [hlen, h0])]
      split_ifs with halloc hcreate htransfer
      · exact .inr ⟨_, by decide, rfl⟩
      · exact .inr ⟨_, hcreate, rfl⟩
      · exact .inr ⟨_, htransfer, rfl⟩
      · exact .inl rfl
  · rw [if_pos (.inl hlen)]
    exact .inr ⟨fun h => hlen h.1, .inr ⟨_, hlen, rfl⟩⟩

theorem RecvEnv.answered_of_not_accepted {env : RecvEnv} (h : ¬ env.Accepted) :
    ∃ rc, rc ≠ 0 ∧ env.crtRpcHandlerCommon = ([rc], .nobody) := by
  rw [crtRpcHandlerCommon]
  by_cases hheader : env.unpackHeaderRc ≠ 0
  · rw [if_pos hheader]
    exact ⟨-derMisc, by decide, rfl⟩
  rw [if_neg hheader]
  by_cases hopc : env.opcFound = false
  · rw [if_pos hopc]
    exact ⟨-derUnreg, by decide, rfl⟩
  rw [if_neg hopc]
  by_cases halloc : env.rpcAllocated = false
  · rw [if_pos halloc]
    exact ⟨-derDos, by decide, rfl⟩
  rw [if_neg halloc]
  by_cases hinit : env.privInitRc ≠ 0
  · rw [if_pos hinit]
    exact ⟨-derMisc, by decide, rfl⟩
  rw [if_neg hinit]
  by_cases hbody : 0 < env.crInputSize ∧ env.unpackBodyRc ≠ 0
  · rw [if_pos hbody]
    exact ⟨-derMisc, by decide, rfl⟩
  rw [if_neg hbody]
  split_ifs with hcb
  · exact ⟨-derUnreg, by decide, rfl⟩
  rw [crtCorpcCommonHdlr]
  by_cases huninit : env.crtInitialized = false
  · rw [if_pos huninit]
    exact ⟨-derUninit, by decide, rfl⟩
  rw [if_neg huninit]
  by_cases hservice : env.crtIsService = false
  · rw [if_pos hservice]
    exact ⟨-derNoPerm, by decide, rfl⟩
  rw [Bool.not_eq_false] at hopc halloc hcb huninit hservice
  refine absurd ⟨not_not.mp hheader, hopc, halloc, not_not.mp hinit, fun hsize => ?_, hcb, huninit,
    hservice⟩ h
  exact not_not.mp fun hrc => hbody ⟨hsize, hrc⟩

theorem RecvEnv.crtRpcHandlerCommon_of_accepted {env : RecvEnv} (h : env.Accepted) :
    env.crtRpcHandlerCommon =
      let (rc, owes) := match env.cohBulkHdl with
        | some bulk => bulk.start
        | none => env.initiate.handOver
      (if rc ≠ 0 then [rc] else [], owes) := by
  obtain ⟨hheader, hopc, halloc, hinit, hbody, hcb, huninit, hservice⟩ := h
  have htrue : ∀ {b : Bool}, b = true → ¬ b = false := fun hb => (Bool.not_eq_false _).mpr hb
  rw [crtRpcHandlerCommon, crtCorpcCommonHdlr, if_neg (not_not.mpr hheader), if_neg (htrue hopc),
    if_neg (htrue halloc), if_neg (not_not.mpr hinit), if_neg fun hb => hb.2 (hbody hb.1),
    if_neg (htrue hcb), if_neg (htrue huninit), if_neg (htrue hservice)]

/-- **`crt_rpc_handler_common`** answers the request or hands it over, unless
the bulk is empty. -/
theorem RecvEnv.crtRpcHandlerCommon_cases (env : RecvEnv) :
    env.EmptyBulk ∧ env.crtRpcHandlerCommon = ([], .nobody) ∨
      ¬ env.EmptyBulk ∧ Answered env.crtRpcHandlerCommon := by
  by_cases hacc : env.Accepted
  · rw [crtRpcHandlerCommon_of_accepted hacc]
    cases hbulk : env.cohBulkHdl with
    | none =>
      right
      refine ⟨fun h => ?_, ?_⟩
      · obtain ⟨bulk, hmem, _⟩ := h.2
        rw [hbulk] at hmem
        cases hmem
      · rcases env.initiate.handOver_cases with heq | ⟨rc, hrc, heq⟩
        · exact .inr (.inl (by simp [heq]))
        · exact .inr (.inr ⟨rc, hrc, by simp [heq, hrc]⟩)
    | some bulk =>
      rcases bulk.start_cases with ⟨hlen, h0, heq⟩ | ⟨hne, heq | ⟨rc, hrc, heq⟩⟩
      · exact .inl ⟨⟨hacc, bulk, hbulk, hlen, h0⟩, by simp [heq]⟩
      all_goals
        right
        refine ⟨fun h => ?_, ?_⟩
        · obtain ⟨b, hmem, hb⟩ := h.2
          obtain rfl := Option.some.inj (hbulk.symm.trans hmem)
          exact hne hb
      · exact .inl (by simp [heq])
      · exact .inr (.inr ⟨rc, hrc, by simp [heq, hrc]⟩)
  · obtain ⟨rc, hrc, heq⟩ := answered_of_not_accepted hacc
    exact .inr ⟨fun h => hacc h.1, .inr (.inr ⟨rc, hrc, heq⟩)⟩

theorem crtCorpcChainedBulkCb_cases (bciRc : ℤ) (env : InitiateEnv) :
    bciRc ≠ 0 ∧ crtCorpcChainedBulkCb bciRc env = ([], .nobody) ∨
      bciRc = 0 ∧ (crtCorpcChainedBulkCb bciRc env = ([], .collective) ∨
        ∃ rc, rc ≠ 0 ∧ crtCorpcChainedBulkCb bciRc env = ([rc], .nobody)) := by
  rw [crtCorpcChainedBulkCb]
  by_cases hbci : bciRc = 0
  · right
    rw [if_neg (not_not.mpr hbci)]
    rcases env.handOver_cases with heq | ⟨rc, hrc, heq⟩
    · exact ⟨hbci, .inl (by simp [heq])⟩
    · exact ⟨hbci, .inr ⟨rc, hrc, by simp [heq, hrc]⟩⟩
  · rw [if_pos hbci]
    exact .inl ⟨hbci, rfl⟩

/-! ### The life of a received request -/

/-- Where the request is. -/
inductive RecvPhase where
  | arrived
  | owed (owes : Owes)
  deriving DecidableEq, Repr

/-- A received request: the error replies sent for it, and the collective. -/
structure RecvState (ι : Type) where
  phase : RecvPhase
  errors : List ℤ
  node : CorpcNode ι

/-- What happens to a received request. -/
inductive RecvEvent (ι : Type) where
  | handle (env : RecvEnv)
  | bulkDone (bciRc : ℤ) (env : InitiateEnv)
  | node (e : CorpcEvent ι)

namespace RecvState

/-- A request that has just arrived. -/
def init (ι : Type) : RecvState ι := ⟨.arrived, [], CorpcNode.init ι⟩

/-- The state after a function that sent `r.1` and left the reply to `r.2`. -/
def answer (s : RecvState ι) (r : List ℤ × Owes) : RecvState ι :=
  { s with phase := .owed r.2, errors := s.errors ++ r.1 }

/-- All replies to the parent; the root replies to nobody. -/
def replies (cfg : CorpcCfg) (s : RecvState ι) : List ℤ :=
  s.errors ++ if cfg.amRoot then [] else s.node.completed

variable [DecidableEq ι]

def step (cfg : CorpcCfg) (s : RecvState ι) : RecvEvent ι → Option (RecvState ι)
  | .handle env => some (s.answer env.crtRpcHandlerCommon)
  | .bulkDone bciRc env => some (s.answer (crtCorpcChainedBulkCb bciRc env))
  | .node e => (s.node.step cfg e).map fun n => { s with node := n }

def Enabled (s : RecvState ι) : RecvEvent ι → Prop
  | .handle _ => s.phase = .arrived
  | .bulkDone _ _ => s.phase = .owed .bulk
  | .node e => s.phase = .owed .collective ∧ s.node.Enabled e

instance (s : RecvState ι) (e : RecvEvent ι) : Decidable (s.Enabled e) := by
  cases e <;> dsimp only [Enabled] <;> infer_instance

end RecvState

/-- `crt_corpc_initiate` never excludes the root. -/
def recvCfg (coOps : Bool) (crOutputSize : ℕ) (amRoot : Bool) : CorpcCfg :=
  ⟨coOps, false, crOutputSize, amRoot⟩

/-- A received request on a node. -/
@[reducible]
def recvLts (cfg : CorpcCfg) (ι : Type) [DecidableEq ι] : Lts (RecvState ι) (RecvEvent ι) where
  init s := s = RecvState.init ι
  enabled := RecvState.Enabled
  step := RecvState.step cfg

/-- What happens in the collective. -/
def RecvEvent.nodeEvents {ι : Type} : List (RecvEvent ι) → List (CorpcEvent ι) :=
  List.filterMap fun
    | .node e => some e
    | .handle _ | .bulkDone _ _ => none

/-- The bulk is not empty, its transfer does not fail, the node is not the root, and no child
replies before a dispatch that fails. -/
structure RecvOk {ι : Type} (cfg : CorpcCfg) (es : List (RecvEvent ι)) : Prop where
  bulk_ne : ∀ env, .handle env ∈ es → ¬ env.EmptyBulk
  transferred : ∀ rc env, .bulkDone rc env ∈ es → rc = 0
  not_root : RecvEvent.nodeEvents es ≠ [] → cfg.amRoot = false
  no_early : cfg.coOps = true → (∃ rc, rc ≠ 0 ∧ .dispatch rc ∈ RecvEvent.nodeEvents es) →
    earlyReplies (RecvEvent.nodeEvents es) = []

section

variable {es : List (RecvEvent ι)}

theorem recvOk_nil : RecvOk cfg ([] : List (RecvEvent ι)) :=
  ⟨by simp, by simp, fun h => absurd rfl h, fun _ _ => rfl⟩

open RecvEvent

/-- An event outside the collective. -/
theorem recvOk_cons {e : RecvEvent ι}
    (he : nodeEvents (e :: es) = nodeEvents es) :
    RecvOk cfg (e :: es) ↔ ((∀ env, .handle env = e → ¬ env.EmptyBulk) ∧
      ∀ rc env, .bulkDone rc env = e → rc = 0) ∧ RecvOk cfg es := by
  constructor
  · rintro ⟨hbulk, htransferred, hroot, hearly⟩
    rw [he] at hroot hearly
    simp only [mem_cons, or_imp, forall_and] at hbulk htransferred
    exact ⟨⟨hbulk.1, htransferred.1⟩, hbulk.2, htransferred.2, hroot, hearly⟩
  · rintro ⟨⟨hbulk, htransferred⟩, h⟩
    refine ⟨fun env hmem => ?_, fun rc env hmem => ?_, he ▸ h.not_root, he ▸ h.no_early⟩
    · exact (mem_cons.mp hmem).elim (hbulk env) (h.bulk_ne env)
    · exact (mem_cons.mp hmem).elim (htransferred rc env) (h.transferred rc env)

theorem recvOk_handle {env : RecvEnv} :
    RecvOk cfg (.handle env :: es) ↔ ¬ env.EmptyBulk ∧ RecvOk cfg es := by
  rw [recvOk_cons rfl]
  simp

theorem recvOk_bulkDone {bciRc : ℤ} {env : InitiateEnv} :
    RecvOk cfg (.bulkDone bciRc env :: es) ↔ bciRc = 0 ∧ RecvOk cfg es := by
  rw [recvOk_cons rfl]
  simp

theorem nodeEvents_map_node (es : List (CorpcEvent ι)) :
    nodeEvents (es.map node) = es := by
  induction es with
  | nil => rfl
  | cons e es ih => exact congrArg (e :: ·) ih

theorem recvOk_map_node {es : List (CorpcEvent ι)} :
    RecvOk cfg (es.map node) ↔ (es ≠ [] → cfg.amRoot = false) ∧
      (cfg.coOps = true → (∃ rc, rc ≠ 0 ∧ .dispatch rc ∈ es) → earlyReplies es = []) := by
  constructor
  · intro h
    have hroot := h.not_root
    have hearly := h.no_early
    rw [nodeEvents_map_node] at hroot hearly
    exact ⟨hroot, hearly⟩
  · rintro ⟨hroot, hearly⟩
    refine ⟨fun env hmem => ?_, fun rc env hmem => ?_, ?_, ?_⟩
    · obtain ⟨e, _, he⟩ := List.mem_map.mp hmem
      cases he
    · obtain ⟨e, _, he⟩ := List.mem_map.mp hmem
      cases he
    · rwa [nodeEvents_map_node]
    · rwa [nodeEvents_map_node]

end

/-! ### Runs, by who owes the reply -/

namespace RecvState

variable [DecidableEq ι] {s s' : RecvState ι} {es : List (RecvEvent ι)}

theorem run_nobody (hrun : (recvLts cfg ι).Run s es s') (hphase : s.phase = .owed .nobody) :
    es = [] ∧ s' = s := by
  cases hrun with
  | nil => exact ⟨rfl, rfl⟩
  | @cons _ _ _ e _ henabled hstep _ =>
    cases e with
    | handle env | bulkDone rc env => cases hphase.symm.trans henabled
    | node e => cases hphase.symm.trans henabled.1

/-- Once the collective owes the reply, the run is one of the collective. -/
theorem run_collective (hrun : (recvLts cfg ι).Run s es s') (hphase : s.phase = .owed .collective) :
    ∃ es', es = es'.map RecvEvent.node ∧ (corpcLts cfg ι).Run s.node es' s'.node ∧
      s'.phase = .owed .collective ∧ s'.errors = s.errors := by
  induction hrun with
  | nil s => exact ⟨[], rfl, .nil _, hphase, rfl⟩
  | @cons s m s' e es henabled hstep hrun ih =>
    cases e with
    | handle env | bulkDone rc env => cases hphase.symm.trans henabled
    | node e =>
      obtain ⟨n, hn, rfl⟩ := map_eq_some_iff.mp hstep
      obtain ⟨es', rfl, hrun', hphase', herrors⟩ := ih hphase
      exact ⟨e :: es', rfl, .cons henabled.2 hn hrun', hphase', herrors⟩

section

variable (herrors : s.errors = []) (hnode : s.node = CorpcNode.init ι)
include herrors hnode

/-- A request that is left to nobody has the replies it was answered with. -/
theorem replies_of_nobody {errors : List ℤ}
    (hrun : (recvLts cfg ι).Run (s.answer (errors, .nobody)) es s') :
    es = [] ∧ s'.replies cfg = errors := by
  obtain ⟨rfl, rfl⟩ := run_nobody hrun rfl
  refine ⟨rfl, ?_⟩
  rw [replies, answer, herrors, hnode]
  show [] ++ errors ++ (if cfg.amRoot then [] else []) = errors
  rw [ite_self, append_nil, nil_append]

theorem replies_of_dropped {P : Prop} (hP : ¬ P)
    (hrun : (recvLts cfg ι).Run (s.answer ([], .nobody)) es s') :
    (s'.replies cfg).length ≤ 1 ∧ ((s'.replies cfg).length = 1 ↔ P ∧ RecvOk cfg es) := by
  rw [(replies_of_nobody herrors hnode hrun).2]
  exact ⟨Nat.zero_le 1, iff_of_false Nat.zero_ne_one fun h => hP h.1⟩

theorem replies_of_answered {rc : ℤ} (hrun : (recvLts cfg ι).Run (s.answer ([rc], .nobody)) es s') :
    (s'.replies cfg).length ≤ 1 ∧ ((s'.replies cfg).length = 1 ↔ RecvOk cfg es) := by
  obtain ⟨rfl, hreplies⟩ := replies_of_nobody herrors hnode hrun
  rw [hreplies]
  exact ⟨le_refl 1, iff_of_true rfl recvOk_nil⟩

variable (hex : cfg.coRootExcluded = false) (hrun : (recvLts cfg ι).Run s es s')
  (hterm : (recvLts cfg ι).Terminal s')
include hex hrun hterm

theorem replies_of_collective (hphase : s.phase = .owed .collective) :
    (s'.replies cfg).length ≤ 1 ∧ ((s'.replies cfg).length = 1 ↔ RecvOk cfg es) := by
  obtain ⟨es', rfl, hrun', hphase', herrors'⟩ := run_collective hrun hphase
  rw [hnode] at hrun'
  have hterm' : (corpcLts cfg ι).Terminal s'.node := fun e he => hterm (.node e) ⟨hphase', he⟩
  have hstarted : es' ≠ [] := by
    rintro rfl
    have hsame := hrun'.eq_of_nil
    exact hterm' (.start (.children [])) ⟨by rw [hsame]; rfl, nodup_nil⟩
  have hdone := ((CorpcNode.inv_invariant cfg).run hrun' CorpcNode.init_inv).done
  have hiff := CorpcNode.completed_iff_of_run hex hrun' hterm'
  rw [replies, herrors', herrors, nil_append, recvOk_map_node]
  split_ifs with hroot
  · refine ⟨Nat.zero_le _, iff_of_false (by simp) fun h => ?_⟩
    exact Bool.false_ne_true ((h.1 hstarted).symm.trans hroot)
  · rw [hiff]
    rw [Bool.not_eq_true] at hroot
    refine ⟨?_, by simp [hroot]⟩
    split at hdone <;> omega

/-- Complete runs of a bulk transfer that has been started. -/
theorem replies_of_bulk (hphase : s.phase = .owed .bulk) :
    (s'.replies cfg).length ≤ 1 ∧ ((s'.replies cfg).length = 1 ↔ RecvOk cfg es) := by
  cases hrun with
  | nil => exact absurd hphase (hterm (.bulkDone 0 ⟨true, true, 0⟩))
  | @cons _ m _ e es henabled hstep hrun =>
    cases e with
    | handle env => cases hphase.symm.trans henabled
    | node e => cases hphase.symm.trans henabled.1
    | bulkDone rc env =>
      cases hstep
      rw [recvOk_bulkDone]
      rcases crtCorpcChainedBulkCb_cases rc env with ⟨hrc, heq⟩ | ⟨hrc, heq | ⟨err, _, heq⟩⟩
      · -- the transfer failed: nobody replies
        exact replies_of_dropped herrors hnode hrc (heq ▸ hrun)
      · rw [heq] at hrun
        rw [and_iff_right hrc]
        exact replies_of_collective (s := s.answer _) (by rw [answer, herrors]; rfl) hnode hex hrun
          hterm rfl
      · rw [and_iff_right hrc]
        exact replies_of_answered herrors hnode (heq ▸ hrun)

/-- Complete runs of a received request. -/
theorem replies_of_arrived (hphase : s.phase = .arrived) :
    (s'.replies cfg).length ≤ 1 ∧ ((s'.replies cfg).length = 1 ↔ RecvOk cfg es) := by
  cases hrun with
  | nil =>
    exact absurd hphase (hterm
      (.handle ⟨0, true, true, 0, 0, 0, true, true, true, none, ⟨true, true, 0⟩⟩))
  | @cons _ m _ e es henabled hstep hrun =>
    cases e with
    | bulkDone rc env => cases hphase.symm.trans henabled
    | node e => cases hphase.symm.trans henabled.1
    | handle env =>
      cases hstep
      rw [recvOk_handle]
      rcases env.crtRpcHandlerCommon_cases with ⟨hempty, heq⟩ | ⟨hne, heq | heq | ⟨err, _, heq⟩⟩
      · exact replies_of_dropped herrors hnode (not_not.mpr hempty) (heq ▸ hrun)
      · rw [heq] at hrun
        rw [and_iff_right hne]
        exact replies_of_bulk (s := s.answer _) (by rw [answer, herrors]; rfl) hnode hex hrun hterm rfl
      · rw [heq] at hrun
        rw [and_iff_right hne]
        exact replies_of_collective (s := s.answer _) (by rw [answer, herrors]; rfl) hnode hex hrun
          hterm rfl
      · rw [and_iff_right hne]
        exact replies_of_answered herrors hnode (heq ▸ hrun)

end

/-- Every event brings the request closer to its reply. -/
def rank : RecvPhase → ℕ
  | .arrived => 3
  | .owed .bulk => 2
  | .owed .collective => 1
  | .owed .nobody => 0

/-- The stage of the request, then what is left to do in the collective. -/
def measure (s : RecvState ι) : ℕ ×ₗ (ℕ ×ₗ ℕ) := toLex (rank s.phase, s.node.measure)

theorem measure_lt_of_rank (h : rank s'.phase < rank s.phase) : s'.measure < s.measure := by
  rw [measure, measure, Prod.Lex.toLex_lt_toLex]
  exact .inl h

theorem measure_lt {e : RecvEvent ι} (henabled : s.Enabled e) (h : s.step cfg e = some s') :
    s'.measure < s.measure := by
  cases e with
  | handle env =>
    cases h
    have hphase : s.phase = .arrived := henabled
    refine measure_lt_of_rank ?_
    rw [hphase, answer]
    rcases env.crtRpcHandlerCommon_cases with ⟨_, heq⟩ | ⟨_, heq | heq | ⟨rc, _, heq⟩⟩ <;>
      simp [heq, rank]
  | bulkDone bciRc env =>
    cases h
    have hphase : s.phase = .owed .bulk := henabled
    refine measure_lt_of_rank ?_
    rw [hphase, answer]
    rcases crtCorpcChainedBulkCb_cases bciRc env with ⟨_, heq⟩ | ⟨_, heq | ⟨rc, _, heq⟩⟩ <;>
      simp [heq, rank]
  | node e =>
    obtain ⟨n, hn, rfl⟩ := map_eq_some_iff.mp h
    rw [measure, measure, Prod.Lex.toLex_lt_toLex]
    exact .inr ⟨rfl, CorpcNode.measure_lt henabled.2 hn⟩

theorem inv_invariant (cfg : CorpcCfg) : (recvLts cfg ι).Invariant fun s => s.node.Inv cfg where
  init := by
    rintro s rfl
    exact CorpcNode.init_inv
  step := by
    intro s e s' h henabled hstep
    cases e with
    | handle env | bulkDone bciRc env =>
      cases hstep
      exact h
    | node e =>
      obtain ⟨n, hn, rfl⟩ := map_eq_some_iff.mp hstep
      exact (CorpcNode.inv_invariant cfg).step _ e n h henabled.2 hn

end RecvState

open RecvState in
/-- **Exactly one reply.** A received request ends with one reply exactly if `RecvOk` holds, and
never has two. -/
theorem corpc_one_reply_iff (coOps amRoot : Bool) (crOutputSize : ℕ) (ι : Type) [DecidableEq ι] :
    (recvLts (recvCfg coOps crOutputSize amRoot) ι).Safe ∧
    (recvLts (recvCfg coOps crOutputSize amRoot) ι).Terminates ∧
    ∀ (es : List (RecvEvent ι)) (s : RecvState ι),
      (recvLts (recvCfg coOps crOutputSize amRoot) ι).Run (RecvState.init ι) es s →
      (recvLts (recvCfg coOps crOutputSize amRoot) ι).Terminal s →
      (s.replies (recvCfg coOps crOutputSize amRoot)).length ≤ 1 ∧
      ((s.replies (recvCfg coOps crOutputSize amRoot)).length = 1 ↔
        RecvOk (recvCfg coOps crOutputSize amRoot) es) := by
  refine ⟨?_, ?_, ?_⟩
  · refine (inv_invariant _).safe fun s e h henabled => ?_
    cases e with
    | handle env | bulkDone bciRc env => exact ⟨_, rfl⟩
    | node e =>
      obtain ⟨n, hn, _⟩ := h.step henabled.2
      exact ⟨_, map_eq_some_iff.mpr ⟨n, hn, rfl⟩⟩
  · exact Lts.terminates_of_measure measure fun s e s' henabled hstep =>
      measure_lt henabled hstep
  · intro es s hrun hterm
    exact replies_of_arrived rfl rfl rfl hrun hterm rfl

/-- A request whose calls all succeed, with the given bulk handle, on the
primary group. -/
def RecvEnv.good (bulk : Option ChainedBulk) : RecvEnv :=
  ⟨0, true, true, 0, 0, 0, true, true, true, bulk, ⟨true, false, 0⟩⟩

/-- A bulk of eight bytes that is transferred; the node has no children. -/
theorem corpc_one_reply_bulk :
    ∃ s, (recvLts (recvCfg true 0 false) ℕ).Run (RecvState.init ℕ)
        [.handle (.good (some ⟨0, 8, true, 0, 0⟩)), .bulkDone 0 ⟨true, false, 0⟩,
          .node (.start (.children [])), .node .forwardDone, .node (.dispatch 0),
          .node .localReply] s ∧
      (s.replies (recvCfg true 0 false)).length = 1 := by
  have hrun : (recvLts (recvCfg true 0 false) ℕ).Run (RecvState.init ℕ)
      [.handle (.good (some ⟨0, 8, true, 0, 0⟩)), .bulkDone 0 ⟨true, false, 0⟩,
        .node (.start (.children [])), .node .forwardDone, .node (.dispatch 0),
        .node .localReply] _ := Lts.run_of_exec rfl
  refine ⟨_, hrun, ?_⟩
  refine ((corpc_one_reply_iff true false 0 ℕ).2.2 _ _ hrun ?_).2.mpr ?_
  · rintro (env | ⟨rc, env⟩ | e) henabled
    · cases henabled
    · cases henabled
    · exact CorpcNode.not_enabled_of_finished ⟨rfl, rfl, rfl⟩ e henabled.2
  · rw [recvOk_handle, recvOk_bulkDone]
    refine ⟨?_, rfl, (show RecvOk _ (List.map RecvEvent.node
      [.start (.children []), .forwardDone, .dispatch 0, .localReply]) from
      recvOk_map_node.mpr ⟨fun _ => rfl, fun _ _ => rfl⟩)⟩
    rintro ⟨_, bulk, hbulk, _, hlen⟩
    cases hbulk
    cases hlen

/-- An empty bulk: the request is dropped. -/
theorem corpc_empty_bulk_dropped :
    ∃ s, (recvLts (recvCfg true 0 false) ℕ).Run (RecvState.init ℕ)
        [.handle (.good (some ⟨0, 0, true, 0, 0⟩))] s ∧
      (recvLts (recvCfg true 0 false) ℕ).Terminal s ∧ s.replies (recvCfg true 0 false) = [] := by
  refine ⟨_, Lts.run_of_exec rfl, ?_, rfl⟩
  rintro (env | ⟨rc, env⟩ | e) henabled
  · cases henabled
  · cases henabled
  · cases henabled.1

end Cart
