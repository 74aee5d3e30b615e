/-
A collective as a whole: the requests on all nodes of the propagation tree.

A copy of the request is named by the path of ranks that it took, the last hop first.  A node
that has created a child lets the request arrive there; the child's reply is delivered, or a
transport failure is reported, in any order.  What fails on the way is recorded.

Main results: `corpc_result_ne_zero_iff`, `corpc_success_everywhere`.
-/
import Cart.CorpcError
import Cart.CorpcRecv

open List Option

namespace Cart

open RecvState CorpcNode

variable {ι : Type}

/-- What can go wrong on a node. -/
inductive CorpcFailure where
  | groupLookup
  | start
  | create
  | transport
  | dispatch
  | receipt
  deriving DecidableEq, Repr

/-- `crt_grp_lookup_grpid` is called and finds nothing. -/
def InitiateEnv.LookupFails (env : InitiateEnv) : Prop :=
  env.primaryGrp = false ∧ env.grpFound = false
deriving Decidable

/-- The failure behind an error reply of the receiving side. -/
def replyFailure (r : List ℤ × Owes) (lookupFails : Prop) [Decidable lookupFails] :
    Option CorpcFailure :=
  if r.1 = [] then none else some (if lookupFails then .groupLookup else .receipt)

/-- The failure of an event, if it is one. -/
def RecvEvent.failure {ι : Type} : RecvEvent ι → Option CorpcFailure
  | .handle env => replyFailure env.crtRpcHandlerCommon
      (env.Accepted ∧ env.cohBulkHdl.isNone ∧ env.initiate.LookupFails)
  | .bulkDone bciRc env => replyFailure (crtCorpcChainedBulkCb bciRc env) env.LookupFails
  | .node (.start (.fail _)) => some .start
  | .node (.create rc) => if rc = 0 then none else some .create
  | .node (.dispatch rc) => if rc = 0 then none else some .dispatch
  | .node _ => none

/-- The parts of the configuration that the nodes need not share, and whether
the initiator is excluded. -/
structure CorpcNetCfg (ι : Type) where
  coOps : List ι → Bool
  crOutputSize : List ι → ℕ
  rootExcluded : Bool

/-- The configuration of a node.  Only the initiator is the root. -/
def CorpcNetCfg.at {ι : Type} (cfg : CorpcNetCfg ι) (p : List ι) : CorpcCfg :=
  ⟨cfg.coOps p, cfg.rootExcluded && p.isEmpty, cfg.crOutputSize p, p.isEmpty⟩

/-- The requests on all nodes, and what has failed where. -/
structure CorpcNet (ι : Type) where
  nodes : List ι → RecvState ι
  failures : List (List ι × CorpcFailure)

/-- Something on a node, the delivery of a reply, or a transport failure. -/
inductive CorpcNetEvent (ι : Type) where
  | on (p : List ι) (e : RecvEvent ι)
  | deliver (p : List ι) (c : ι) (rc : ℤ)
  | transportFail (p : List ι) (c : ι) (cciRc cchRc : ℤ)

namespace CorpcNetEvent

/-- The node at which the event happens. -/
def place : CorpcNetEvent ι → List ι
  | .on p _ => p
  | .deliver p _ _ => p
  | .transportFail p _ _ _ => p

/-- What the event is on that node.  `crt_hg_req_send_cb` reports the `cch_rc`
of the reply. -/
def recv : CorpcNetEvent ι → RecvEvent ι
  | .on _ e => e
  | .deliver _ c rc => .node (.childReply c rc rc)
  | .transportFail _ c cciRc cchRc => .node (.childReply c cciRc cchRc)

def failure : CorpcNetEvent ι → Option CorpcFailure
  | .on _ e => e.failure
  | .deliver _ _ _ => none
  | .transportFail _ _ _ _ => some .transport

end CorpcNetEvent

namespace CorpcNet

variable [DecidableEq ι]

/-- `crt_req_send` on the initiator, nothing anywhere else. -/
def init (ι : Type) : CorpcNet ι where
  nodes p := match p with
    | [] => ⟨.owed .collective, [], CorpcNode.init ι⟩
    | _ :: _ => RecvState.init ι
  failures := []

def step (cfg : CorpcNetCfg ι) (s : CorpcNet ι) (e : CorpcNetEvent ι) : Option (CorpcNet ι) :=
  ((s.nodes e.place).step (cfg.at e.place) e.recv).map fun r =>
    { nodes := Function.update s.nodes e.place r
      failures := s.failures ++ e.failure.toList.map fun f => (e.place, f) }

variable (cfg : CorpcNetCfg ι) (s : CorpcNet ι)

/-- The request can arrive: the parent has sent it. -/
def Arrives : List ι → Prop
  | [] => False
  | c :: p => (s.nodes p).node.Sent c

/-- Requests come from the parent, and callbacks of children from replies or the transport. -/
def Linked : CorpcNetEvent ι → Prop
  | .on p (.handle _) => s.Arrives p
  | .on _ (.node (.childReply _ _ _)) => False
  | .on _ _ => True
  | .deliver p c rc => rc ∈ (s.nodes (c :: p)).replies (cfg.at (c :: p))
  | .transportFail _ _ cciRc _ => cciRc ≠ 0

def Enabled (cfg : CorpcNetCfg ι) (s : CorpcNet ι) (e : CorpcNetEvent ι) : Prop :=
  (s.nodes e.place).Enabled e.recv ∧ s.Linked cfg e

instance (p : List ι) : Decidable (s.Arrives p) := by
  cases p <;> dsimp only [Arrives, CorpcNode.Sent] <;> infer_instance

instance (e : CorpcNetEvent ι) : Decidable (s.Linked cfg e) := by
  unfold Linked
  split <;> infer_instance

end CorpcNet

/-- The collective on all nodes. -/
def corpcNetLts {ι : Type} [DecidableEq ι] (cfg : CorpcNetCfg ι) :
    Lts (CorpcNet ι) (CorpcNetEvent ι) where
  init s := s = CorpcNet.init ι
  enabled := CorpcNet.Enabled cfg
  step := CorpcNet.step cfg

instance {ι : Type} [DecidableEq ι] (cfg : CorpcNetCfg ι) (s : CorpcNet ι)
    (e : CorpcNetEvent ι) : Decidable ((corpcNetLts cfg).enabled s e) :=
  instDecidableAnd

/-! ### A request on one node -/

theorem RecvEnv.dropped_or_answered (env : RecvEnv) :
    env.crtRpcHandlerCommon = ([], .nobody) ∨ Answered env.crtRpcHandlerCommon :=
  env.crtRpcHandlerCommon_cases.imp And.right And.right

theorem bulkCb_dropped_or_answered (bciRc : ℤ) (env : InitiateEnv) :
    crtCorpcChainedBulkCb bciRc env = ([], .nobody) ∨
      Answered (crtCorpcChainedBulkCb bciRc env) :=
  (crtCorpcChainedBulkCb_cases bciRc env).imp And.right fun h => .inr h.2

namespace RecvState

variable [DecidableEq ι] {cfg : CorpcCfg} {s s' : RecvState ι} {e : RecvEvent ι} {r : List ℤ × Owes}

/-- How the stage of a request, its error replies and its collective hang
together. -/
structure Inv (cfg : CorpcCfg) (s : RecvState ι) : Prop where
  node : s.node.Inv cfg
  synced : s.node.Synced
  idle : s.phase ≠ .owed .collective → s.node = CorpcNode.init ι
  answered : s.errors ≠ [] → s.phase = .owed .nobody
  errors : ∀ rc ∈ s.errors, rc ≠ 0

theorem Inv.answer (h : s.Inv cfg) (herrors : s.errors = []) (hnode : s.node = CorpcNode.init ι)
    (hr : r = ([], .nobody) ∨ Answered r) : (s.answer r).Inv cfg := by
  have hinv : ∀ owes l, (l ≠ [] → owes = Owes.nobody) → (∀ rc ∈ l, rc ≠ 0) →
      (s.answer (l, owes)).Inv cfg := by
    intro owes l howes hl
    refine ⟨h.node, h.synced, fun _ => hnode, ?_, ?_⟩
    · rw [RecvState.answer, herrors, nil_append]
      exact fun hne => congrArg _ (howes hne)
    · rw [RecvState.answer, herrors, nil_append]
      exact hl
  rcases hr with rfl | rfl | rfl | ⟨rc, hrc, rfl⟩
  · exact hinv _ _ (by simp) (by simp)
  · exact hinv _ _ (by simp) (by simp)
  · exact hinv _ _ (by simp) (by simp)
  · exact hinv _ _ (by simp) (by simpa using hrc)

theorem Inv.errors_eq_nil (h : s.Inv cfg) (hphase : s.phase ≠ .owed .nobody) : s.errors = [] := by
  by_contra hne
  exact hphase (h.answered hne)

theorem Inv.step (h : s.Inv cfg) (henabled : s.Enabled e) (hstep : s.step cfg e = some s') :
    s'.Inv cfg := by
  cases e with
  | handle env =>
    have hphase : s.phase = .arrived := henabled
    cases hstep
    exact h.answer (h.errors_eq_nil (by simp [hphase])) (h.idle (by simp [hphase]))
      env.dropped_or_answered
  | bulkDone bciRc env =>
    have hphase : s.phase = .owed .bulk := henabled
    cases hstep
    exact h.answer (h.errors_eq_nil (by simp [hphase])) (h.idle (by simp [hphase]))
      (bulkCb_dropped_or_answered bciRc env)
  | node e =>
    obtain ⟨n, hn, rfl⟩ := map_eq_some_iff.mp hstep
    exact ⟨(CorpcNode.inv_invariant cfg).step _ e n h.node henabled.2 hn,
      h.synced.step h.node henabled.2 hn, fun hne => absurd henabled.1 hne, h.answered, h.errors⟩

/-- Where nobody owes a reply nothing happens, and a collective stays one. -/
theorem phase_kept (henabled : s.Enabled e) (hstep : s.step cfg e = some s') :
    s.phase ≠ .owed .nobody ∧
      (s.phase = .owed .collective → s'.phase = .owed .collective) := by
  cases e with
  | handle env =>
    have hphase : s.phase = .arrived := henabled
    simp [hphase]
  | bulkDone bciRc env =>
    have hphase : s.phase = .owed .bulk := henabled
    simp [hphase]
  | node e =>
    obtain ⟨n, _, rfl⟩ := map_eq_some_iff.mp hstep
    exact ⟨by simp [henabled.1], id⟩

theorem node_step (hstep : s.step cfg e = some s') : (s'.node = s.node ∧ ∀ e', e ≠ .node e') ∨
      ∃ e', e = .node e' ∧ s.node.step cfg e' = some s'.node ∧ s'.phase = s.phase ∧
        s'.errors = s.errors := by
  cases e with
  | handle env | bulkDone bciRc env =>
    cases hstep
    refine .inl ⟨rfl, ?_⟩
    rintro e' ⟨⟩
  | node e =>
    obtain ⟨n, hn, rfl⟩ := map_eq_some_iff.mp hstep
    exact .inr ⟨e, rfl, hn, rfl, rfl⟩

theorem sent_step {c : ι} (hc : s.node.Sent c) (hstep : s.step cfg e = some s') :
    s'.node.Sent c := by
  rcases node_step hstep with ⟨heq, _⟩ | ⟨e', _, hn, _⟩
  · rwa [heq]
  · exact hc.step hn

theorem replies_step (hstep : s.step cfg e = some s') {rc : ℤ} (hrc : rc ∈ s.replies cfg) :
    rc ∈ s'.replies cfg := by
  rw [replies, mem_append] at hrc ⊢
  cases e with
  | handle env | bulkDone bciRc env =>
    cases hstep
    exact hrc.imp_left (mem_append_left _)
  | node e =>
    obtain ⟨n, hn, rfl⟩ := map_eq_some_iff.mp hstep
    refine hrc.imp_right fun hrc => ?_
    by_cases hroot : cfg.amRoot = true
    · rwa [if_pos hroot] at hrc ⊢
    · rw [if_neg hroot] at hrc ⊢
      rcases step_next hn with rfl | rfl
      · rwa [next_completed]
      · rw [complete_eq, next_completed]
        exact mem_append_left _ hrc

omit [DecidableEq ι] in
/-- The failure of an event other than a callback. -/
theorem fails_iff_failure {e : CorpcEvent ι} (he : ∀ c cciRc cchRc, e ≠ .childReply c cciRc cchRc) :
    e.Fails ↔ (RecvEvent.node e).failure ≠ none := by
  cases e with
  | start outcome => cases outcome <;> simp [CorpcEvent.Fails, RecvEvent.failure]
  | create rc | dispatch rc =>
    by_cases hrc : rc = 0 <;> simp [CorpcEvent.Fails, RecvEvent.failure, hrc]
  | forwardDone | localDone | localReply => simp [CorpcEvent.Fails, RecvEvent.failure]
  | childReply c cciRc cchRc => exact absurd rfl (he c cciRc cchRc)

/-- A receiving side that fails has answered, and owes nothing. -/
theorem answer_failure (hr : r = ([], .nobody) ∨ Answered r) {p : Prop} [Decidable p] :
    (replyFailure r p = none → r.1 = []) ∧ (replyFailure r p ≠ none → r.2 = .nobody) := by
  rw [replyFailure]
  rcases hr with rfl | rfl | rfl | ⟨rc, _, rfl⟩ <;> simp

end RecvState

/-! ### All nodes -/

namespace CorpcNet

variable [DecidableEq ι] {cfg : CorpcNetCfg ι} {s s' : CorpcNet ι} {e : CorpcNetEvent ι}

/-- A request was sent before it arrives; without an error every child heard of has succeeded; a
failure leaves an error. -/
structure Inv (cfg : CorpcNetCfg ι) (s : CorpcNet ι) : Prop where
  node : ∀ p, (s.nodes p).Inv (cfg.at p)
  sent : ∀ c p, (s.nodes (c :: p)).phase ≠ .arrived → (s.nodes p).node.Sent c
  heard : ∀ c p, (s.nodes p).node.coRc = 0 → c ∈ (s.nodes p).node.handled →
    0 ∈ (s.nodes (c :: p)).replies (cfg.at (c :: p))
  failed : ∀ p f, (p, f) ∈ s.failures → (s.nodes p).phase = .owed .nobody ∨
    (s.nodes p).phase = .owed .collective ∧ (s.nodes p).node.coRc ≠ 0
  clean : s.failures = [] → ∀ p, (s.nodes p).node.coRc = 0 ∧ (s.nodes p).errors = []

theorem exists_step (hstep : s.step cfg e = some s') :
    ∃ r, (s.nodes e.place).step (cfg.at e.place) e.recv = some r ∧
      s'.nodes = Function.update s.nodes e.place r ∧
      s'.failures = s.failures ++ e.failure.toList.map fun f => (e.place, f) := by
  obtain ⟨r, hr, rfl⟩ := map_eq_some_iff.mp hstep
  exact ⟨r, hr, rfl, rfl⟩

theorem Inv.reply_eq_zero (h : s.Inv cfg) (hnone : s.failures = []) {c : ι} {p : List ι} {rc : ℤ}
    (hrc : rc ∈ (s.nodes (c :: p)).replies (cfg.at (c :: p))) : rc = 0 := by
  obtain ⟨hco, herrors⟩ := h.clean hnone (c :: p)
  rcases mem_append.mp hrc with hrc | hrc
  · rw [herrors] at hrc
    exact absurd hrc not_mem_nil
  · by_contra hne
    exact ((h.node (c :: p)).synced.completed rc hrc).mp hne hco

section

variable {r : RecvState ι} (h : s.Inv cfg) (henabled : s.Enabled cfg e)
  (hr : (s.nodes e.place).step (cfg.at e.place) e.recv = some r)

include h henabled hr

theorem Inv.coRc_iff : r.node.coRc ≠ 0 ↔ (s.nodes e.place).node.coRc ≠ 0 ∨
    ∃ e', e.recv = .node e' ∧ e'.Fails := by
  rcases node_step hr with ⟨heq, hnot⟩ | ⟨e', he', hn, _⟩
  · rw [heq, or_iff_left]
    rintro ⟨e', he', _⟩
    exact hnot e' he'
  · have hen := henabled.1
    rw [he'] at hen
    rw [coRc_step (h.node e.place).synced hen.2 hn]
    refine or_congr_right ⟨fun hf => ⟨e', he', hf⟩, ?_⟩
    rintro ⟨e'', he'', hf⟩
    rw [he'] at he''
    cases he''
    exact hf

theorem Inv.failed_of_failure (hf : e.failure ≠ none) :
    r.phase = .owed .nobody ∨ r.phase = .owed .collective ∧ r.node.coRc ≠ 0 := by
  -- events of the collective that fail
  have hnode : ∀ e', e.recv = .node e' → e'.Fails →
      r.phase = .owed .nobody ∨ r.phase = .owed .collective ∧ r.node.coRc ≠ 0 := by
    intro e' he' hfails
    have hen := henabled.1
    rw [he'] at hen
    rcases node_step hr with ⟨_, hnot⟩ | ⟨e'', _, _, hphase, _⟩
    · exact absurd he' (hnot e')
    · exact .inr ⟨hphase.trans hen.1, (h.coRc_iff henabled hr).mpr (.inr ⟨e', he', hfails⟩)⟩
  cases e with
  | deliver p c rc => exact absurd rfl hf
  | transportFail p c cciRc cchRc => exact hnode _ rfl (.inl henabled.2)
  | on p e =>
    cases e with
    | handle env =>
      cases hr
      exact .inl (congrArg _ ((answer_failure env.dropped_or_answered).2 hf))
    | bulkDone bciRc env =>
      cases hr
      exact .inl (congrArg _
        ((answer_failure (bulkCb_dropped_or_answered bciRc env)).2 hf))
    | node e =>
      refine hnode e rfl ((fails_iff_failure ?_).mpr hf)
      rintro c cciRc cchRc rfl
      exact henabled.2

theorem Inv.clean_of_none (hnone : s.failures = []) (hf : e.failure = none) :
    r.node.coRc = 0 ∧ r.errors = [] := by
  obtain ⟨hco, herrors⟩ := h.clean hnone e.place
  have hco' : (∀ e', e.recv = .node e' → ¬ e'.Fails) → r.node.coRc = 0 := by
    intro hnot
    by_contra hne
    rcases (h.coRc_iff henabled hr).mp hne with h0 | ⟨e', he', hfails⟩
    · exact h0 hco
    · exact hnot e' he' hfails
  cases e with
  | deliver p c rc =>
    have hrc : rc = 0 := h.reply_eq_zero hnone henabled.2
    refine ⟨hco' ?_, ?_⟩
    · rintro e' ⟨⟩
      simp [CorpcEvent.Fails, hrc]
    · obtain ⟨n, _, rfl⟩ := map_eq_some_iff.mp hr
      exact herrors
  | transportFail p c cciRc cchRc => cases hf
  | on p e =>
    cases e with
    | handle env =>
      refine ⟨hco' (by rintro e' ⟨⟩), ?_⟩
      cases hr
      rw [answer, (answer_failure env.dropped_or_answered).1 hf,
        append_nil]
      exact herrors
    | bulkDone bciRc env =>
      refine ⟨hco' (by rintro e' ⟨⟩), ?_⟩
      cases hr
      rw [answer,
        (answer_failure (bulkCb_dropped_or_answered bciRc env)).1 hf, append_nil]
      exact herrors
    | node e =>
      refine ⟨hco' ?_, ?_⟩
      · rintro e' ⟨⟩ hfails
        refine (fails_iff_failure ?_).mp hfails hf
        rintro c cciRc cchRc rfl
        exact henabled.2
      · obtain ⟨n, _, rfl⟩ := map_eq_some_iff.mp hr
        exact herrors

end

theorem init_inv : (CorpcNet.init ι).Inv cfg where
  node p := by
    cases p with
    | nil | cons c p =>
      exact ⟨CorpcNode.init_inv, CorpcNode.init_synced, fun _ => rfl, fun h => absurd rfl h,
        fun _ h => absurd h not_mem_nil⟩
  sent c p h := absurd rfl h
  heard c p _ h := by
    cases p <;> exact absurd h not_mem_nil
  failed p f h := absurd h not_mem_nil
  clean _ p := by
    cases p <;> exact ⟨rfl, rfl⟩

omit [DecidableEq ι] in
theorem arrives_of_arrived (henabled : s.Enabled cfg e)
    (hphase : (s.nodes e.place).phase = .arrived) : s.Arrives e.place := by
  cases e with
  | deliver p c rc | transportFail p c cciRc cchRc => cases hphase.symm.trans henabled.1.1
  | on p e =>
    cases e with
    | handle env => exact henabled.2
    | bulkDone bciRc env => cases hphase.symm.trans henabled.1
    | node e => cases hphase.symm.trans henabled.1.1

omit [DecidableEq ι] in
theorem zero_mem_replies {c : ι} {cciRc cchRc : ℤ} (henabled : s.Enabled cfg e)
    (he : e.recv = .node (.childReply c cciRc cchRc)) (hok : ¬ (cciRc ≠ 0 ∨ cchRc ≠ 0)) :
    0 ∈ (s.nodes (c :: e.place)).replies (cfg.at (c :: e.place)) := by
  rw [not_or, not_not, not_not] at hok
  cases e with
  | deliver p c' rc =>
    cases he
    exact hok.1 ▸ henabled.2
  | transportFail p c' cciRc' cchRc' =>
    cases he
    exact absurd hok.1 henabled.2
  | on p e =>
    have he' : e = .node (.childReply c cciRc cchRc) := he
    rw [he'] at henabled
    exact henabled.2.elim

theorem Inv.step (h : s.Inv cfg) (henabled : s.Enabled cfg e) (hstep : s.step cfg e = some s') :
    s'.Inv cfg := by
  obtain ⟨r, hr, hnodes, hfailures⟩ := exists_step hstep
  have hself : s'.nodes e.place = r := by rw [hnodes, Function.update_self]
  have hother : ∀ p, p ≠ e.place → s'.nodes p = s.nodes p := by
    intro p hp
    rw [hnodes, Function.update_of_ne hp]
  have hco := h.coRc_iff henabled hr
  refine ⟨fun p => ?_, fun c p hphase => ?_, fun c p hzero hc => ?_, fun p f hf => ?_,
    fun hnone p => ?_⟩
  · by_cases hp : p = e.place
    · rw [hp, hself]
      exact (h.node e.place).step henabled.1 hr
    · rw [hother p hp]
      exact h.node p
  · -- what arrives was sent, and stays sent
    have hsent : (s.nodes p).node.Sent c := by
      by_cases hcp : c :: p = e.place
      · by_cases hold : (s.nodes e.place).phase = .arrived
        · have harrives := arrives_of_arrived henabled hold
          rwa [← hcp] at harrives
        · exact h.sent c p (hcp ▸ hold)
      · rw [hother _ hcp] at hphase
        exact h.sent c p hphase
    by_cases hp : p = e.place
    · subst hp
      rw [hself]
      exact sent_step hsent hr
    · rwa [hother p hp]
  · -- a child that is heard of without an error has replied `0`
    have hzero' : 0 ∈ (s.nodes (c :: p)).replies (cfg.at (c :: p)) := by
      by_cases hp : p = e.place
      · subst hp
        rw [hself] at hzero hc
        have hno := not_or.mp (mt hco.mpr (not_not.mpr hzero))
        rcases node_step hr with ⟨heq, _⟩ | ⟨e', he', hn, _⟩
        · exact h.heard c _ (not_not.mp hno.1) (heq ▸ hc)
        · rcases handled_step hn hc with hc | ⟨cciRc, cchRc, rfl⟩
          · exact h.heard c _ (not_not.mp hno.1) hc
          · exact zero_mem_replies henabled he' fun hf => hno.2 ⟨_, he', hf⟩
      · rw [hother p hp] at hzero hc
        exact h.heard c p hzero hc
    by_cases hcp : c :: p = e.place
    · rw [hcp] at hzero' ⊢
      rw [hself]
      exact replies_step hr hzero'
    · rwa [hother _ hcp]
  · rw [hfailures, mem_append] at hf
    by_cases hp : p = e.place
    · subst hp
      rw [hself]
      rcases hf with hf | hf
      · have hkept := phase_kept henabled.1 hr
        rcases h.failed _ f hf with hphase | ⟨hphase, hne⟩
        · exact absurd hphase hkept.1
        · exact .inr ⟨hkept.2 hphase, hco.mpr (.inl hne)⟩
      · refine h.failed_of_failure henabled hr fun hnone => ?_
        rw [hnone] at hf
        exact not_mem_nil hf
    · rw [hother p hp]
      refine h.failed p f (hf.resolve_right fun hf => ?_)
      obtain ⟨_, _, heq⟩ := List.mem_map.mp hf
      exact hp (congrArg Prod.fst heq).symm
  · rw [hfailures, append_eq_nil_iff] at hnone
    by_cases hp : p = e.place
    · subst hp
      rw [hself]
      refine h.clean_of_none henabled hr hnone.1 ?_
      simpa using hnone.2
    · rw [hother p hp]
      exact h.clean hnone.1 p

theorem inv_invariant (cfg : CorpcNetCfg ι) : (corpcNetLts cfg).Invariant (Inv cfg) where
  init := by
    rintro s rfl
    exact init_inv
  step := fun _ _ _ h henabled hstep => h.step henabled hstep

theorem Inv.arrives (h : s.Inv cfg) {p : List ι} (hreached : (s.nodes p).phase ≠ .arrived) :
    p = [] ∨ s.Arrives p := by
  cases p with
  | nil => exact .inl rfl
  | cons c p => exact .inr (h.sent c p hreached)

theorem Inv.completed_zero (h : s.Inv cfg) (hroot : 0 ∈ (s.nodes []).node.completed) :
    ∀ p, p = [] ∨ s.Arrives p → 0 ∈ (s.nodes p).node.completed := by
  intro p
  induction p with
  | nil => exact fun _ => hroot
  | cons c p ih =>
    intro hp
    have hsent : (s.nodes p).node.Sent c := hp.resolve_left (cons_ne_nil c p)
    -- a node that has sent the request has started the collective
    have hphase : (s.nodes p).phase ≠ .arrived := by
      intro hphase
      rw [(h.node p).idle (by simp [hphase])] at hsent
      exact hsent.elim not_mem_nil not_mem_nil
    have hzero := ih (h.arrives hphase)
    have hco : (s.nodes p).node.coRc = 0 := by
      by_contra hne
      exact ((h.node p).synced.completed 0 hzero).mpr hne rfl
    have hquiet := (h.node p).node.quiet_of_counted ((h.node p).node.counted_of_mem hzero)
    have hhandled : c ∈ (s.nodes p).node.handled :=
      hsent.resolve_left (by rw [hquiet.2.1]; exact not_mem_nil)
    rcases mem_append.mp (h.heard c p hco hhandled) with hrc | hrc
    · exact absurd rfl ((h.node (c :: p)).errors 0 hrc)
    · exact hrc

/-- The result at the initiator is an error exactly if something has failed on a
node that was reached. -/
theorem Inv.result_ne_zero_iff (h : s.Inv cfg) {rc : ℤ} (hrc : rc ∈ (s.nodes []).node.completed) :
    rc ≠ 0 ↔ ∃ p f, (p, f) ∈ s.failures ∧ (s.nodes p).phase ≠ .arrived := by
  have hsynced := (h.node []).synced.completed rc hrc
  constructor
  · intro hne
    -- without a failure there would be no error
    have hfail : s.failures ≠ [] := fun hnone => hsynced.mp hne (h.clean hnone []).1
    obtain ⟨⟨p, f⟩, hf⟩ := exists_mem_of_ne_nil _ hfail
    refine ⟨p, f, hf, ?_⟩
    rcases h.failed p f hf with hphase | ⟨hphase, _⟩ <;> simp [hphase]
  · rintro ⟨p, f, hf, hreached⟩ rfl
    have hzero := h.completed_zero hrc p (h.arrives hreached)
    rcases h.failed p f hf with hphase | ⟨_, hne⟩
    · -- a request that was answered with an error has no collective
      rw [(h.node p).idle (by simp [hphase])] at hzero
      exact not_mem_nil hzero
    · exact ((h.node p).synced.completed 0 hzero).mpr hne rfl

end CorpcNet

open CorpcNet in
/-- **The initiator learns of every failure** on a node that was reached. -/
theorem corpc_result_ne_zero_iff {ι : Type} [DecidableEq ι] (cfg : CorpcNetCfg ι)
    (s : CorpcNet ι) (hreach : (corpcNetLts cfg).Reach s) (rc : ℤ)
    (hrc : rc ∈ (s.nodes []).node.completed) :
    rc ≠ 0 ↔ ∃ p f, (p, f) ∈ s.failures ∧ (s.nodes p).phase ≠ .arrived :=
  ((inv_invariant cfg).reach hreach).result_ne_zero_iff hrc

/-- The initiator and one child, on which the dispatch fails. -/
theorem corpc_result_of_failed_dispatch :
    ∃ s, (corpcNetLts (ι := ℕ) ⟨fun _ => true, fun _ => 0, false⟩).Reach s ∧
      -derBadTarget ∈ (s.nodes []).node.completed ∧
      ∃ p f, (p, f) ∈ s.failures ∧ (s.nodes p).phase ≠ .arrived := by
  have hrun : (corpcNetLts (ι := ℕ) ⟨fun _ => true, fun _ => 0, false⟩).Run (CorpcNet.init ℕ)
      [.on [] (.node (.start (.children [1]))), .on [] (.node (.create 0)),
        .on [1] (.handle (.good none)), .on [1] (.node (.start (.children []))),
        .on [1] (.node .forwardDone), .on [1] (.node (.dispatch (-derBadTarget))),
        .on [1] (.node .localDone), .deliver [] 1 (-derBadTarget), .on [] (.node .forwardDone),
        .on [] (.node (.dispatch 0)), .on [] (.node .localReply)] _ := Lts.run_of_exec rfl
  have hrc : -derBadTarget ∈ _ := mem_singleton_self _
  exact ⟨_, ⟨_, _, rfl, hrun⟩, hrc,
    (corpc_result_ne_zero_iff _ _ ⟨_, _, rfl, hrun⟩ (-derBadTarget) hrc).mp (by decide)⟩

/-- The opcode is not registered on the child: an error, and nothing of the collective has
failed. -/
theorem corpc_result_of_unregistered :
    ∃ s, (corpcNetLts (ι := ℕ) ⟨fun _ => true, fun _ => 0, false⟩).Reach s ∧
      (s.nodes []).node.completed = [-derUnreg] ∧ s.failures = [([1], .receipt)] :=
  ⟨_, ⟨_, [.on [] (.node (.start (.children [1]))), .on [] (.node (.create 0)),
      .on [1] (.handle { RecvEnv.good none with opcFound := false }),
      .deliver [] 1 (-derUnreg), .on [] (.node .forwardDone),
      .on [] (.node (.dispatch 0)), .on [] (.node .localReply)], rfl, Lts.run_of_exec rfl⟩,
    rfl, rfl⟩

open CorpcNet in
/-- **Success is unanimous**: if the initiator completes with 0, nothing has failed anywhere, and
every node that was sent the request has completed with 0, once, and has no child left to send
it to. -/
theorem corpc_success_everywhere {ι : Type} [DecidableEq ι] (cfg : CorpcNetCfg ι) :
    (corpcNetLts cfg).Always fun s => 0 ∈ (s.nodes []).node.completed → s.failures = [] ∧
      ∀ p, p = [] ∨ s.Arrives p → (s.nodes p).node.completed = [0] ∧ (s.nodes p).node.todo = [] := by
  intro s hreach hroot
  have h := (inv_invariant cfg).reach hreach
  refine ⟨eq_nil_iff_forall_not_mem.mpr fun (p, f) hf => ?_, fun p hp => ?_⟩
  · refine (h.result_ne_zero_iff hroot).mpr ⟨p, f, hf, ?_⟩ rfl
    rcases h.failed p f hf with hphase | ⟨hphase, _⟩ <;> simp [hphase]
  · have hzero := h.completed_zero hroot p hp
    have hnode := (h.node p).node
    have hcounted := hnode.counted_of_mem hzero
    obtain ⟨rc, hrc⟩ := length_eq_one_iff.mp (hnode.done.trans (if_pos hcounted))
    rw [hrc] at hzero ⊢
    rw [mem_singleton.mp hzero]
    exact ⟨rfl, (hnode.quiet_of_counted hcounted).1⟩

end Cart
