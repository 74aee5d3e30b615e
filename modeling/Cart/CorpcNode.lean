/-
One node of a collective RPC (`crt_corpc.c`).

A node forwards the request to its children, runs the local handler, and completes once
everybody has been heard of.  With collective operations, replies that arrive before the local
one are parked on `co_replied_rpcs`.  A step is one piece of code under `crp_lock`, and returns
nothing when a `D_ASSERT` fails.
-/
import Cart.Basic
import Cart.Lts

open List Option

namespace Cart

variable {ι : Type}

/-- What is fixed for one collective on one node. -/
structure CorpcCfg where
  coOps : Bool
  coRootExcluded : Bool
  crOutputSize : ℕ
  amRoot : Bool

/-- Where the main thread is in `crt_corpc_req_hdlr`. -/
inductive CorpcPc (ι : Type) where
  | start
  | forward (todo : List ι)
  | dispatch
  | localDone
  | finished
  deriving DecidableEq, Repr

/-- How a reply gets into the parent's output. -/
inductive MergeOp where
  | copy
  | aggregate
  deriving DecidableEq, Repr

/-- The state of a collective on a node, with the child RPCs `ι`; the last group records what
happened. -/
structure CorpcNode (ι : Type) where
  coChildNum : ℕ
  coChildAckNum : ℕ
  coChildFailedNum : ℕ
  coRc : ℤ
  cchRc : ℤ
  coLocalDone : Bool
  crpReplyPending : Bool
  coChildRpcs : List ι
  coRepliedRpcs : List ι
  pc : CorpcPc ι
  completed : List ℤ
  merged : List (MergeOp × ι)
  children : List ι
  handled : List ι
  dropped : List ι
  localReplied : Bool
  dispatchFailed : Bool
  deriving DecidableEq, Repr

namespace CorpcNode

/-- After `crt_corpc_info_init`. -/
def init (ι : Type) : CorpcNode ι :=
  ⟨0, 0, 0, 0, 0, false, false, [], [], .start, [], [], [], [], [], false, false⟩

section

variable (cfg : CorpcCfg) (n : CorpcNode ι)

/-- The children that the main thread still has to create. -/
def todo : List ι :=
  match n.pc with
  | .forward l => l
  | _ => []

/-- The extra one is for the local handler. -/
def waitNum : ℕ :=
  n.coChildNum + if cfg.coRootExcluded then 0 else 1

def doneNum : ℕ := n.coChildAckNum + n.coChildFailedNum

/-- `crt_corpc_fail_parent_rpc`. -/
def failParentRpc (rc : ℤ) (n : CorpcNode ι) : CorpcNode ι := { n with cchRc := rc, coRc := rc }

/-- `crt_corpc_complete`: the root calls back, any other node replies with `cch_rc`. -/
def complete : CorpcNode ι :=
  if cfg.amRoot then
    { n with completed := n.completed ++ [if n.coRc = 0 then n.cchRc else n.coRc] }
  else
    let n := if n.coRc ≠ 0 then n.failParentRpc n.coRc else n
    { n with completed := n.completed ++ [n.cchRc] }

/-- `crt_corpc_fail_child_rpc`. -/
def failChildRpc (failedNum : ℕ) (rc : ℤ) (n : CorpcNode ι) : Option (CorpcNode ι) :=
  if n.doneNum + failedNum ≤ n.waitNum cfg then
    let n := failParentRpc rc
      { n with coRc := rc, coChildFailedNum := n.coChildFailedNum + failedNum }
    some (if n.waitNum cfg = n.doneNum then n.complete cfg else n)
  else none

/-- The loop over `co_replied_rpcs` when the local reply arrives. -/
def aggregateReplied : CorpcNode ι :=
  n.coRepliedRpcs.foldl
    (fun n c => { n with
      merged := n.merged ++ [(.aggregate, c)]
      coChildAckNum := n.coChildAckNum + 1
      coRepliedRpcs := n.coRepliedRpcs.tail }) n

/-- The end of `crt_corpc_reply_hdlr`, from `aggregate_done` on. -/
def aggregateDone : Option (CorpcNode ι) :=
  if n.doneNum ≤ n.waitNum cfg then
    some (if n.waitNum cfg = n.doneNum then n.complete cfg else n)
  else none

/-- The start of `crt_corpc_reply_hdlr`. -/
def recordReply (cciRc cchRc : ℤ) (n : CorpcNode ι) : CorpcNode ι :=
  let n := if cfg.coRootExcluded then { n with coLocalDone := true } else n
  let n := if cciRc ≠ 0 then { n with coRc := cciRc } else n
  if cchRc ≠ 0 then n.failParentRpc cchRc else n

/-- `crt_corpc_reply_hdlr` for the local reply, where the parent is its own
child. -/
def localReplyHdlr : Option (CorpcNode ι) :=
  if cfg.coRootExcluded then none
  else
    let n := { n.recordReply cfg 0 n.cchRc with localReplied := true, crpReplyPending := false }
    if cfg.coOps = false then
      { n with coChildAckNum := n.coChildAckNum + 1 }.aggregateDone cfg
    else
      let n := { n with coLocalDone := true }.aggregateReplied
      { n with coChildAckNum := n.coChildAckNum + 1 }.aggregateDone cfg

end

variable [DecidableEq ι]

/-- `crt_corpc_reply_hdlr` for the reply of the child `c`. -/
def childReplyHdlr (cfg : CorpcCfg) (c : ι) (cciRc cchRc : ℤ) (n : CorpcNode ι) :
    Option (CorpcNode ι) :=
  let n := { n.recordReply cfg cciRc cchRc with handled := n.handled ++ [c] }
  if cfg.coOps = false then
    { n with
      coChildAckNum := n.coChildAckNum + 1
      coChildRpcs := n.coChildRpcs.erase c }.aggregateDone cfg
  else if n.coLocalDone then
    -- the first reply of an excluded root is copied, all others are aggregated
    let op := if cfg.coRootExcluded ∧ n.coChildAckNum = 0 ∧ 0 < cfg.crOutputSize then MergeOp.copy
      else MergeOp.aggregate
    { n with
      merged := n.merged ++ [(op, c)]
      coChildAckNum := n.coChildAckNum + 1
      coChildRpcs := n.coChildRpcs.erase c }.aggregateDone cfg
  else if n.coChildAckNum < n.waitNum cfg then
    { n with
      coChildRpcs := n.coChildRpcs.erase c
      coRepliedRpcs := n.coRepliedRpcs ++ [c] }.aggregateDone cfg
  else none

end CorpcNode

/-- `crt_corpc_req_hdlr` up to the forwarding loop: a failure, or the children. -/
inductive CorpcStart (ι : Type) where
  | fail (rc : ℤ)
  | children (l : List ι)

/-- The pieces of code that run at a node. -/
inductive CorpcEvent (ι : Type) where
  | start (outcome : CorpcStart ι)
  | create (rc : ℤ)
  | forwardDone
  | dispatch (rc : ℤ)
  | localDone
  | childReply (c : ι) (cciRc cchRc : ℤ)
  | localReply

namespace CorpcNode

variable [DecidableEq ι]

/-- One piece of code; `create` is one round of the forwarding loop. -/
def step (cfg : CorpcCfg) (n : CorpcNode ι) : CorpcEvent ι → Option (CorpcNode ι)
  | .start (.fail rc) => some { n.failParentRpc rc with pc := .forward [] }
  | .start (.children l) => some { n with
      coChildNum := l.length, coChildAckNum := 0, children := l, pc := .forward l }
  | .create rc =>
    match n.pc with
    | .forward (c :: cs) =>
      if rc = 0 then
        some { n with coChildRpcs := n.coChildRpcs ++ [c], pc := .forward cs }
      else
        { n with dropped := n.dropped ++ c :: cs, pc := .forward [] }.failChildRpc cfg (c :: cs).length rc
    | _ => none
  | .forwardDone =>
    let n := { n with pc := if cfg.coRootExcluded then .finished else .dispatch }
    some (if n.coChildNum = 0 ∧ cfg.coRootExcluded then n.complete cfg else n)
  | .dispatch rc =>
    if rc = 0 then some { n with crpReplyPending := true, pc := .finished }
    else { n with dispatchFailed := true, pc := .localDone }.failChildRpc cfg 1 rc
  | .localDone => some { n with coLocalDone := true, crpReplyPending := false, pc := .finished }
  | .childReply c cciRc cchRc => n.childReplyHdlr cfg c cciRc cchRc
  | .localReply => n.localReplyHdlr cfg

/-- The main thread goes through its program; a child calls back once; the handler replies once.
-/
def Enabled (n : CorpcNode ι) : CorpcEvent ι → Prop
  | .start (.fail rc) => n.pc = .start ∧ rc ≠ 0
  | .start (.children l) => n.pc = .start ∧ l.Nodup
  | .create _ => ∃ c cs, n.pc = .forward (c :: cs)
  | .forwardDone => n.pc = .forward []
  | .dispatch _ => n.pc = .dispatch
  | .localDone => n.pc = .localDone
  | .childReply c _ _ => c ∈ n.coChildRpcs
  | .localReply => n.crpReplyPending = true

instance (n : CorpcNode ι) (e : CorpcEvent ι) : Decidable (n.Enabled e) :=
  match e with
  | .start (.fail _) | .start (.children _) => instDecidableAnd
  | .create _ =>
    match hpc : n.pc with
    | .forward (c :: cs) => isTrue ⟨c, cs, hpc⟩
    | .forward [] | .start | .dispatch | .localDone | .finished =>
      isFalse (by rintro ⟨c, cs, h⟩; cases hpc.symm.trans h)
  | .forwardDone | .dispatch _ | .localDone => inferInstanceAs (Decidable (_ = _))
  | .childReply c _ _ => inferInstanceAs (Decidable (_ ∈ _))
  | .localReply => inferInstanceAs (Decidable (_ = _))

end CorpcNode

/-- The collective on one node. -/
def corpcLts (cfg : CorpcCfg) (ι : Type) [DecidableEq ι] : Lts (CorpcNode ι) (CorpcEvent ι) where
  init n := n = CorpcNode.init ι
  enabled := CorpcNode.Enabled
  step := CorpcNode.step cfg

/-! ### What the pieces do -/

namespace CorpcNode

variable {cfg : CorpcCfg} {n n' : CorpcNode ι}

/-- The result a completion reports. -/
def result (n : CorpcNode ι) : ℤ := if n.coRc = 0 then n.cchRc else n.coRc

theorem complete_eq (cfg : CorpcCfg) (n : CorpcNode ι) : n.complete cfg = { n with
      cchRc := if cfg.amRoot then n.cchRc else n.result
      completed := n.completed ++ [n.result] } := by
  rw [complete]
  by_cases hroot : cfg.amRoot = true
  · simp [hroot, result]
  · by_cases hrc : n.coRc = 0
    · simp [hroot, hrc, result]
    · simp [hroot, hrc, result, failParentRpc]

/-- Completes if everything is counted. -/
def settle (cfg : CorpcCfg) (n : CorpcNode ι) : CorpcNode ι :=
  if n.waitNum cfg = n.doneNum then n.complete cfg else n

theorem aggregateReplied_eq (n : CorpcNode ι) : n.aggregateReplied = { n with
      merged := n.merged ++ n.coRepliedRpcs.map fun c => (.aggregate, c)
      coChildAckNum := n.coChildAckNum + n.coRepliedRpcs.length
      coRepliedRpcs := [] } := by
  -- the loop over a list that it shortens by its head in every round
  have hloop : ∀ (l : List ι) (m : CorpcNode ι), m.coRepliedRpcs = l →
      l.foldl (fun n c => { n with
        merged := n.merged ++ [(.aggregate, c)]
        coChildAckNum := n.coChildAckNum + 1
        coRepliedRpcs := n.coRepliedRpcs.tail }) m =
      { m with
        merged := m.merged ++ l.map fun c => (.aggregate, c)
        coChildAckNum := m.coChildAckNum + l.length
        coRepliedRpcs := [] } := by
    intro l
    induction l with
    | nil =>
      intro m hm
      cases m
      simp only at hm
      simp [hm]
    | cons c l ih =>
      intro m hm
      rw [foldl_cons, ih _ (by rw [hm, tail_cons])]
      simp only [append_assoc, singleton_append, map_cons, length_cons]
      congr 1
      omega
  exact hloop n.coRepliedRpcs n rfl

theorem recordReply_eq (cfg : CorpcCfg) (cciRc cchRc : ℤ) (n : CorpcNode ι) :
    n.recordReply cfg cciRc cchRc = { n with
      coLocalDone := n.coLocalDone || cfg.coRootExcluded
      coRc := if cchRc ≠ 0 then cchRc else if cciRc ≠ 0 then cciRc else n.coRc
      cchRc := if cchRc ≠ 0 then cchRc else n.cchRc } := by
  rw [recordReply]
  by_cases hex : cfg.coRootExcluded = true <;> by_cases hcci : cciRc = 0 <;>
    by_cases hcch : cchRc = 0 <;> simp [hex, hcci, hcch, failParentRpc]

theorem failChildRpc_eq {k : ℕ} {rc : ℤ} (h : n.doneNum + k ≤ n.waitNum cfg) :
    n.failChildRpc cfg k rc = some (settle cfg { n with
      coRc := rc, cchRc := rc, coChildFailedNum := n.coChildFailedNum + k }) := by
  rw [failChildRpc, if_pos h]
  rfl

theorem aggregateDone_eq (h : n.doneNum ≤ n.waitNum cfg) :
    n.aggregateDone cfg = some (settle cfg n) := by
  rw [aggregateDone, if_pos h]
  rfl

/-! ### The state after a step, up to a completion -/

variable [DecidableEq ι]

/-- A child that has called back. -/
def noteReply (cfg : CorpcCfg) (c : ι) (cciRc cchRc : ℤ) (n : CorpcNode ι) : CorpcNode ι :=
  { n with
    coLocalDone := n.coLocalDone || cfg.coRootExcluded
    coRc := if cchRc ≠ 0 then cchRc else if cciRc ≠ 0 then cciRc else n.coRc
    cchRc := if cchRc ≠ 0 then cchRc else n.cchRc
    handled := n.handled ++ [c]
    coChildRpcs := n.coChildRpcs.erase c }

/-- The state after a step, without the completion it may end with. -/
def next (cfg : CorpcCfg) (n : CorpcNode ι) : CorpcEvent ι → CorpcNode ι
  | .start (.fail rc) => { n with cchRc := rc, coRc := rc, pc := .forward [] }
  | .start (.children l) => { n with
      coChildNum := l.length, coChildAckNum := 0, children := l, pc := .forward l }
  | .create rc =>
    match n.pc with
    | .forward (c :: cs) =>
      if rc = 0 then { n with coChildRpcs := n.coChildRpcs ++ [c], pc := .forward cs }
      else { n with
        cchRc := rc
        coRc := rc
        dropped := n.dropped ++ c :: cs
        coChildFailedNum := n.coChildFailedNum + (c :: cs).length
        pc := .forward [] }
    | _ => n
  | .forwardDone => { n with pc := if cfg.coRootExcluded then .finished else .dispatch }
  | .dispatch rc =>
    if rc = 0 then { n with crpReplyPending := true, pc := .finished }
    else { n with
      cchRc := rc
      coRc := rc
      coChildFailedNum := n.coChildFailedNum + 1
      dispatchFailed := true
      pc := .localDone }
  | .localDone => { n with coLocalDone := true, crpReplyPending := false, pc := .finished }
  | .childReply c cciRc cchRc =>
    let m := n.noteReply cfg c cciRc cchRc
    if cfg.coOps = false then { m with coChildAckNum := n.coChildAckNum + 1 }
    else if n.coLocalDone || cfg.coRootExcluded then
      let op := if cfg.coRootExcluded ∧ n.coChildAckNum = 0 ∧ 0 < cfg.crOutputSize then
        MergeOp.copy else MergeOp.aggregate
      { m with merged := n.merged ++ [(op, c)], coChildAckNum := n.coChildAckNum + 1 }
    else { m with coRepliedRpcs := n.coRepliedRpcs ++ [c] }
  | .localReply =>
    { n with
      coLocalDone := n.coLocalDone || cfg.coOps
      coRc := if n.cchRc ≠ 0 then n.cchRc else n.coRc
      localReplied := true
      crpReplyPending := false
      coChildAckNum := n.coChildAckNum + (if cfg.coOps then n.coRepliedRpcs.length else 0) + 1
      merged := n.merged ++ if cfg.coOps then n.coRepliedRpcs.map fun c => (.aggregate, c) else []
      coRepliedRpcs := if cfg.coOps then [] else n.coRepliedRpcs }

section

variable (cfg n)

theorem next_create_eq (rc : ℤ) :
    ∃ cchRc coRc rpcs dropped failed pc, n.next cfg (.create rc) = { n with
      cchRc := cchRc
      coRc := coRc
      coChildRpcs := rpcs
      dropped := dropped
      coChildFailedNum := failed
      pc := pc } := by
  rw [next]
  split
  · split
    · exact ⟨_, _, _, _, _, _, rfl⟩
    · exact ⟨_, _, _, _, _, _, rfl⟩
  · exact ⟨_, _, _, _, _, _, rfl⟩

/-- The fields the reply of a child can change, beyond what `noteReply` says. -/
theorem next_childReply_eq (c : ι) (cciRc cchRc : ℤ) :
    ∃ merged ack parked, n.next cfg (.childReply c cciRc cchRc) =
      { n.noteReply cfg c cciRc cchRc with
        merged := merged
        coChildAckNum := ack
        coRepliedRpcs := parked } := by
  rw [next]
  split
  · exact ⟨_, _, _, rfl⟩
  · split
    · exact ⟨_, _, _, rfl⟩
    · exact ⟨_, _, _, rfl⟩

theorem next_dispatch_eq (rc : ℤ) : n.next cfg (.dispatch rc) = { n with
      crpReplyPending := n.crpReplyPending || decide (rc = 0)
      cchRc := if rc = 0 then n.cchRc else rc
      coRc := if rc = 0 then n.coRc else rc
      coChildFailedNum := n.coChildFailedNum + if rc = 0 then 0 else 1
      dispatchFailed := n.dispatchFailed || decide (rc ≠ 0)
      pc := if rc = 0 then .finished else .localDone } := by
  rw [next]
  by_cases hrc : rc = 0
  · simp [hrc]
  · simp [hrc]

end

omit [DecidableEq ι] in
theorem failChildRpc_some {k : ℕ} {rc : ℤ} (h : n.failChildRpc cfg k rc = some n') :
    n' = settle cfg { n with
      coRc := rc, cchRc := rc, coChildFailedNum := n.coChildFailedNum + k } := by
  by_cases hle : n.doneNum + k ≤ n.waitNum cfg
  · rw [failChildRpc_eq hle] at h
    exact (some.inj h).symm
  · rw [failChildRpc, if_neg hle] at h
    cases h

omit [DecidableEq ι] in
theorem aggregateDone_some (h : n.aggregateDone cfg = some n') : n' = settle cfg n := by
  by_cases hle : n.doneNum ≤ n.waitNum cfg
  · rw [aggregateDone_eq hle] at h
    exact (some.inj h).symm
  · rw [aggregateDone, if_neg hle] at h
    cases h

omit [DecidableEq ι] in
theorem settle_cases (cfg : CorpcCfg) (n : CorpcNode ι) :
    n.settle cfg = n ∨ n.settle cfg = n.complete cfg := by
  rw [settle]
  split
  · exact .inr rfl
  · exact .inl rfl

/-- **Every step** leads to `next`, or to its completion. -/
theorem step_next {e : CorpcEvent ι}
    (h : n.step cfg e = some n') : n' = n.next cfg e ∨ n' = (n.next cfg e).complete cfg := by
  cases e with
  | start outcome =>
    cases outcome with
    | fail rc | children l => exact .inl (some.inj h).symm
  | create rc =>
    rw [step] at h
    rw [next]
    split at h
    · split_ifs at h with hrc
      · rw [if_pos hrc]
        exact .inl (some.inj h).symm
      · rw [if_neg hrc, failChildRpc_some h]
        exact settle_cases cfg _
    · cases h
  | forwardDone =>
    rw [step] at h
    rw [← some.inj h, next]
    dsimp only
    split
    · exact .inr rfl
    · exact .inl rfl
  | dispatch rc =>
    rw [step] at h
    rw [next]
    split_ifs at h with hrc
    · rw [if_pos hrc]
      exact .inl (some.inj h).symm
    · rw [if_neg hrc, failChildRpc_some h]
      exact settle_cases cfg _
  | localDone => exact .inl (some.inj h).symm
  | childReply c cciRc cchRc =>
    rw [step, childReplyHdlr, recordReply_eq] at h
    rw [next, noteReply]
    by_cases hops : cfg.coOps = false
    · rw [if_pos hops] at h ⊢
      rw [aggregateDone_some h]
      exact settle_cases cfg _
    · rw [if_neg hops] at h ⊢
      by_cases hdone : (n.coLocalDone || cfg.coRootExcluded) = true
      · rw [if_pos hdone] at h ⊢
        rw [aggregateDone_some h]
        exact settle_cases cfg _
      · rw [if_neg hdone, waitNum] at h
        rw [if_neg hdone]
        by_cases hwait : n.coChildAckNum < n.coChildNum + if cfg.coRootExcluded then 0 else 1
        · rw [if_pos hwait] at h
          rw [aggregateDone_some h]
          exact settle_cases cfg _
        · rw [if_neg hwait] at h
          cases h
  | localReply =>
    rw [step, localReplyHdlr, recordReply_eq] at h
    rw [next]
    by_cases hex : cfg.coRootExcluded = true
    · rw [if_pos hex] at h
      cases h
    · rw [if_neg hex] at h
      rw [Bool.not_eq_true] at hex
      by_cases hops : cfg.coOps = false
      · rw [if_pos hops] at h
        rw [aggregateDone_some h]
        simp only [hops, hex, Bool.or_false, Bool.false_eq_true, if_false, Nat.add_zero,
          append_nil, ne_eq, not_true_eq_false, ite_self]
        exact settle_cases cfg _
      · rw [if_neg hops, aggregateReplied_eq] at h
        rw [aggregateDone_some h]
        rw [Bool.not_eq_false] at hops
        simp only [hops, Bool.or_true, if_true, if_false, ne_eq, not_true_eq_false, ite_self]
        exact settle_cases cfg _

end CorpcNode

end Cart
