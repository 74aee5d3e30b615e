/-
In-flight RPCs of a context (`crt_context.c`).

A context keeps, for every endpoint, the RPCs in flight and those that wait for credits, and
for all of them together a heap of deadlines.  A function returns nothing when a `D_ASSERT`
fails; what the environment decides is passed in.
-/
import Cart.Binheap

open Function List Option

namespace Cart

variable {ι : Type} {r : ι}

/-- `crt_rpc_state_t`. -/
inductive RpcState where
  | inited
  | queued
  | reqSent
  | replyRecved
  | completed
  | canceled
  | timeout
  | addrLookup
  | uriLookup
  | fwdUnreach
  deriving DecidableEq, Repr

/-- The states that `crt_context_req_untrack` accepts. -/
def RpcState.untrackable : RpcState → Bool
  | .inited | .completed | .timeout | .addrLookup | .uriLookup | .canceled | .fwdUnreach => true
  | .queued | .reqSent | .replyRecved => false

/-- The fields of `struct crt_rpc_priv` that concern tracking. -/
structure CrtRpcPriv where
  crpState : RpcState
  crpTimeoutTs : ℕ
  crpInBinheap : Bool
  crpCtxTracked : Bool
  -- whether `crp_epi` is set; it is never reset
  crpEpi : Bool
  deriving DecidableEq, Repr

def CrtRpcPriv.crtReqTimedout (rpc : CrtRpcPriv) : Bool :=
  (match rpc.crpState with
    | .reqSent | .uriLookup | .addrLookup | .timeout | .fwdUnreach => true
    | .inited | .queued | .replyRecved | .completed | .canceled => false) && !rpc.crpInBinheap

structure CrtEpInflight (ι : Type) where
  epiReqQ : List ι
  epiReqNum : ℤ
  epiReplyNum : ℤ
  epiReqWaitq : List ι
  epiReqWaitNum : ℤ

namespace CrtEpInflight

/-- The RPC goes in flight. -/
def launch (epi : CrtEpInflight ι) (r : ι) : CrtEpInflight ι :=
  { epi with epiReqQ := epi.epiReqQ ++ [r], epiReqNum := epi.epiReqNum + 1 }

/-- The RPC waits for credits. -/
def enqueue (epi : CrtEpInflight ι) (front : Bool) (r : ι) : CrtEpInflight ι :=
  { epi with
    epiReqWaitq := if front then r :: epi.epiReqWaitq else epi.epiReqWaitq ++ [r]
    epiReqWaitNum := epi.epiReqWaitNum + 1 }

/-- The RPC is taken off the queue it is on.  The code counts it as one of
those in flight. -/
def remove [DecidableEq ι] (epi : CrtEpInflight ι) (r : ι) (state : RpcState) : CrtEpInflight ι :=
  let epi := { epi with epiReqQ := epi.epiReqQ.erase r, epiReqWaitq := epi.epiReqWaitq.erase r }
  if state = .completed then { epi with epiReplyNum := epi.epiReplyNum + 1 }
  else { epi with epiReqNum := epi.epiReqNum - 1 }

end CrtEpInflight

/-- What is fixed: the credits (`0` for no flow control) and what is known of every RPC. -/
structure CtxCfg (ι : Type) where
  cgCreditEpCtx : ℕ
  epRank : ι → ℕ
  coiQueueFront : ι → Bool
  coiResetTimer : ι → Bool
  opcUriLookup : ι → Bool

/-- A context with the RPCs `ι`. `clobbered` records that a deadline was written while its RPC
was in the heap. -/
structure CrtContext (ι : Type) where
  rpcs : ι → CrtRpcPriv
  epis : ℕ → CrtEpInflight ι
  ccBhTimeout : DBinheap ι
  clobbered : Bool

/-- What track returns: `CRT_REQ_TRACK_IN_INFLIGHQ`, `CRT_REQ_TRACK_IN_WAITQ`,
or an error. -/
inductive TrackRc where
  | inflighq
  | waitq
  | error (rc : ℤ)
  deriving DecidableEq, Repr

/-- A deadline, and what the heap insertion meets. -/
structure DeadlineEnv where
  ts : ℕ
  heap : HeapEnv

namespace CrtContext

variable [DecidableEq ι]

/-- A new context. -/
def create (null : ι) : CrtContext ι where
  rpcs _ := ⟨.inited, 0, false, false, false⟩
  epis _ := ⟨[], 0, 0, [], 0⟩
  ccBhTimeout := .create null
  clobbered := false

section

variable (cfg : CtxCfg ι) (env : ι → DeadlineEnv) (s : CrtContext ι) (r : ι)

def setRpc (rpc : CrtRpcPriv) : CrtContext ι :=
  { s with rpcs := Function.update s.rpcs r rpc }

def setEpi (k : ℕ) (epi : CrtEpInflight ι) : CrtContext ι :=
  { s with epis := Function.update s.epis k epi }

def setState (state : RpcState) : CrtContext ι :=
  s.setRpc r { s.rpcs r with crpState := state }

def deadline : ℕ := (s.rpcs r).crpTimeoutTs

def timeoutBpNodeCmp (a b : ι) : Bool := decide (s.deadline a < s.deadline b)

/-- Writes `crp_timeout_ts`, as `crt_set_timeout` does. -/
def crtSetTimeout (ts : ℕ) : CrtContext ι :=
  { s.setRpc r { s.rpcs r with crpTimeoutTs := ts } with
    clobbered := s.clobbered || decide (s.ccBhTimeout.Contains r) }

def crtReqTimeoutTrack (env : HeapEnv) (s : CrtContext ι) (r : ι) : Option (ℤ × CrtContext ι) :=
  if (s.rpcs r).crpInBinheap then some (0, s)
  else (s.ccBhTimeout.dBinheapInsert s.timeoutBpNodeCmp env r).map fun (rc, h) =>
    (rc, { s.setRpc r { s.rpcs r with crpInBinheap := decide (rc = 0) } with ccBhTimeout := h })

def crtReqTimeoutUntrack : Option (CrtContext ι) :=
  if (s.rpcs r).crpInBinheap then
    (s.ccBhTimeout.dBinheapRemove s.timeoutBpNodeCmp r).map fun h =>
      { s.setRpc r { s.rpcs r with crpInBinheap := false } with ccBhTimeout := h }
  else some s

/-- `epiRc` is an error in creating the endpoint. -/
def crtContextReqTrack (env : DeadlineEnv) (epiRc : ℤ) (s : CrtContext ι) (r : ι) :
    Option (TrackRc × CrtContext ι) :=
  if cfg.opcUriLookup r then some (.inflighq, s)
  else if epiRc ≠ 0 then some (.error epiRc, s)
  else
    let k := cfg.epRank r
    let epi := s.epis k
    if epi.epiReqNum < epi.epiReplyNum then none
    else
      let s := s.crtSetTimeout r env.ts
      let s := s.setRpc r { s.rpcs r with crpEpi := true }
      if cfg.cgCreditEpCtx ≠ 0 ∧ (cfg.cgCreditEpCtx : ℤ) ≤ epi.epiReqNum - epi.epiReplyNum then
        let s := s.setEpi k (epi.enqueue (cfg.coiQueueFront r) r)
        some (.waitq, s.setRpc r { s.rpcs r with crpState := .queued, crpCtxTracked := true })
      else
        (s.crtReqTimeoutTrack env.heap r).map fun (rc, s) =>
          let (res, s) := if rc = 0 then (TrackRc.inflighq, s.setEpi k (epi.launch r))
            else (.error rc, s)
          -- also after the error
          (res, s.setRpc r { s.rpcs r with crpCtxTracked := true })

/-- The loop of `crt_context_req_untrack` over the wait queue of the endpoint `k`. -/
def releaseLoop (env : ι → DeadlineEnv) (k : ℕ) :
    ℕ → CrtContext ι → Option (CrtContext ι × List ι)
  | 0, s => some (s, [])
  | credits + 1, s =>
    match (s.epis k).epiReqWaitq with
    | [] => some (s, [])
    | w :: ws =>
      if (s.epis k).epiReqWaitNum ≤ 0 then none
      else
        let s := (s.setState w .inited).crtSetTimeout w (env w).ts
        (s.crtReqTimeoutTrack (env w).heap w).bind fun (_, s) =>
          let epi := s.epis k
          let epi := { epi with
            epiReqWaitq := ws
            epiReqQ := epi.epiReqQ ++ [w]
            epiReqWaitNum := epi.epiReqWaitNum - 1
            epiReqNum := epi.epiReqNum + 1 }
          if epi.epiReqWaitNum < 0 ∨ epi.epiReqNum < epi.epiReplyNum then none
          else (releaseLoop env k credits (s.setEpi k epi)).map fun (s, l) => (s, w :: l)

/-- The part of `crt_context_req_untrack` under `epi_mutex` for an RPC that is
tracked. -/
def untrackLocked : Option (CrtContext ι × List ι) :=
  let k := cfg.epRank r
  let epi := (s.epis k).remove r (s.rpcs r).crpState
  if epi.epiReqNum < epi.epiReplyNum then none
  else
    let s := s.setEpi k epi
    (if (s.rpcs r).crtReqTimedout then some s else s.crtReqTimeoutUntrack r).bind fun s =>
      let s := s.setRpc r { s.rpcs r with crpCtxTracked := false }
      if cfg.cgCreditEpCtx = 0 then some (s, [])
      else
        let inflight := (s.epis k).epiReqNum - (s.epis k).epiReplyNum
        if inflight < 0 ∨ (cfg.cgCreditEpCtx : ℤ) < inflight then none
        else s.releaseLoop env k (cfg.cgCreditEpCtx - inflight).toNat

/-- Up to the submission of the RPCs it returns. -/
def crtContextReqUntrack : Option (CrtContext ι × List ι) :=
  if cfg.opcUriLookup r then some (s, [])
  else if (s.rpcs r).crpState.untrackable = false ∨ (s.rpcs r).crpEpi = false then none
  else if (s.rpcs r).crpCtxTracked = false then some (s, [])
  else s.untrackLocked cfg env r

/-- The extraction loop of `crt_context_timeout_check`; the first argument bounds the rounds. -/
def timeoutLoop (now : ℕ) : ℕ → CrtContext ι → Option (CrtContext ι × List ι)
  | 0, s => some (s, [])
  | fuel + 1, s =>
    match s.ccBhTimeout.dBinheapRoot with
    | none => some (s, [])
    | some r =>
      if now < s.deadline r then some (s, [])
      else (s.crtReqTimeoutUntrack r).bind fun s =>
        (timeoutLoop now fuel s).map fun (s, l) => (s, r :: l)

/-- Up to the handling of the RPCs it returns. -/
def crtContextTimeoutCheck (now : ℕ) (s : CrtContext ι) : Option (CrtContext ι × List ι) :=
  s.timeoutLoop now s.ccBhTimeout.dBhNodesCnt

/-- `present` tells whether the rank has not been evicted. -/
def crtReqTimeoutReset (env : DeadlineEnv) (present : Bool) (s : CrtContext ι) (r : ι) :
    Option (Bool × CrtContext ι) :=
  if cfg.coiResetTimer r = false then some (false, s)
  else if (s.rpcs r).crpState = .canceled ∨ (s.rpcs r).crpState = .completed then some (false, s)
  else if present = false then some (false, s)
  else ((s.crtSetTimeout r env.ts).crtReqTimeoutTrack env.heap r).map fun (rc, s) =>
    (decide (rc = 0), s)

/-- The part of `crt_req_uri_lookup_retry` that renews the deadline. -/
def crtReqUriLookupRetry (env : DeadlineEnv) (s : CrtContext ι) (r : ι) :
    Option (ℤ × CrtContext ι) :=
  (if (s.rpcs r).crtReqTimedout then some s else s.crtReqTimeoutUntrack r).bind fun s =>
    (s.crtSetTimeout r env.ts).crtReqTimeoutTrack env.heap r

def crtReqForceTimeout (env : HeapEnv) (s : CrtContext ι) (r : ι) : Option (CrtContext ι) :=
  if cfg.opcUriLookup r then some s
  else (s.crtReqTimeoutUntrack r).bind fun s =>
    ((s.crtSetTimeout r 0).crtReqTimeoutTrack env r).map Prod.snd

end

/-! ### The heap of deadlines -/

/-- The heap is in order, `crp_in_binheap` tells who is in it, and no deadline
was written behind its back. -/
structure HeapOk (s : CrtContext ι) : Prop where
  inv : s.ccBhTimeout.Inv s.deadline
  flag : ∀ r, (s.rpcs r).crpInBinheap = true ↔ s.ccBhTimeout.Contains r
  clean : s.clobbered = false

/-- `s'` differs from `s` only in the heap and in the deadline fields of `r`. -/
structure Retimed (r : ι) (s s' : CrtContext ι) : Prop where
  epis : s'.epis = s.epis
  other : ∀ x, x ≠ r → s'.rpcs x = s.rpcs x
  self : ∃ ts b, s'.rpcs r = { s.rpcs r with crpTimeoutTs := ts, crpInBinheap := b }

variable {s s' s'' : CrtContext ι}

section

omit [DecidableEq ι]

theorem Retimed.refl (r : ι) (s : CrtContext ι) : Retimed r s s :=
  ⟨rfl, fun _ _ => rfl, _, _, rfl⟩

theorem Retimed.trans (h : Retimed r s s') (h' : Retimed r s' s'') : Retimed r s s'' := by
  obtain ⟨ts, b, hself⟩ := h.self
  obtain ⟨ts', b', hself'⟩ := h'.self
  refine ⟨h'.epis.trans h.epis, fun x hx => (h'.other x hx).trans (h.other x hx), ts', b', ?_⟩
  rw [hself', hself]

theorem timeoutBpNodeCmp_follows (s : CrtContext ι) :
    DBinheap.Follows s.timeoutBpNodeCmp s.deadline where
  le _ _ h := le_of_lt (of_decide_eq_true h)
  ge _ _ h := not_lt.mp (of_decide_eq_false h)

/-- What is not a deadline can be changed freely. -/
theorem HeapOk.congr (h : HeapOk s) (hheap : s'.ccBhTimeout = s.ccBhTimeout)
    (hclean : s'.clobbered = s.clobbered)
    (hrpc : ∀ x, (s'.rpcs x).crpTimeoutTs = (s.rpcs x).crpTimeoutTs ∧
      (s'.rpcs x).crpInBinheap = (s.rpcs x).crpInBinheap) : HeapOk s' where
  inv := by
    rw [hheap, show s'.deadline = s.deadline from funext fun x => (hrpc x).1]
    exact h.inv
  flag x := by rw [hheap, (hrpc x).2, h.flag]
  clean := hclean.trans h.clean

theorem heapOk_setEpi (h : HeapOk s) (k : ℕ) (epi : CrtEpInflight ι) : HeapOk (s.setEpi k epi) :=
  h.congr rfl rfl fun _ => ⟨rfl, rfl⟩

end

/-- A deadline does not change where an RPC is in its life. -/
theorem Retimed.fields (h : Retimed r s s') (x : ι) : (s'.rpcs x).crpState = (s.rpcs x).crpState ∧
      (s'.rpcs x).crpCtxTracked = (s.rpcs x).crpCtxTracked ∧
      (s'.rpcs x).crpEpi = (s.rpcs x).crpEpi := by
  by_cases hx : x = r
  · obtain ⟨ts, b, hself⟩ := h.self
    rw [hx, hself]
    exact ⟨rfl, rfl, rfl⟩
  · rw [h.other x hx]
    exact ⟨rfl, rfl, rfl⟩

theorem heapOk_setRpc (h : HeapOk s) {rpc : CrtRpcPriv}
    (hts : rpc.crpTimeoutTs = (s.rpcs r).crpTimeoutTs)
    (hflag : rpc.crpInBinheap = (s.rpcs r).crpInBinheap) : HeapOk (s.setRpc r rpc) := by
  refine h.congr rfl rfl fun x => ?_
  by_cases hx : x = r
  · simp only [setRpc, hx, update_self]
    exact ⟨hts, hflag⟩
  · simp only [setRpc, update_of_ne hx, and_self]

theorem HeapOk.crtSetTimeout (h : HeapOk s) (hout : (s.rpcs r).crpInBinheap = false) (ts : ℕ) :
    HeapOk (s.crtSetTimeout r ts) := by
  have hnot : ¬ s.ccBhTimeout.Contains r := by rw [← h.flag, hout]; exact Bool.false_ne_true
  refine ⟨h.inv.congr fun x hx => ?_, fun x => ?_, ?_⟩
  · have hxr : x ≠ r := fun heq => hnot (heq ▸ hx)
    simp only [deadline, CrtContext.crtSetTimeout, setRpc, update_of_ne hxr]
  · rw [show (s.crtSetTimeout r ts).ccBhTimeout = s.ccBhTimeout from rfl, ← h.flag]
    by_cases hx : x = r
    · simp [CrtContext.crtSetTimeout, setRpc, hx]
    · simp [CrtContext.crtSetTimeout, setRpc, update_of_ne hx]
  · simp [CrtContext.crtSetTimeout, h.clean, hnot]

section

variable (s : CrtContext ι) (r : ι) (b : Bool)

theorem retimed_crtSetTimeout (ts : ℕ) : Retimed r s (s.crtSetTimeout r ts) :=
  ⟨rfl, fun _ hx => update_of_ne hx _ _, ts, (s.rpcs r).crpInBinheap,
    update_self _ _ _⟩

theorem retimed_flag (h : DBinheap ι) :
    Retimed r s { s.setRpc r { s.rpcs r with crpInBinheap := b } with ccBhTimeout := h } :=
  ⟨rfl, fun _ hx => update_of_ne hx _ _, (s.rpcs r).crpTimeoutTs, b,
    update_self _ _ _⟩

theorem deadline_flag (h : DBinheap ι) :
    deadline { s.setRpc r { s.rpcs r with crpInBinheap := b } with ccBhTimeout := h }
      = s.deadline := by
  funext x
  by_cases hx : x = r
  · simp [deadline, setRpc, hx]
  · simp [deadline, setRpc, update_of_ne hx]

end

section

variable (hok : HeapOk s)

include hok

/-- The flag of `r` follows the heap if nobody else comes or goes. -/
theorem HeapOk.flag_of {h : DBinheap ι} {b : Bool} (hinv : h.Inv s.deadline)
    (hr : h.Contains r ↔ b = true) (hother : ∀ x, x ≠ r → (h.Contains x ↔ s.ccBhTimeout.Contains x)) :
    HeapOk { s.setRpc r { s.rpcs r with crpInBinheap := b } with ccBhTimeout := h } := by
  refine ⟨by rw [deadline_flag]; exact hinv, fun x => ?_, hok.clean⟩
  by_cases hx : x = r
  · subst hx
    rw [hr]
    simp [setRpc]
  · rw [hother x hx, ← hok.flag]
    simp [setRpc, update_of_ne hx]

/-- **`crt_req_timeout_track`** puts the RPC into the heap unless it fails. -/
theorem crtReqTimeoutTrack_spec (env : HeapEnv) (r : ι) :
    ∃ rc s', s.crtReqTimeoutTrack env r = some (rc, s') ∧ HeapOk s' ∧ Retimed r s s' ∧
      (s'.rpcs r).crpInBinheap = decide (rc = 0) := by
  rw [crtReqTimeoutTrack]
  by_cases hin : (s.rpcs r).crpInBinheap = true
  · rw [if_pos hin]
    exact ⟨0, s, rfl, hok, .refl r s, hin⟩
  · have hnot : ¬ s.ccBhTimeout.Contains r := fun hc => hin ((hok.flag r).mpr hc)
    obtain ⟨rc, h, heq, hinv, hcontains⟩ :=
      DBinheap.dBinheapInsert_spec s.timeoutBpNodeCmp_follows hok.inv hnot env
    rw [if_neg hin, heq]
    refine ⟨rc, _, rfl, hok.flag_of hinv ?_ fun x hx => ?_, retimed_flag s r _ h, ?_⟩
    · simp [hcontains, hnot]
    · simp [hcontains, hx]
    · simp [setRpc]

/-- **`crt_req_timeout_untrack`** takes the RPC out of the heap, if it is there. -/
theorem crtReqTimeoutUntrack_spec (r : ι) :
    ∃ s', s.crtReqTimeoutUntrack r = some s' ∧ HeapOk s' ∧ Retimed r s s' ∧
      (s'.rpcs r).crpInBinheap = false ∧ s'.deadline = s.deadline ∧
      ((s.rpcs r).crpInBinheap = true →
        s'.ccBhTimeout.dBhNodesCnt = s.ccBhTimeout.dBhNodesCnt - 1) := by
  rw [crtReqTimeoutUntrack]
  by_cases hin : (s.rpcs r).crpInBinheap = true
  · obtain ⟨h, heq, hinv, hcnt, hcontains⟩ := DBinheap.dBinheapRemove_spec s.timeoutBpNodeCmp_follows
      hok.inv ((hok.flag r).mp hin)
    rw [if_pos hin, heq]
    refine ⟨_, rfl, hok.flag_of hinv ?_ fun x hx => ?_, retimed_flag s r _ h, ?_,
      deadline_flag s r _ h, fun _ => hcnt⟩
    · simp [hcontains]
    · simp [hcontains, hx]
    · simp [setRpc]
  · rw [if_neg hin]
    exact ⟨s, rfl, hok, .refl r s, Bool.eq_false_iff.mpr hin, rfl, fun h => absurd h hin⟩

theorem renew_spec (hout : (s.rpcs r).crpInBinheap = false) (ts : ℕ)
    (env : HeapEnv) : ∃ rc s', (s.crtSetTimeout r ts).crtReqTimeoutTrack env r = some (rc, s') ∧
      HeapOk s' ∧ Retimed r s s' ∧ (s'.rpcs r).crpInBinheap = decide (rc = 0) := by
  obtain ⟨rc, s', heq, hok', hre, hflag⟩ :=
    crtReqTimeoutTrack_spec (hok.crtSetTimeout hout ts) env r
  exact ⟨rc, s', heq, hok', (retimed_crtSetTimeout s r ts).trans hre, hflag⟩

/-- The code that takes an RPC out of the heap unless it has timed out leaves it
outside in any case. -/
theorem untrackUnlessTimedout_spec (r : ι) :
    ∃ s', (if (s.rpcs r).crtReqTimedout then some s else s.crtReqTimeoutUntrack r) = some s' ∧
      HeapOk s' ∧ Retimed r s s' ∧ (s'.rpcs r).crpInBinheap = false := by
  by_cases htimed : (s.rpcs r).crtReqTimedout = true
  · rw [if_pos htimed]
    refine ⟨s, rfl, hok, .refl r s, ?_⟩
    simp only [CrtRpcPriv.crtReqTimedout, Bool.and_eq_true, Bool.not_eq_true'] at htimed
    exact htimed.2
  · obtain ⟨s', heq, hok', hre, hflag, _⟩ := crtReqTimeoutUntrack_spec hok r
    rw [if_neg htimed]
    exact ⟨s', heq, hok', hre, hflag⟩

end

/-- What the extraction loop at time `now` does; `l` is queued for handling. -/
structure Extracted (now : ℕ) (s s' : CrtContext ι) (l : List ι) : Prop where
  heap : HeapOk s'
  epis : s'.epis = s.epis
  deadline : s'.deadline = s.deadline
  mem_iff : ∀ x, x ∈ l ↔ s.ccBhTimeout.Contains x ∧ s.deadline x ≤ now
  contains_iff : ∀ x, s'.ccBhTimeout.Contains x ↔ s.ccBhTimeout.Contains x ∧ now < s.deadline x
  nodup : l.Nodup
  sorted : l.Pairwise fun a b => s.deadline a ≤ s.deadline b
  fields : ∀ x, (s'.rpcs x).crpState = (s.rpcs x).crpState ∧
    (s'.rpcs x).crpCtxTracked = (s.rpcs x).crpCtxTracked ∧
    (s'.rpcs x).crpEpi = (s.rpcs x).crpEpi

omit [DecidableEq ι] in
/-- The loop stops with nothing to extract. -/
theorem Extracted.of_late {now : ℕ} (hok : HeapOk s)
    (hlate : ∀ x, s.ccBhTimeout.Contains x → now < s.deadline x) : Extracted now s s [] where
  heap := hok
  epis := rfl
  deadline := rfl
  mem_iff x := by
    simp only [not_mem_nil, false_iff, not_and, not_le]
    exact hlate x
  contains_iff x := (and_iff_left_of_imp (hlate x)).symm
  nodup := nodup_nil
  sorted := List.Pairwise.nil
  fields _ := ⟨rfl, rfl, rfl⟩

/-- **The extraction loop** takes out those that have expired, in order. -/
theorem timeoutLoop_spec (now fuel : ℕ) : ∀ {s : CrtContext ι}, HeapOk s →
    s.ccBhTimeout.dBhNodesCnt ≤ fuel →
    ∃ s' l, s.timeoutLoop now fuel = some (s', l) ∧ Extracted now s s' l := by
  induction fuel with
  | zero =>
    intro s hok hfuel
    refine ⟨s, [], rfl, .of_late hok fun x hx => ?_⟩
    obtain ⟨i, hi, _⟩ := hx
    omega
  | succ fuel ih =>
    intro s hok hfuel
    rw [timeoutLoop]
    cases hroot : s.ccBhTimeout.dBinheapRoot with
    | none =>
      exact ⟨s, [], rfl, .of_late hok fun x hx =>
        absurd hx (DBinheap.not_contains_of_root hroot x)⟩
    | some r =>
      dsimp only
      have hle : ∀ x, s.ccBhTimeout.Contains x → s.deadline r ≤ s.deadline x := fun x hx =>
        hok.inv.root_le hroot hx
      by_cases hnow : now < s.deadline r
      · rw [if_pos hnow]
        exact ⟨s, [], rfl, .of_late hok fun x hx => hnow.trans_le (hle x hx)⟩
      have hr := DBinheap.contains_root hroot
      obtain ⟨t, heq, hokt, hre, hflag, hdl, hcnt⟩ := crtReqTimeoutUntrack_spec hok r
      -- everybody but the root is still in the heap
      have hcontains : ∀ x, t.ccBhTimeout.Contains x ↔ x ≠ r ∧ s.ccBhTimeout.Contains x := by
        intro x
        rw [← hokt.flag, ← hok.flag]
        by_cases hx : x = r
        · simp [hx, hflag]
        · rw [hre.other x hx]
          simp [hx]
      have hless := hcnt ((hok.flag r).mpr hr)
      obtain ⟨s', l, hloop, hex⟩ := ih hokt (by omega)
      rw [if_neg hnow, heq, bind_some, hloop]
      have hmem : ∀ x, x ∈ l ↔ (x ≠ r ∧ s.ccBhTimeout.Contains x) ∧ s.deadline x ≤ now := by
        intro x
        rw [hex.mem_iff, hcontains, hdl]
      refine ⟨s', r :: l, rfl, hex.heap, hex.epis.trans hre.epis, hex.deadline.trans hdl,
        fun x => ?_, fun x => ?_, ?_, ?_, fun x => ?_⟩
      · rw [mem_cons, hmem]
        by_cases hx : x = r
        · simp [hx, hr, not_lt.mp hnow]
        · simp [hx]
      · rw [hex.contains_iff, hcontains, hdl]
        by_cases hx : x = r
        · simp [hx, hnow]
        · simp [hx]
      · exact nodup_cons.mpr ⟨fun h => ((hmem r).mp h).1.1 rfl, hex.nodup⟩
      · refine pairwise_cons.mpr ⟨fun x hx => hle x ((hmem x).mp hx).1.2, ?_⟩
        have := hex.sorted
        rwa [hdl] at this
      · obtain ⟨h₁, h₂, h₃⟩ := hre.fields x
        obtain ⟨h₁', h₂', h₃'⟩ := hex.fields x
        exact ⟨h₁'.trans h₁, h₂'.trans h₂, h₃'.trans h₃⟩

/-- **`crt_req_timeout_reset`** of an RPC that is not in the heap. -/
theorem crtReqTimeoutReset_spec (hok : HeapOk s) (hout : (s.rpcs r).crpInBinheap = false)
    (cfg : CtxCfg ι) (env : DeadlineEnv) (present : Bool) :
    ∃ reset s', s.crtReqTimeoutReset cfg env present r = some (reset, s') ∧ HeapOk s' ∧
      Retimed r s s' := by
  rw [crtReqTimeoutReset]
  split
  · exact ⟨false, s, rfl, hok, .refl r s⟩
  split
  · exact ⟨false, s, rfl, hok, .refl r s⟩
  split
  · exact ⟨false, s, rfl, hok, .refl r s⟩
  obtain ⟨rc, s', heq, hok', hre, _⟩ := renew_spec hok hout env.ts env.heap
  exact ⟨decide (rc = 0), s', by rw [heq]; rfl, hok', hre⟩

/-- **`crt_req_uri_lookup_retry`** takes the RPC out before it sets the deadline. -/
theorem crtReqUriLookupRetry_spec (hok : HeapOk s) (env : DeadlineEnv) (r : ι) :
    ∃ rc s', s.crtReqUriLookupRetry env r = some (rc, s') ∧ HeapOk s' ∧ Retimed r s s' := by
  obtain ⟨t, heq, hokt, hre, hflag⟩ := untrackUnlessTimedout_spec hok r
  obtain ⟨rc, s', heq', hok', hre', _⟩ := renew_spec hokt hflag env.ts env.heap
  exact ⟨rc, s', by rw [crtReqUriLookupRetry, heq]; exact heq', hok', hre.trans hre'⟩

/-- **`crt_req_force_timeout`** does so too. -/
theorem crtReqForceTimeout_spec (hok : HeapOk s) (cfg : CtxCfg ι) (env : HeapEnv) (r : ι) :
    ∃ s', s.crtReqForceTimeout cfg env r = some s' ∧ HeapOk s' ∧ Retimed r s s' := by
  rw [crtReqForceTimeout]
  split
  · exact ⟨s, rfl, hok, .refl r s⟩
  obtain ⟨t, heq, hokt, hre, hflag, _⟩ := crtReqTimeoutUntrack_spec hok r
  obtain ⟨rc, s', heq', hok', hre', _⟩ := renew_spec hokt hflag 0 env
  exact ⟨s', by rw [heq, bind_some, heq']; rfl, hok', hre.trans hre'⟩

/-! ### Spending the credits -/

end CrtContext

/-- The endpoint after `n` credits went to its wait queue. -/
def CrtEpInflight.release {ι : Type} (epi : CrtEpInflight ι) (n : ℕ) : CrtEpInflight ι where
  epiReqQ := epi.epiReqQ ++ epi.epiReqWaitq.take n
  epiReqNum := epi.epiReqNum + (epi.epiReqWaitq.take n).length
  epiReplyNum := epi.epiReplyNum
  epiReqWaitq := epi.epiReqWaitq.drop n
  epiReqWaitNum := epi.epiReqWaitNum - (epi.epiReqWaitq.take n).length

namespace CrtContext

variable [DecidableEq ι] {s s' : CrtContext ι} {k : ℕ}

/-- What the loop does to the context: those at the front of the wait queue go in
flight. -/
structure Released (k n : ℕ) (s s' : CrtContext ι) : Prop where
  heap : HeapOk s'
  epis : s'.epis = Function.update s.epis k ((s.epis k).release n)
  other : ∀ x, x ∉ (s.epis k).epiReqWaitq.take n → s'.rpcs x = s.rpcs x
  inited : ∀ x ∈ (s.epis k).epiReqWaitq.take n, (s'.rpcs x).crpState = .inited
  flags : ∀ x, (s'.rpcs x).crpCtxTracked = (s.rpcs x).crpCtxTracked ∧
    (s'.rpcs x).crpEpi = (s.rpcs x).crpEpi

open CrtEpInflight

omit [DecidableEq ι] in
theorem Released.of_nil (hok : HeapOk s) {n : ℕ} (htake : (s.epis k).epiReqWaitq.take n = [])
    (hdrop : (s.epis k).epiReqWaitq.drop n = (s.epis k).epiReqWaitq) : Released k n s s := by
  refine ⟨hok, ?_, fun _ _ => rfl, by simp [htake], fun _ => ⟨rfl, rfl⟩⟩
  simp [release, htake, hdrop]

/-- One round: the first waiter gets a deadline and goes in flight. -/
theorem releaseLoop_succ (hok : HeapOk s) {w : ι} {ws : List ι}
    (hq : (s.epis k).epiReqWaitq = w :: ws) (hout : (s.rpcs w).crpInBinheap = false)
    (env : ι → DeadlineEnv) :
    ∃ s₁, HeapOk s₁ ∧ s₁.epis = update s.epis k ((s.epis k).release 1) ∧
      (∀ x, x ≠ w → s₁.rpcs x = s.rpcs x) ∧ (s₁.rpcs w).crpState = .inited ∧
      (∀ x, (s₁.rpcs x).crpCtxTracked = (s.rpcs x).crpCtxTracked ∧
        (s₁.rpcs x).crpEpi = (s.rpcs x).crpEpi) ∧
      ∀ n, s.releaseLoop env k (n + 1) =
        if (s.epis k).epiReqWaitNum ≤ 0 ∨ (s.epis k).epiReqNum + 1 < (s.epis k).epiReplyNum then none
        else (s₁.releaseLoop env k n).map fun (s, l) => (s, w :: l) := by
  have hinit : HeapOk (s.setState w .inited) := heapOk_setRpc hok rfl rfl
  obtain ⟨rc, t, heq, hok', hre, _⟩ := renew_spec hinit (r := w)
    (by simpa [setState, setRpc] using hout) (env w).ts (env w).heap
  have hepi : t.epis = s.epis := hre.epis
  have hrel : (s.epis k).release 1 = { s.epis k with
      epiReqWaitq := ws
      epiReqQ := (s.epis k).epiReqQ ++ [w]
      epiReqWaitNum := (s.epis k).epiReqWaitNum - 1
      epiReqNum := (s.epis k).epiReqNum + 1 } := by
    simp [release, hq]
  refine ⟨t.setEpi k ((s.epis k).release 1), ?_, ?_, fun x hx => ?_, ?_, fun x => ?_, fun n => ?_⟩
  · exact heapOk_setEpi hok' _ _
  · simp only [setEpi, hepi]
  · rw [show (t.setEpi k ((s.epis k).release 1)).rpcs = t.rpcs from rfl, hre.other x hx]
    exact update_of_ne hx _ _
  · rw [show (t.setEpi k ((s.epis k).release 1)).rpcs = t.rpcs from rfl, (hre.fields w).1]
    simp [setState, setRpc]
  · obtain ⟨_, htracked, hepis⟩ := hre.fields x
    rw [show (t.setEpi k ((s.epis k).release 1)).rpcs = t.rpcs from rfl, htracked, hepis]
    by_cases hx : x = w
    · simp [setState, setRpc, hx]
    · simp [setState, setRpc, update_of_ne hx]
  · rw [releaseLoop, hq]
    dsimp only
    by_cases hwait : (s.epis k).epiReqWaitNum ≤ 0
    · rw [if_pos hwait, if_pos (.inl hwait)]
    · rw [if_neg hwait, heq, bind_some]
      rw [hepi]
      by_cases hnum : (s.epis k).epiReqNum + 1 < (s.epis k).epiReplyNum
      · rw [if_pos (.inr hnum), if_pos (.inr hnum)]
      · rw [if_neg (by omega), if_neg (by omega), hrel]

/-- **The loop**, where it does not stop at an assertion. -/
theorem releaseLoop_spec (env : ι → DeadlineEnv) (n : ℕ) : ∀ {s s' : CrtContext ι} {l : List ι},
    HeapOk s → (s.epis k).epiReqWaitq.Nodup →
    (∀ w ∈ (s.epis k).epiReqWaitq, (s.rpcs w).crpInBinheap = false) →
    s.releaseLoop env k n = some (s', l) →
    l = (s.epis k).epiReqWaitq.take n ∧ Released k n s s' := by
  induction n with
  | zero =>
    intro s s' l hok _ _ h
    cases h
    exact ⟨rfl, .of_nil hok rfl rfl⟩
  | succ n ih =>
    intro s s' l hok hnd hout h
    cases hq : (s.epis k).epiReqWaitq with
    | nil =>
      rw [releaseLoop, hq] at h
      cases h
      exact ⟨rfl, .of_nil hok (by simp [hq]) (by simp [hq])⟩
    | cons w ws =>
      rw [hq] at hnd hout
      obtain ⟨s₁, hok₁, hepis₁, hother₁, hinited₁, hflags₁, heq⟩ :=
        releaseLoop_succ hok hq (hout w (by simp)) env
      rw [heq] at h
      split at h
      · cases h
      obtain ⟨⟨s₂, l'⟩, hrest, hsome⟩ := map_eq_some_iff.mp h
      cases hsome
      have hq₁ : (s₁.epis k).epiReqWaitq = ws := by
        simp [hepis₁, CrtEpInflight.release, hq]
      have hne : ∀ x ∈ ws, x ≠ w := fun x hx heq => (nodup_cons.mp hnd).1 (heq ▸ hx)
      -- the others that wait are as before, so the rest of the loop can go on
      obtain ⟨hl, hrel⟩ := ih hok₁ (by rw [hq₁]; exact (nodup_cons.mp hnd).2)
        (fun x hx => by
          rw [hq₁] at hx
          rw [hother₁ x (hne x hx)]
          exact hout x (mem_cons_of_mem _ hx)) hrest
      rw [hq₁] at hl
      refine ⟨by rw [take_succ_cons, hl], hrel.heap, ?_, fun x hx => ?_, fun x hx => ?_,
        fun x => ⟨(hrel.flags x).1.trans (hflags₁ x).1, (hrel.flags x).2.trans (hflags₁ x).2⟩⟩
      · rw [hrel.epis, hepis₁, update_self, update_idem]
        congr 1
        simp only [CrtEpInflight.release, hq, take_succ_cons, take_zero, drop_succ_cons,
          drop_zero, append_assoc, singleton_append, length_cons,
          length_nil, CrtEpInflight.mk.injEq, true_and]
        push_cast
        omega
      · rw [hq, take_succ_cons, mem_cons, not_or] at hx
        rw [hrel.other x (by rw [hq₁]; exact hx.2), hother₁ x hx.1]
      · rw [hq, take_succ_cons, mem_cons] at hx
        by_cases hin : x ∈ (s₁.epis k).epiReqWaitq.take n
        · exact hrel.inited x hin
        · rw [hrel.other x hin]
          rw [hq₁] at hin
          obtain rfl := hx.resolve_right hin
          exact hinited₁

/-- The assertions of the loop hold if the wait counter is right. -/
theorem releaseLoop_isSome (env : ι → DeadlineEnv) (n : ℕ) : ∀ {s : CrtContext ι},
    HeapOk s → (s.epis k).epiReqWaitq.Nodup →
    (∀ w ∈ (s.epis k).epiReqWaitq, (s.rpcs w).crpInBinheap = false) →
    (s.epis k).epiReqWaitNum = (s.epis k).epiReqWaitq.length →
    (s.epis k).epiReplyNum ≤ (s.epis k).epiReqNum → (s.releaseLoop env k n).isSome := by
  induction n with
  | zero => exact fun _ _ _ _ _ => rfl
  | succ n ih =>
    intro s hok hnd hout hwait hnum
    cases hq : (s.epis k).epiReqWaitq with
    | nil => rw [releaseLoop, hq]; rfl
    | cons w ws =>
      rw [hq] at hnd hout hwait
      obtain ⟨s₁, hok₁, hepis₁, hother₁, _, _, heq⟩ :=
        releaseLoop_succ hok hq (hout w (by simp)) env
      rw [length_cons] at hwait
      rw [heq, if_neg (by omega), isSome_map]
      have hepi₁ : s₁.epis k = (s.epis k).release 1 := by rw [hepis₁, update_self]
      have hq₁ : (s₁.epis k).epiReqWaitq = ws := by simp [hepi₁, release, hq]
      refine ih hok₁ (by rw [hq₁]; exact (nodup_cons.mp hnd).2) (fun x hx => ?_) ?_ ?_
      · rw [hq₁] at hx
        have hne : x ≠ w := fun heq => (nodup_cons.mp hnd).1 (heq ▸ hx)
        rw [hother₁ x hne]
        exact hout x (mem_cons_of_mem _ hx)
      · rw [hq₁, hepi₁]
        simp [release, hq, hwait]
      · rw [hepi₁]
        simp only [release]
        omega

/-! ### Tracking and untracking -/

/-- What track does, beyond its two early exits. -/
structure Tracked (cfg : CtxCfg ι) (r : ι) (res : TrackRc) (s s' : CrtContext ι) : Prop where
  heap : HeapOk s'
  other : ∀ x, x ≠ r → s'.rpcs x = s.rpcs x
  flags : (s'.rpcs r).crpCtxTracked = true ∧ (s'.rpcs r).crpEpi = true
  placed : match res with
    | .error _ => s'.epis = s.epis
    | .inflighq => s'.epis = Function.update s.epis (cfg.epRank r) ((s.epis (cfg.epRank r)).launch r) ∧
      (cfg.cgCreditEpCtx = 0 ∨ (s.epis (cfg.epRank r)).epiReqNum -
        (s.epis (cfg.epRank r)).epiReplyNum < cfg.cgCreditEpCtx)
    | .waitq => s'.epis = Function.update s.epis (cfg.epRank r)
        ((s.epis (cfg.epRank r)).enqueue (cfg.coiQueueFront r) r) ∧
      (s'.rpcs r).crpInBinheap = false ∧ (s'.rpcs r).crpState = .queued ∧
      (cfg.cgCreditEpCtx : ℤ) ≤ (s.epis (cfg.epRank r)).epiReqNum -
        (s.epis (cfg.epRank r)).epiReplyNum

variable {cfg : CtxCfg ι}

/-- **`crt_context_req_track`** of an RPC that is not in the heap. -/
theorem crtContextReqTrack_spec (hok : HeapOk s) (hout : (s.rpcs r).crpInBinheap = false)
    (hopc : cfg.opcUriLookup r = false)
    (hnum : (s.epis (cfg.epRank r)).epiReplyNum ≤ (s.epis (cfg.epRank r)).epiReqNum)
    (env : DeadlineEnv) :
    ∃ res s', s.crtContextReqTrack cfg env 0 r = some (res, s') ∧ Tracked cfg r res s s' := by
  -- `t` is the context once the deadline and the endpoint are set
  generalize ht : (s.crtSetTimeout r env.ts).setRpc r
    { (s.crtSetTimeout r env.ts).rpcs r with crpEpi := true } = t
  have hrpc : t.rpcs r = { s.rpcs r with crpTimeoutTs := env.ts, crpEpi := true } := by
    simp [← ht, crtSetTimeout, setRpc]
  have hother : ∀ x, x ≠ r → t.rpcs x = s.rpcs x := fun x hx => by
    simp [← ht, crtSetTimeout, setRpc, update_of_ne hx]
  have hepis : t.epis = s.epis := ht ▸ rfl
  have hokt : HeapOk t := by
    rw [← ht]
    exact heapOk_setRpc (hok.crtSetTimeout hout env.ts) rfl rfl
  rw [crtContextReqTrack, hopc, if_neg Bool.false_ne_true, if_neg (not_not.mpr rfl)]
  dsimp only
  rw [if_neg (not_lt.mpr hnum), ht]
  split_ifs with hfull
  · refine ⟨.waitq, _, rfl, heapOk_setRpc (heapOk_setEpi hokt _ _) rfl rfl, fun x hx => ?_, ?_, ?_, ?_, ?_,
      hfull.2⟩
    · simp [setRpc, setEpi, update_of_ne hx, hother x hx]
    · simp [setRpc, setEpi, hrpc]
    · simp [setRpc, setEpi, hepis]
    · simp [setRpc, setEpi, hrpc, hout]
    · simp [setRpc]
  · obtain ⟨rc, u, heq, hoku, hre, _⟩ := crtReqTimeoutTrack_spec hokt env.heap r
    have hepi : (u.rpcs r).crpEpi = true := by rw [(hre.fields r).2.2, hrpc]
    rw [heq, map_some]
    split_ifs with hrc
    · refine ⟨.inflighq, _, rfl, heapOk_setRpc (heapOk_setEpi hoku _ _) rfl rfl, fun x hx => ?_, ?_, ?_,
        by omega⟩
      · simp [setRpc, setEpi, update_of_ne hx, hre.other x hx, hother x hx]
      · simp [setRpc, setEpi, hepi]
      · simp [setRpc, setEpi, hre.epis, hepis]
    · refine ⟨.error rc, _, rfl, heapOk_setRpc hoku rfl rfl, fun x hx => ?_, ?_, ?_⟩
      · simp [setRpc, update_of_ne hx, hre.other x hx, hother x hx]
      · simp [setRpc, hepi]
      · simp [setRpc, hre.epis, hepis]

/-- The credits that untrack has for the wait queue. -/
def credits (cfg : CtxCfg ι) (epi : CrtEpInflight ι) : ℕ :=
  if cfg.cgCreditEpCtx = 0 then 0 else (cfg.cgCreditEpCtx - (epi.epiReqNum - epi.epiReplyNum)).toNat

/-- The endpoint once `r` is off its queues. -/
def without (cfg : CtxCfg ι) (s : CrtContext ι) (r : ι) : CrtEpInflight ι :=
  (s.epis (cfg.epRank r)).remove r (s.rpcs r).crpState

/-- What untrack does to an RPC that is tracked; `l` is to be submitted. -/
structure Untracked (cfg : CtxCfg ι) (r : ι) (s s' : CrtContext ι) (l : List ι) : Prop where
  heap : HeapOk s'
  submit : l = (s.without cfg r).epiReqWaitq.take (credits cfg (s.without cfg r))
  epis : s'.epis = Function.update s.epis (cfg.epRank r)
    ((s.without cfg r).release (credits cfg (s.without cfg r)))
  self : (s'.rpcs r).crpCtxTracked = false ∧ (r ∉ l → (s'.rpcs r).crpInBinheap = false ∧
    (s'.rpcs r).crpState = (s.rpcs r).crpState)
  other : ∀ x, x ≠ r → x ∉ l → s'.rpcs x = s.rpcs x
  inited : ∀ x ∈ l, (s'.rpcs x).crpState = .inited
  flags : ∀ x, (x ≠ r → (s'.rpcs x).crpCtxTracked = (s.rpcs x).crpCtxTracked) ∧
    (s'.rpcs x).crpEpi = (s.rpcs x).crpEpi

/-- Untracking comes down to the loop, from a context without the RPC. -/
theorem untrackLocked_eq (cfg : CtxCfg ι) (hok : HeapOk s) (env : ι → DeadlineEnv) (r : ι) :
    ∃ t, HeapOk t ∧ t.epis = update s.epis (cfg.epRank r) (s.without cfg r) ∧
      t.rpcs r = { s.rpcs r with
        crpTimeoutTs := (t.rpcs r).crpTimeoutTs, crpInBinheap := false, crpCtxTracked := false } ∧
      (∀ x, x ≠ r → t.rpcs x = s.rpcs x) ∧
      s.untrackLocked cfg env r =
        if (s.without cfg r).epiReqNum < (s.without cfg r).epiReplyNum ∨ cfg.cgCreditEpCtx ≠ 0 ∧
          (cfg.cgCreditEpCtx : ℤ) < (s.without cfg r).epiReqNum - (s.without cfg r).epiReplyNum
        then none
        else t.releaseLoop env (cfg.epRank r) (credits cfg (s.without cfg r)) := by
  obtain ⟨u, heq, hoku, hre, hflag⟩ := untrackUnlessTimedout_spec
    (heapOk_setEpi hok (cfg.epRank r) (s.without cfg r)) r
  obtain ⟨ts, b, hself⟩ := hre.self
  obtain rfl : b = false := by simpa [hself] using hflag
  refine ⟨u.setRpc r { u.rpcs r with crpCtxTracked := false }, heapOk_setRpc hoku rfl rfl, hre.epis, ?_,
    fun x hx => ?_, ?_⟩
  · simp [setRpc, hself, setEpi]
  · simp [setRpc, update_of_ne hx, hre.other x hx, setEpi]
  rw [untrackLocked]
  dsimp only
  change (if (s.without cfg r).epiReqNum < (s.without cfg r).epiReplyNum then none else _) = _
  by_cases hnum : (s.without cfg r).epiReqNum < (s.without cfg r).epiReplyNum
  · rw [if_pos hnum, if_pos (.inl hnum)]
  rw [if_neg hnum, show (s.epis (cfg.epRank r)).remove r (s.rpcs r).crpState = s.without cfg r
    from rfl, heq, bind_some]
  have hepi : (u.setRpc r { u.rpcs r with crpCtxTracked := false }).epis (cfg.epRank r) =
      s.without cfg r := by
    rw [show (u.setRpc r { u.rpcs r with crpCtxTracked := false }).epis = u.epis from rfl, hre.epis]
    exact update_self _ _ _
  rw [hepi]
  by_cases hcredit : cfg.cgCreditEpCtx = 0
  · rw [if_pos hcredit, if_neg (by omega), credits, if_pos hcredit]
    rfl
  · rw [if_neg hcredit, credits, if_neg hcredit]
    by_cases hover : (cfg.cgCreditEpCtx : ℤ) <
        (s.without cfg r).epiReqNum - (s.without cfg r).epiReplyNum
    · rw [if_pos (.inr hover), if_pos (.inr ⟨hcredit, hover⟩)]
    · rw [if_neg (by omega), if_neg (by omega)]

section

variable (cfg : CtxCfg ι) (s : CrtContext ι) (r : ι)

theorem without_waitq :
    (s.without cfg r).epiReqWaitq = (s.epis (cfg.epRank r)).epiReqWaitq.erase r := by
  rw [without, remove]
  split <;> rfl

theorem without_reqQ : (s.without cfg r).epiReqQ = (s.epis (cfg.epRank r)).epiReqQ.erase r := by
  rw [without, remove]
  split <;> rfl

theorem without_num : (s.without cfg r).epiReqNum - (s.without cfg r).epiReplyNum =
      (s.epis (cfg.epRank r)).epiReqNum - (s.epis (cfg.epRank r)).epiReplyNum - 1 := by
  rw [without, remove]
  split <;> dsimp only <;> omega

theorem without_waitNum :
    (s.without cfg r).epiReqWaitNum = (s.epis (cfg.epRank r)).epiReqWaitNum := by
  rw [without, remove]
  split <;> rfl

end

section

variable (hok : HeapOk s) (hnd : (s.epis (cfg.epRank r)).epiReqWaitq.Nodup)
  (hwait : ∀ w ∈ (s.epis (cfg.epRank r)).epiReqWaitq, (s.rpcs w).crpInBinheap = false)

include hok hnd hwait

/-- **`crt_context_req_untrack`** of an RPC that is tracked, where it does not
stop at an assertion. -/
theorem untrackLocked_spec {env : ι → DeadlineEnv} {l : List ι}
    (h : s.untrackLocked cfg env r = some (s', l)) : Untracked cfg r s s' l := by
  obtain ⟨t, hokt, hepis, hself, hother, heq⟩ := untrackLocked_eq cfg hok env r
  rw [heq] at h
  split at h
  · cases h
  have hepi : t.epis (cfg.epRank r) = s.without cfg r := by rw [hepis, update_self]
  have hsub : (s.without cfg r).epiReqWaitq.Sublist (s.epis (cfg.epRank r)).epiReqWaitq := by
    rw [without_waitq]
    exact erase_sublist
  have hflag : (t.rpcs r).crpInBinheap = false := by rw [hself]
  obtain ⟨hl, hrel⟩ := releaseLoop_spec env _ hokt (by rw [hepi]; exact hsub.nodup hnd)
    (fun w hw => by
      rw [hepi] at hw
      by_cases hwr : w = r
      · rw [hwr, hflag]
      · rw [hother w hwr, hwait w (hsub.subset hw)]) h
  rw [hepi] at hl
  have htake : (t.epis (cfg.epRank r)).epiReqWaitq.take (credits cfg (s.without cfg r)) = l := by
    rw [hepi, hl]
  refine ⟨hrel.heap, hl, ?_, ⟨?_, fun hr => ?_⟩, fun x hx hxl => ?_, fun x hx => ?_,
    fun x => ⟨fun hx => ?_, ?_⟩⟩
  · rw [hrel.epis, hepis, update_idem, update_self]
  · rw [(hrel.flags r).1, hself]
  · rw [hrel.other r (by rw [htake]; exact hr), hflag, hself]
    exact ⟨rfl, rfl⟩
  · rw [hrel.other x (by rw [htake]; exact hxl), hother x hx]
  · exact hrel.inited x (by rw [htake]; exact hx)
  · rw [(hrel.flags x).1, hother x hx]
  · rw [(hrel.flags x).2]
    by_cases hx : x = r
    · rw [hx, hself]
    · rw [hother x hx]

theorem untrackLocked_isSome (env : ι → DeadlineEnv)
    (hnum : (s.epis (cfg.epRank r)).epiReplyNum < (s.epis (cfg.epRank r)).epiReqNum)
    (hcredit : cfg.cgCreditEpCtx ≠ 0 → (s.epis (cfg.epRank r)).epiReqNum -
      (s.epis (cfg.epRank r)).epiReplyNum ≤ cfg.cgCreditEpCtx)
    (hwaitNum : (s.epis (cfg.epRank r)).epiReqWaitNum = (s.epis (cfg.epRank r)).epiReqWaitq.length)
    (hr : r ∉ (s.epis (cfg.epRank r)).epiReqWaitq) : (s.untrackLocked cfg env r).isSome := by
  obtain ⟨t, hokt, hepis, hself, hother, heq⟩ := untrackLocked_eq cfg hok env r
  have hsub := without_num cfg s r
  have hepi : t.epis (cfg.epRank r) = s.without cfg r := by rw [hepis, update_self]
  have hq : (s.without cfg r).epiReqWaitq = (s.epis (cfg.epRank r)).epiReqWaitq := by
    rw [without_waitq, erase_of_not_mem hr]
  rw [heq, if_neg (by omega)]
  refine releaseLoop_isSome env _ hokt ?_ (fun w hw => ?_) ?_ ?_
  · rw [hepi, hq]
    exact hnd
  · rw [hepi, hq] at hw
    rw [hother w (fun heq => hr (heq ▸ hw)), hwait w hw]
  · rw [hepi, hq, without_waitNum, hwaitNum]
  · rw [hepi]
    omega

end

end CrtContext

end Cart
