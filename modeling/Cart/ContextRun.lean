/-
Runs of a context.

Any number of threads track and untrack RPCs, submit those that got a credit, look for expired
deadlines and renew them.  A step is one such call, or for untracking the part under
`epi_mutex`; the state of an RPC is also written by code outside the context.

Main result: `ctxInv_invariant`.
-/
import Cart.Context
import Cart.Lts

open Function List Option

namespace Cart

open CrtContext

variable {ι : Type}

/-- A context and what goes on around it. -/
structure CtxState (ι : Type) where
  ctx : CrtContext ι
  -- released from a wait queue and not yet submitted
  submit : List ι
  -- taken out by a timeout check, with no new deadline since
  expired : List ι
  -- given to track
  tracked : List ι
  -- accepted by track: in flight, or waiting
  accepted : List ι
  -- in flight at some time
  placed : List ι
  -- given to untrack
  released : List ι
  -- the order in which RPCs came to wait, and that in which they left
  entered : List ι
  left : List ι

/-- The calls. -/
inductive CtxEvent (ι : Type) where
  | track (r : ι) (env : DeadlineEnv) (epiRc : ℤ)
  | untrack (r : ι) (env : ι → DeadlineEnv)
  -- the loop over the submit list, with the result of `crt_req_send_internal`
  | resubmit (r : ι) (rc : ℤ) (env : ι → DeadlineEnv)
  | setState (r : ι) (state : RpcState)
  | timeoutCheck (now : ℕ)
  | timeoutReset (r : ι) (env : DeadlineEnv) (present : Bool)
  | uriLookupRetry (r : ι) (env : DeadlineEnv)
  | forceTimeout (r : ι) (env : HeapEnv)

/-- The calls that only change the timers. -/
def CtxEvent.Timer {ι : Type} : CtxEvent ι → Prop
  | .timeoutCheck _ | .timeoutReset .. | .uriLookupRetry .. | .forceTimeout .. => True
  | _ => False

namespace CtxState

variable [DecidableEq ι]

/-- A new context. -/
def create (null : ι) : CtxState ι := ⟨.create null, [], [], [], [], [], [], [], []⟩

variable (cfg : CtxCfg ι) (s : CtxState ι) (r : ι)

/-- Notes the outcome of a call to track. -/
def record : TrackRc → CtxState ι
  | .inflighq => { s with accepted := r :: s.accepted, placed := r :: s.placed }
  | .waitq => { s with accepted := r :: s.accepted, entered := s.entered ++ [r] }
  | .error _ => s

def track (env : DeadlineEnv) (epiRc : ℤ) (s : CtxState ι) (r : ι) :
    Option (TrackRc × CtxState ι) :=
  (s.ctx.crtContextReqTrack cfg env epiRc r).map fun (res, ctx) =>
    let s := { s with ctx := ctx, tracked := r :: s.tracked }
    -- a request that bypasses tracking is not one of the endpoint's
    (res, if cfg.opcUriLookup r then s else s.record r res)

def untrack (env : ι → DeadlineEnv) (s : CtxState ι) (r : ι) : Option (CtxState ι) :=
  (s.ctx.crtContextReqUntrack cfg env r).map fun (ctx, l) =>
    { s with
      ctx := ctx
      submit := s.submit ++ l
      placed := s.placed ++ l
      left := s.left ++ l
      released := r :: s.released }

/-- The RPC has a new deadline, or had the chance of one. -/
def renewed (ctx : CrtContext ι) : CtxState ι :=
  { s with ctx := ctx, expired := s.expired.filter fun x => x ≠ r }

/-- An RPC is tracked once; timers are reset, lookups retried and timeouts forced only in
flight. -/
def Enabled : CtxEvent ι → Prop
  | .track r _ _ => r ∉ s.tracked
  | .untrack _ _ => True
  | .resubmit r _ _ => r ∈ s.submit
  | .setState _ _ => True
  | .timeoutCheck _ => True
  | .timeoutReset r _ _ => r ∈ s.expired
  | .uriLookupRetry r _ => r ∈ (s.ctx.epis (cfg.epRank r)).epiReqQ
  | .forceTimeout r _ => r ∈ (s.ctx.epis (cfg.epRank r)).epiReqQ

instance (e : CtxEvent ι) : Decidable (s.Enabled cfg e) := by
  cases e <;> dsimp only [Enabled] <;> infer_instance

/-- What a call does. -/
def step : CtxEvent ι → Option (CtxState ι)
  | .track r env epiRc => (s.track cfg env epiRc r).map Prod.snd
  | .untrack r env => s.untrack cfg env r
  | .resubmit r rc env =>
    let s := { s with submit := s.submit.erase r }
    if rc = 0 then some s
    else { s with ctx := s.ctx.setState r .inited }.untrack cfg env r
  | .setState r state => some { s with ctx := s.ctx.setState r state }
  | .timeoutCheck now => (s.ctx.crtContextTimeoutCheck now).map fun (ctx, l) =>
    { s with ctx := ctx, expired := s.expired ++ l }
  | .timeoutReset r env present =>
    (s.ctx.crtReqTimeoutReset cfg env present r).map fun (_, ctx) => s.renewed r ctx
  | .uriLookupRetry r env => (s.ctx.crtReqUriLookupRetry env r).map fun (_, ctx) => s.renewed r ctx
  | .forceTimeout r env => (s.ctx.crtReqForceTimeout cfg env r).map fun ctx => s.renewed r ctx

end CtxState

/-- The runs of a context. -/
@[reducible]
def ctxLts {ι : Type} [DecidableEq ι] (cfg : CtxCfg ι) (null : ι) : Lts (CtxState ι) (CtxEvent ι) where
  init s := s = .create null
  enabled s e := s.Enabled cfg e
  step s e := s.step cfg e

/-! ### Queues -/

namespace CrtContext

variable [DecidableEq ι] {cfg : CtxCfg ι} {s s' : CrtContext ι} {r : ι} {l : List ι} {res : TrackRc}

/-- Both queues of an endpoint. -/
def queued (s : CrtContext ι) (k : ℕ) : List ι := (s.epis k).epiReqQ ++ (s.epis k).epiReqWaitq

namespace Untracked

section

variable (h : Untracked cfg r s s' l)

include h

/-- Those that are submitted come from the front of the wait queue. -/
theorem waitq_eq :
    (s.epis (cfg.epRank r)).epiReqWaitq.erase r = l ++ (s'.epis (cfg.epRank r)).epiReqWaitq := by
  rw [h.epis, update_self, h.submit, ← without_waitq]
  exact (take_append_drop _ _).symm

theorem reqQ_eq :
    (s'.epis (cfg.epRank r)).epiReqQ = (s.epis (cfg.epRank r)).epiReqQ.erase r ++ l := by
  rw [h.epis, update_self, h.submit, ← without_reqQ]
  rfl

theorem epis_of_ne {k : ℕ} (hk : k ≠ cfg.epRank r) : s'.epis k = s.epis k := by
  rw [h.epis, update_of_ne hk]

theorem submit_subset {w : ι} (hw : w ∈ l) : w ∈ (s.epis (cfg.epRank r)).epiReqWaitq :=
  mem_of_mem_erase (h.waitq_eq ▸ mem_append_left _ hw)

theorem waitq_sublist (k : ℕ) : (s'.epis k).epiReqWaitq.Sublist (s.epis k).epiReqWaitq := by
  by_cases hk : k = cfg.epRank r
  · subst hk
    exact (sublist_append_right l _).trans (h.waitq_eq ▸ erase_sublist)
  · rw [h.epis_of_ne hk]

theorem queued_sublist (k : ℕ) : (s'.queued k).Sublist (s.queued k) := by
  by_cases hk : k = cfg.epRank r
  · subst hk
    rw [queued, h.reqQ_eq, append_assoc, ← h.waitq_eq]
    exact erase_sublist.append erase_sublist
  · rw [queued, h.epis_of_ne hk]
    exact Sublist.refl _

end

end Untracked

theorem crtContextReqUntrack_cases {env : ι → DeadlineEnv} (hok : HeapOk s)
    (hnd : (s.epis (cfg.epRank r)).epiReqWaitq.Nodup)
    (hwait : ∀ w ∈ (s.epis (cfg.epRank r)).epiReqWaitq, (s.rpcs w).crpInBinheap = false)
    (h : s.crtContextReqUntrack cfg env r = some (s', l)) :
    s' = s ∧ l = [] ∨ Untracked cfg r s s' l := by
  rw [crtContextReqUntrack] at h
  split at h
  · cases h
    exact .inl ⟨rfl, rfl⟩
  split at h
  · cases h
  split at h
  · cases h
    exact .inl ⟨rfl, rfl⟩
  · exact .inr (untrackLocked_spec hok hnd hwait h)

theorem crtContextReqTrack_cases {env : DeadlineEnv} {epiRc : ℤ} (hok : HeapOk s)
    (hout : (s.rpcs r).crpInBinheap = false)
    (h : s.crtContextReqTrack cfg env epiRc r = some (res, s')) :
    s' = s ∧ (cfg.opcUriLookup r = true ∨ ∃ rc, res = .error rc) ∨
      cfg.opcUriLookup r = false ∧ Tracked cfg r res s s' := by
  by_cases hopc : cfg.opcUriLookup r = true
  · rw [crtContextReqTrack, if_pos hopc] at h
    cases h
    exact .inl ⟨rfl, .inl hopc⟩
  by_cases hepi : epiRc = 0
  · subst hepi
    have hopc' := Bool.eq_false_iff.mpr hopc
    by_cases hnum : (s.epis (cfg.epRank r)).epiReqNum < (s.epis (cfg.epRank r)).epiReplyNum
    · rw [crtContextReqTrack, if_neg hopc, if_neg (not_not.mpr rfl)] at h
      rw [if_pos hnum] at h
      cases h
    · obtain ⟨res', s'', heq, htr⟩ := crtContextReqTrack_spec hok hout hopc' (not_lt.mp hnum) env
      obtain ⟨rfl, rfl⟩ := Prod.mk.inj (some.inj (heq.symm.trans h))
      exact .inr ⟨hopc', htr⟩
  · rw [crtContextReqTrack, if_neg hopc, if_pos hepi] at h
    cases h
    exact .inl ⟨rfl, .inr ⟨epiRc, rfl⟩⟩

omit [DecidableEq ι] in
/-- Track puts the RPC on one queue of its endpoint, or does not change the
queues. -/
theorem Tracked.queued (h : Tracked cfg r res s s') (k : ℕ) :
    s'.queued k = s.queued k ∨ k = cfg.epRank r ∧ (s'.queued k).Perm (r :: s.queued k) := by
  have hplaced := h.placed
  by_cases hk : k = cfg.epRank r
  · subst hk
    cases res with
    | error rc => exact .inl (by simp only [queued, hplaced])
    | inflighq =>
      refine .inr ⟨rfl, ?_⟩
      simp only [queued, hplaced.1, update_self, CrtEpInflight.launch,
        append_assoc, singleton_append]
      exact perm_middle
    | waitq =>
      refine .inr ⟨rfl, ?_⟩
      simp only [queued, hplaced.1, update_self, CrtEpInflight.enqueue]
      split
      · exact perm_middle
      · rw [← append_assoc]
        exact perm_append_singleton _ _
  · left
    cases res with
    | error rc => simp only [queued, hplaced]
    | inflighq | waitq => simp only [queued, hplaced.1, update_of_ne hk]

omit [DecidableEq ι] in
theorem Tracked.mem_waitq (h : Tracked cfg r res s s') {k : ℕ} {w : ι}
    (hw : w ∈ (s'.epis k).epiReqWaitq) :
    w ∈ (s.epis k).epiReqWaitq ∨ w = r ∧ (s'.rpcs r).crpInBinheap = false := by
  have hplaced := h.placed
  cases res with
  | error rc => exact .inl (by rwa [hplaced] at hw)
  | inflighq =>
    left
    rw [hplaced.1, update_apply] at hw
    split_ifs at hw with hk
    · rw [hk]
      exact hw
    · exact hw
  | waitq =>
    rw [hplaced.1, update_apply] at hw
    split_ifs at hw with hk
    · rw [CrtEpInflight.enqueue] at hw
      rw [hk]
      split at hw
      · rcases mem_cons.mp hw with rfl | hw
        · exact .inr ⟨rfl, hplaced.2.1⟩
        · exact .inl hw
      · rcases mem_append.mp hw with hw | hw
        · exact .inl hw
        · exact .inr ⟨mem_singleton.mp hw, hplaced.2.1⟩
    · exact .inl hw

end CrtContext

/-! ### The invariant -/

namespace CtxState

variable {cfg : CtxCfg ι} {null r : ι} {s s' : CtxState ι} {ctx : CrtContext ι}

/-- The queues and the heap are consistent. -/
structure Inv (cfg : CtxCfg ι) (s : CtxState ι) : Prop where
  heap : s.ctx.HeapOk
  nodup : ∀ k, (s.ctx.queued k).Nodup
  queued : ∀ k r, r ∈ s.ctx.queued k → cfg.epRank r = k ∧ r ∈ s.tracked
  untracked : ∀ r, r ∉ s.tracked → (s.ctx.rpcs r).crpInBinheap = false
  waiting : ∀ k, ∀ w ∈ (s.ctx.epis k).epiReqWaitq,
    (s.ctx.rpcs w).crpInBinheap = false ∧ w ∉ s.expired
  expired : ∀ r ∈ s.expired, r ∈ s.tracked ∧ (s.ctx.rpcs r).crpInBinheap = false

theorem inv_create (cfg : CtxCfg ι) (null : ι) : (create null).Inv cfg where
  heap := ⟨⟨⟨fun i hi => absurd hi (Nat.not_lt_zero i), le_rfl, rfl, Nat.zero_le _⟩,
      fun i _ hn => absurd hn (Nat.not_lt_zero i)⟩,
    fun _ => ⟨fun h => absurd h Bool.false_ne_true, fun ⟨i, hi, _⟩ => absurd hi (Nat.not_lt_zero i)⟩,
    rfl⟩
  nodup _ := nodup_nil
  queued _ _ h := absurd h not_mem_nil
  untracked _ _ := rfl
  waiting _ _ h := absurd h not_mem_nil
  expired _ h := absurd h not_mem_nil

section

variable (h : s.Inv cfg)

include h

theorem Inv.waitq_nodup (k : ℕ) : (s.ctx.epis k).epiReqWaitq.Nodup :=
  (h.nodup k).of_append_right

theorem Inv.mem_waitq {k : ℕ} {w : ι} (hw : w ∈ (s.ctx.epis k).epiReqWaitq) :
    cfg.epRank w = k ∧ w ∈ s.tracked :=
  h.queued k w (mem_append_right _ hw)

theorem Inv.not_mem_waitq (hr : r ∈ (s.ctx.epis (cfg.epRank r)).epiReqQ) (k : ℕ) :
    r ∉ (s.ctx.epis k).epiReqWaitq := by
  intro hw
  obtain rfl := (h.mem_waitq hw).1
  exact (nodup_append.mp (h.nodup _)).2.2 r hr r hw rfl

/-- The invariant is about the context, and about who was tracked and expired. -/
theorem Inv.congr (hctx : s'.ctx = s.ctx) (htracked : s.tracked ⊆ s'.tracked)
    (hexpired : s'.expired = s.expired) : s'.Inv cfg where
  heap := hctx ▸ h.heap
  nodup := hctx ▸ h.nodup
  queued k r hr := ⟨(h.queued k r (hctx ▸ hr)).1, htracked (h.queued k r (hctx ▸ hr)).2⟩
  untracked r hr := hctx ▸ h.untracked r fun hin => hr (htracked hin)
  waiting k w hw := by
    rw [hctx] at hw ⊢
    rw [hexpired]
    exact h.waiting k w hw
  expired r hr := by
    rw [hexpired] at hr
    exact ⟨htracked (h.expired r hr).1, hctx ▸ (h.expired r hr).2⟩

theorem Inv.record (r : ι) (res : TrackRc) : (s.record r res).Inv cfg := by
  cases res <;> exact h.congr rfl (List.Subset.refl _) rfl

end

variable [DecidableEq ι]

section

variable (h : s.Inv cfg)

include h

theorem Inv.setState (r : ι) (state : RpcState) :
    { s with ctx := s.ctx.setState r state }.Inv cfg := by
  have hflag : ∀ x, ((s.ctx.setState r state).rpcs x).crpInBinheap =
      (s.ctx.rpcs x).crpInBinheap := by
    intro x
    by_cases hx : x = r
    · simp [CrtContext.setState, CrtContext.setRpc, hx]
    · simp [CrtContext.setState, CrtContext.setRpc, update_of_ne hx]
  refine ⟨heapOk_setRpc h.heap rfl rfl, h.nodup, h.queued, fun x hx => ?_,
    fun k w hw => ?_, fun x hx => ?_⟩
  · exact (hflag x).trans (h.untracked x hx)
  · exact ⟨(hflag w).trans (h.waiting k w hw).1, (h.waiting k w hw).2⟩
  · exact ⟨(h.expired x hx).1, (hflag x).trans (h.expired x hx).2⟩

theorem Inv.renewed (hok : ctx.HeapOk) (hre : CrtContext.Retimed r s.ctx ctx)
    (htracked : r ∈ s.tracked) (hwait : ∀ k, r ∉ (s.ctx.epis k).epiReqWaitq) : (s.renewed r ctx).Inv cfg := by
  have hother : ∀ x, x ≠ r → (ctx.rpcs x).crpInBinheap = (s.ctx.rpcs x).crpInBinheap := fun x hx => by
    rw [hre.other x hx]
  have hqueued : ctx.queued = s.ctx.queued := by
    funext k
    rw [CrtContext.queued, hre.epis, CrtContext.queued]
  refine ⟨hok, fun k => ?_, fun k x hx => ?_, fun x hx => ?_, fun k w hw => ?_, fun x hx => ?_⟩
  · rw [show (s.renewed r ctx).ctx.queued = s.ctx.queued from hqueued]
    exact h.nodup k
  · rw [show (s.renewed r ctx).ctx.queued = s.ctx.queued from hqueued] at hx
    exact h.queued k x hx
  · exact (hother x (fun heq => hx (heq ▸ htracked))).trans (h.untracked x hx)
  · rw [show (s.renewed r ctx).ctx.epis = s.ctx.epis from hre.epis] at hw
    have hwr : w ≠ r := fun heq => hwait k (heq ▸ hw)
    refine ⟨(hother w hwr).trans (h.waiting k w hw).1, fun hex => ?_⟩
    exact (h.waiting k w hw).2 (mem_filter.mp hex).1
  · obtain ⟨hx, hxr⟩ := mem_filter.mp hx
    exact ⟨(h.expired x hx).1, (hother x (of_decide_eq_true hxr)).trans (h.expired x hx).2⟩

theorem Inv.track (hnew : r ∉ s.tracked) {env : DeadlineEnv} {epiRc : ℤ} {res : TrackRc}
    (hstep : s.track cfg env epiRc r = some (res, s')) : s'.Inv cfg := by
  obtain ⟨⟨res', ctx⟩, htrack, heq⟩ := map_eq_some_iff.mp hstep
  cases heq
  suffices hctx : { s with ctx := ctx, tracked := r :: s.tracked }.Inv cfg by
    split
    · exact hctx
    · exact hctx.record r _
  rcases crtContextReqTrack_cases h.heap (h.untracked r hnew) htrack with
    ⟨rfl, _⟩ | ⟨_, htr⟩
  · exact h.congr rfl (subset_cons_self r s.tracked) rfl
  · have hr : ∀ k, r ∉ s.ctx.queued k := fun k hin => hnew (h.queued k r hin).2
    refine ⟨htr.heap, fun k => ?_, fun k x hx => ?_, fun x hx => ?_, fun k w hw => ?_,
      fun x hx => ?_⟩
    · rcases htr.queued k with hq | ⟨_, hq⟩
      · exact hq ▸ h.nodup k
      · exact hq.nodup_iff.mpr (nodup_cons.mpr ⟨hr k, h.nodup k⟩)
    · rcases htr.queued k with hq | ⟨rfl, hq⟩
      · rw [hq] at hx
        exact ⟨(h.queued k x hx).1, mem_cons_of_mem r (h.queued k x hx).2⟩
      · rcases mem_cons.mp (hq.subset hx) with rfl | hx
        · exact ⟨rfl, mem_cons_self⟩
        · exact ⟨(h.queued _ x hx).1, mem_cons_of_mem r (h.queued _ x hx).2⟩
    · rw [mem_cons, not_or] at hx
      rw [htr.other x hx.1]
      exact h.untracked x hx.2
    · rcases htr.mem_waitq hw with hw | ⟨rfl, hflag⟩
      · have hwr : w ≠ r := fun heq => hnew (heq ▸ (h.mem_waitq hw).2)
        rw [htr.other w hwr]
        exact h.waiting k w hw
      · exact ⟨hflag, fun hex => hnew (h.expired w hex).1⟩
    · obtain ⟨hin, hflag⟩ := h.expired x hx
      rw [htr.other x (fun heq => hnew (heq ▸ hin))]
      exact ⟨mem_cons_of_mem r hin, hflag⟩

theorem Inv.untrack {env : ι → DeadlineEnv} (hstep : s.untrack cfg env r = some s') : s'.Inv cfg := by
  obtain ⟨⟨ctx, l⟩, huntrack, rfl⟩ := map_eq_some_iff.mp hstep
  have hwait : ∀ w ∈ (s.ctx.epis (cfg.epRank r)).epiReqWaitq, (s.ctx.rpcs w).crpInBinheap = false :=
    fun w hw => (h.waiting _ w hw).1
  rcases crtContextReqUntrack_cases h.heap (h.waitq_nodup _) hwait huntrack with
    ⟨rfl, _⟩ | hun
  · exact h.congr rfl (List.Subset.refl _) rfl
  -- only those that were released, and the RPC itself, can have changed
  have hout : ∀ x, x ∉ l → (s.ctx.rpcs x).crpInBinheap = false →
      (ctx.rpcs x).crpInBinheap = false := by
    intro x hxl hflag
    by_cases hx : x = r
    · subst hx
      exact (hun.self.2 hxl).1
    · rw [hun.other x hx hxl]
      exact hflag
  have hl : ∀ k, ∀ w ∈ (ctx.epis k).epiReqWaitq, w ∉ l := by
    intro k w hw hwl
    obtain rfl := (h.mem_waitq ((hun.waitq_sublist k).subset hw)).1
    have hrank := (h.mem_waitq (hun.submit_subset hwl)).1
    have hnd := ((h.waitq_nodup (cfg.epRank r)).erase r)
    rw [hun.waitq_eq, nodup_append] at hnd
    rw [hrank] at hw
    exact hnd.2.2 w hwl w hw rfl
  refine ⟨hun.heap, fun k => ?_, fun k x hx => ?_, fun x hx => ?_, fun k w hw => ?_, fun x hx => ?_⟩
  · exact (hun.queued_sublist k).nodup (h.nodup k)
  · exact h.queued k x ((hun.queued_sublist k).subset hx)
  · exact hout x (fun hxl => hx (h.mem_waitq (hun.submit_subset hxl)).2) (h.untracked x hx)
  · obtain ⟨hflag, hex⟩ := h.waiting k w ((hun.waitq_sublist k).subset hw)
    exact ⟨hout w (hl k w hw) hflag, hex⟩
  · obtain ⟨hin, hflag⟩ := h.expired x hx
    exact ⟨hin, hout x (fun hxl => (h.waiting _ x (hun.submit_subset hxl)).2 hx) hflag⟩

theorem Inv.timeoutCheck {now : ℕ} {l : List ι} (hex : CrtContext.Extracted now s.ctx ctx l) :
    { s with ctx := ctx, expired := s.expired ++ l }.Inv cfg := by
  have hqueued : ctx.queued = s.ctx.queued := by
    funext k
    rw [CrtContext.queued, hex.epis, CrtContext.queued]
  -- who is in the heap now was there before
  have hout : ∀ x, (s.ctx.rpcs x).crpInBinheap = false → (ctx.rpcs x).crpInBinheap = false := by
    intro x hflag
    rw [← Bool.not_eq_true, hex.heap.flag, hex.contains_iff, ← h.heap.flag, hflag]
    exact fun hc => Bool.false_ne_true hc.1
  have hin : ∀ x ∈ l, (s.ctx.rpcs x).crpInBinheap = true := fun x hx =>
    (h.heap.flag x).mpr ((hex.mem_iff x).mp hx).1
  refine ⟨hex.heap, hqueued ▸ h.nodup, hqueued ▸ h.queued, fun x hx => hout x (h.untracked x hx),
    fun k w hw => ?_, fun x hx => ?_⟩
  · rw [show ctx.epis = s.ctx.epis from hex.epis] at hw
    obtain ⟨hflag, hexp⟩ := h.waiting k w hw
    refine ⟨hout w hflag, fun hmem => ?_⟩
    rcases mem_append.mp hmem with hmem | hmem
    · exact hexp hmem
    · exact Bool.false_ne_true (hflag.symm.trans (hin w hmem))
  · rcases mem_append.mp hx with hx | hx
    · exact ⟨(h.expired x hx).1, hout x (h.expired x hx).2⟩
    · refine ⟨?_, ?_⟩
      · by_contra hnew
        exact Bool.false_ne_true ((h.untracked x hnew).symm.trans (hin x hx))
      · obtain ⟨_, hle⟩ := (hex.mem_iff x).mp hx
        rw [← Bool.not_eq_true, hex.heap.flag, hex.contains_iff]
        exact fun hc => absurd hc.2 (not_lt.mpr hle)

/-- A call that only changes the timers succeeds. -/
theorem Inv.timer {e : CtxEvent ι} (henabled : s.Enabled cfg e) (htimer : e.Timer) :
    ∃ ctx expired, s.step cfg e = some { s with ctx := ctx, expired := expired } ∧
      { s with ctx := ctx, expired := expired }.Inv cfg ∧ ctx.epis = s.ctx.epis ∧
      ∀ x, (ctx.rpcs x).crpCtxTracked = (s.ctx.rpcs x).crpCtxTracked ∧
        (ctx.rpcs x).crpEpi = (s.ctx.rpcs x).crpEpi := by
  cases e with
  | timeoutCheck now =>
    obtain ⟨ctx, l, heq, hex⟩ := timeoutLoop_spec now _ h.heap le_rfl
    exact ⟨ctx, _, congrArg (Option.map _) heq, h.timeoutCheck hex, hex.epis,
      fun x => (hex.fields x).2⟩
  | timeoutReset r env present =>
    obtain ⟨htracked, hflag⟩ := h.expired r henabled
    obtain ⟨_, ctx, heq, hok, hre⟩ :=
      crtReqTimeoutReset_spec h.heap hflag cfg env present
    exact ⟨ctx, _, congrArg (Option.map _) heq, h.renewed hok hre htracked fun k hw =>
      (h.waiting k r hw).2 henabled, hre.epis, fun x => (hre.fields x).2⟩
  | uriLookupRetry r env =>
    obtain ⟨_, ctx, heq, hok, hre⟩ := crtReqUriLookupRetry_spec h.heap env r
    exact ⟨ctx, _, congrArg (Option.map _) heq, h.renewed hok hre
      (h.queued _ r (mem_append_left _ henabled)).2 (h.not_mem_waitq henabled), hre.epis,
      fun x => (hre.fields x).2⟩
  | forceTimeout r env =>
    obtain ⟨ctx, heq, hok, hre⟩ := crtReqForceTimeout_spec h.heap cfg env r
    exact ⟨ctx, _, congrArg (Option.map _) heq, h.renewed hok hre
      (h.queued _ r (mem_append_left _ henabled)).2 (h.not_mem_waitq henabled), hre.epis,
      fun x => (hre.fields x).2⟩
  | _ => exact htimer.elim

end

/-- **Every call** keeps the queues and the heap consistent. -/
theorem ctxInv_invariant (cfg : CtxCfg ι) (null : ι) : (ctxLts cfg null).Invariant (Inv cfg) := by
  refine ⟨fun s hs => hs ▸ inv_create cfg null, fun s e s' h henabled hstep => ?_⟩
  have htimer := h.timer henabled
  cases e with
  | track r env epiRc =>
    obtain ⟨⟨res, t⟩, htrack, rfl⟩ := map_eq_some_iff.mp hstep
    exact h.track henabled htrack
  | untrack r env => exact h.untrack hstep
  | resubmit r rc env =>
    have herase : { s with submit := s.submit.erase r }.Inv cfg :=
      h.congr rfl (List.Subset.refl _) rfl
    simp only [CtxState.step] at hstep
    split at hstep
    · exact some.inj hstep ▸ herase
    · exact (herase.setState r .inited).untrack hstep
  | setState r state => exact some.inj hstep ▸ h.setState r state
  | timeoutCheck now | timeoutReset r env present | uriLookupRetry r env | forceTimeout r env =>
    obtain ⟨_, _, heq, hinv, _⟩ := htimer trivial
    exact some.inj (heq.symm.trans hstep) ▸ hinv

end CtxState

/-! ### Timeouts -/

end Cart
