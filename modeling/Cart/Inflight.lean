/-
Flow control of an endpoint.

With `C` credits at most `C` RPCs are in flight to an endpoint; the others wait, and each that
is untracked gives its credit to the first that waits.

Main results: `Flow`, `endpoint_flow_control`.
-/
import Cart.ContextRun

open Function List Option

namespace Cart

open CrtContext CrtEpInflight

variable {ι : Type} {r : ι}

/-! ### One endpoint -/

namespace CrtEpInflight

variable {C : ℕ} {epi : CrtEpInflight ι}

/-- The counters and the credits of an endpoint. -/
structure Flow (C : ℕ) (epi : CrtEpInflight ι) : Prop where
  num : epi.epiReqNum - epi.epiReplyNum = epi.epiReqQ.length
  bound : epi.epiReqQ.length ≤ C
  waitNum : epi.epiReqWaitNum = epi.epiReqWaitq.length
  full : epi.epiReqWaitq ≠ [] → epi.epiReqQ.length = C

theorem Flow.launch (h : epi.Flow C) (hroom : epi.epiReqNum - epi.epiReplyNum < C) (r : ι) :
    (epi.launch r).Flow C := by
  have hnum := h.num
  have hnil : epi.epiReqWaitq = [] := by
    by_contra hne
    have := h.full hne
    omega
  refine ⟨?_, ?_, h.waitNum, fun hne => absurd hnil hne⟩
  · simp only [CrtEpInflight.launch, length_append, length_singleton]
    omega
  · simp only [CrtEpInflight.launch, length_append, length_singleton]
    omega

theorem Flow.enqueue (h : epi.Flow C) (hfull : (C : ℤ) ≤ epi.epiReqNum - epi.epiReplyNum)
    (front : Bool) (r : ι) : (epi.enqueue front r).Flow C := by
  have hnum := h.num
  have hbound := h.bound
  have hwait := h.waitNum
  refine ⟨h.num, h.bound, ?_, fun _ => ?_⟩
  · rw [CrtEpInflight.enqueue]
    cases front <;> simp [hwait]
  · rw [show (epi.enqueue front r).epiReqQ = epi.epiReqQ from rfl]
    omega

theorem Flow.release (hnum : epi.epiReqNum - epi.epiReplyNum = epi.epiReqQ.length)
    (hbound : epi.epiReqQ.length ≤ C) (hwait : epi.epiReqWaitNum = epi.epiReqWaitq.length) :
    (epi.release (C - (epi.epiReqNum - epi.epiReplyNum)).toNat).Flow C := by
  -- either the wait queue is used up, or the credits are
  generalize hn : (C - (epi.epiReqNum - epi.epiReplyNum) : ℤ).toNat = n
  refine ⟨?_, ?_, ?_, fun hne => ?_⟩
  · simp only [CrtEpInflight.release, length_append, Nat.cast_add]
    omega
  · simp only [CrtEpInflight.release, length_append, length_take]
    omega
  · simp only [CrtEpInflight.release, length_take, length_drop]
    omega
  · have hlt : n < epi.epiReqWaitq.length := by
      by_contra hge
      exact hne (drop_eq_nil_of_le (not_lt.mp hge))
    simp only [CrtEpInflight.release, length_append, length_take]
    omega

end CrtEpInflight

/-! ### Who is where -/

namespace CtxState

variable {cfg : CtxCfg ι} {s s' : CtxState ι} {ctx : CrtContext ι}

/-- The RPCs of an endpoint that are not put to the front. -/
def ordinary (cfg : CtxCfg ι) (k : ℕ) (r : ι) : Bool :=
  decide (cfg.epRank r = k) && !cfg.coiQueueFront r

/-- The queues, counters and flags tell what became of every RPC. -/
structure FlowInv (cfg : CtxCfg ι) (s : CtxState ι) : Prop extends Inv cfg s where
  flow : ∀ k, (s.ctx.epis k).Flow cfg.cgCreditEpCtx
  accepted_subset : s.accepted ⊆ s.tracked
  placed_subset : s.placed ⊆ s.accepted
  released_subset : s.released ⊆ s.placed
  submit_subset : s.submit ⊆ s.placed
  mem_reqQ : ∀ r, r ∈ (s.ctx.epis (cfg.epRank r)).epiReqQ ↔ r ∈ s.placed ∧ r ∉ s.released
  mem_waitq : ∀ r, r ∈ (s.ctx.epis (cfg.epRank r)).epiReqWaitq ↔ r ∈ s.accepted ∧ r ∉ s.placed
  flags : ∀ r ∈ s.accepted, ((s.ctx.rpcs r).crpCtxTracked = true ↔ r ∉ s.released) ∧
    (s.ctx.rpcs r).crpEpi = true ∧ cfg.opcUriLookup r = false
  fifo : ∀ k, s.entered.filter (ordinary cfg k) =
    s.left.filter (ordinary cfg k) ++ (s.ctx.epis k).epiReqWaitq.filter (ordinary cfg k)

theorem flowInv_create (cfg : CtxCfg ι) (null : ι) : (create null).FlowInv cfg where
  toInv := inv_create cfg null
  flow _ := ⟨rfl, Nat.zero_le _, rfl, fun h => absurd rfl h⟩
  accepted_subset := List.Subset.refl _
  placed_subset := List.Subset.refl _
  released_subset := List.Subset.refl _
  submit_subset := List.Subset.refl _
  mem_reqQ _ := ⟨fun h => absurd h not_mem_nil, fun h => h.1⟩
  mem_waitq _ := ⟨fun h => absurd h not_mem_nil, fun h => h.1⟩
  flags _ h := absurd h not_mem_nil
  fifo _ := rfl

theorem FlowInv.mem_queued (h : s.FlowInv cfg) (r : ι) :
    r ∈ s.ctx.queued (cfg.epRank r) ↔ r ∈ s.accepted ∧ r ∉ s.released := by
  rw [queued, mem_append, h.mem_reqQ, h.mem_waitq]
  have hplaced := @h.placed_subset r
  have hreleased := @h.released_subset r
  tauto

/-- What leaves the queues and the flags alone keeps the invariant. -/
theorem FlowInv.frame (h : s.FlowInv cfg) (hinv : s'.Inv cfg) (hepis : s'.ctx.epis = s.ctx.epis)
    (hflags : ∀ x ∈ s.accepted, (s'.ctx.rpcs x).crpCtxTracked = (s.ctx.rpcs x).crpCtxTracked ∧
      (s'.ctx.rpcs x).crpEpi = (s.ctx.rpcs x).crpEpi)
    (htracked : s.tracked ⊆ s'.tracked) (hsubmit : s'.submit ⊆ s.submit)
    (hsame : s'.accepted = s.accepted ∧ s'.placed = s.placed ∧ s'.released = s.released ∧
      s'.entered = s.entered ∧ s'.left = s.left) : s'.FlowInv cfg := by
  obtain ⟨haccepted, hplaced, hreleased, hentered, hleft⟩ := hsame
  refine ⟨hinv, ?_, ?_, ?_, ?_, ?_, ?_, ?_, ?_, ?_⟩
  · rw [hepis]
    exact h.flow
  · rw [haccepted]
    exact fun x hx => htracked (h.accepted_subset hx)
  · rw [haccepted, hplaced]
    exact h.placed_subset
  · rw [hplaced, hreleased]
    exact h.released_subset
  · rw [hplaced]
    exact fun x hx => h.submit_subset (hsubmit hx)
  · rw [hepis, hplaced, hreleased]
    exact h.mem_reqQ
  · rw [hepis, haccepted, hplaced]
    exact h.mem_waitq
  · rw [haccepted, hreleased]
    intro x hx
    rw [(hflags x hx).1, (hflags x hx).2]
    exact h.flags x hx
  · rw [hepis, hentered, hleft]
    exact h.fifo

theorem mem_reqQ_launch (epis : ℕ → CrtEpInflight ι) (r x : ι) :
    x ∈ (update epis (cfg.epRank r) ((epis (cfg.epRank r)).launch r) (cfg.epRank x)).epiReqQ ↔
      x = r ∨ x ∈ (epis (cfg.epRank x)).epiReqQ := by
  rw [update_apply]
  split_ifs with hk
  · rw [hk, launch]
    simp [or_comm]
  · exact (or_iff_right fun hx => hk (by rw [hx])).symm

theorem mem_waitq_enqueue (epis : ℕ → CrtEpInflight ι) (r x : ι) (front : Bool) :
    x ∈ (update epis (cfg.epRank r) ((epis (cfg.epRank r)).enqueue front r)
      (cfg.epRank x)).epiReqWaitq ↔ x = r ∨ x ∈ (epis (cfg.epRank x)).epiReqWaitq := by
  rw [update_apply]
  split_ifs with hk
  · rw [hk, enqueue]
    cases front <;> simp [or_comm]
  · exact (or_iff_right fun hx => hk (by rw [hx])).symm

/-- An RPC that has not been tracked is nowhere. -/
theorem FlowInv.nowhere (h : s.FlowInv cfg) (hnew : r ∉ s.tracked) :
    r ∉ s.accepted ∧ r ∉ s.placed ∧ r ∉ s.released :=
  ⟨fun hr => hnew (h.accepted_subset hr), fun hr => hnew (h.accepted_subset (h.placed_subset hr)),
    fun hr => hnew (h.accepted_subset (h.placed_subset (h.released_subset hr)))⟩

theorem FlowInv.flags_cons (h : s.FlowInv cfg) (hnew : r ∉ s.tracked)
    (hopc : cfg.opcUriLookup r = false) (hother : ∀ x, x ≠ r → ctx.rpcs x = s.ctx.rpcs x)
    (hflags : (ctx.rpcs r).crpCtxTracked = true ∧ (ctx.rpcs r).crpEpi = true) :
    ∀ x ∈ r :: s.accepted, ((ctx.rpcs x).crpCtxTracked = true ↔ x ∉ s.released) ∧
      (ctx.rpcs x).crpEpi = true ∧ cfg.opcUriLookup x = false := by
  intro x hx
  rcases mem_cons.mp hx with rfl | hx
  · exact ⟨iff_of_true hflags.1 (h.nowhere hnew).2.2, hflags.2, hopc⟩
  · rw [hother x fun heq => (h.nowhere hnew).1 (heq ▸ hx)]
    exact h.flags x hx

variable [DecidableEq ι]

section

variable (h : s.FlowInv cfg)

include h

theorem FlowInv.inflighq (hC : cfg.cgCreditEpCtx ≠ 0) (hnew : r ∉ s.tracked)
    (hopc : cfg.opcUriLookup r = false) (htr : CrtContext.Tracked cfg r .inflighq s.ctx ctx)
    (hinv : ({ s with ctx := ctx, tracked := r :: s.tracked }.record r .inflighq).Inv cfg) :
    ({ s with ctx := ctx, tracked := r :: s.tracked }.record r .inflighq).FlowInv cfg := by
  obtain ⟨hepis, hroom⟩ := htr.placed
  obtain ⟨haccepted, _, hreleased⟩ := h.nowhere hnew
  have hwaitq : ∀ k, (ctx.epis k).epiReqWaitq = (s.ctx.epis k).epiReqWaitq := by
    intro k
    rw [hepis, update_apply]
    split_ifs with hk
    · rw [hk]
      rfl
    · rfl
  refine ⟨hinv, fun k => ?_, ?_, ?_, ?_, ?_, fun x => ?_, fun x => ?_,
    h.flags_cons hnew hopc htr.other htr.flags, fun k => ?_⟩
  · change (ctx.epis k).Flow _
    rw [hepis, update_apply]
    split
    · exact (h.flow _).launch (hroom.resolve_left hC) r
    · exact h.flow k
  · exact cons_subset_cons r h.accepted_subset
  · exact cons_subset_cons r h.placed_subset
  · exact subset_cons_of_subset r h.released_subset
  · exact subset_cons_of_subset r h.submit_subset
  · change x ∈ (ctx.epis (cfg.epRank x)).epiReqQ ↔ x ∈ r :: s.placed ∧ x ∉ s.released
    rw [hepis, mem_reqQ_launch, h.mem_reqQ, mem_cons]
    by_cases hx : x = r
    · simp [hx, hreleased]
    · simp [hx]
  · change x ∈ (ctx.epis (cfg.epRank x)).epiReqWaitq ↔ x ∈ r :: s.accepted ∧ x ∉ r :: s.placed
    rw [hwaitq, h.mem_waitq, mem_cons, mem_cons]
    by_cases hx : x = r
    · simp [hx, haccepted]
    · simp [hx]
  · change s.entered.filter _ = s.left.filter _ ++ (ctx.epis k).epiReqWaitq.filter _
    rw [hwaitq]
    exact h.fifo k

theorem FlowInv.waitq (hnew : r ∉ s.tracked) (hopc : cfg.opcUriLookup r = false)
    (htr : CrtContext.Tracked cfg r .waitq s.ctx ctx) (hinv :
    ({ s with ctx := ctx, tracked := r :: s.tracked }.record r .waitq).Inv cfg) :
    ({ s with ctx := ctx, tracked := r :: s.tracked }.record r .waitq).FlowInv cfg := by
  obtain ⟨hepis, _, _, hfull⟩ := htr.placed
  have hplaced := (h.nowhere hnew).2.1
  have hreqQ : ∀ k, (ctx.epis k).epiReqQ = (s.ctx.epis k).epiReqQ := by
    intro k
    rw [hepis, update_apply]
    split_ifs with hk
    · rw [hk]
      rfl
    · rfl
  refine ⟨hinv, fun k => ?_, ?_, ?_, h.released_subset, h.submit_subset, fun x => ?_, fun x => ?_,
    h.flags_cons hnew hopc htr.other htr.flags, fun k => ?_⟩
  · change (ctx.epis k).Flow _
    rw [hepis, update_apply]
    split
    · exact (h.flow _).enqueue hfull _ r
    · exact h.flow k
  · exact cons_subset_cons r h.accepted_subset
  · exact subset_cons_of_subset r h.placed_subset
  · change x ∈ (ctx.epis (cfg.epRank x)).epiReqQ ↔ _
    rw [hreqQ]
    exact h.mem_reqQ x
  · change x ∈ (ctx.epis (cfg.epRank x)).epiReqWaitq ↔ x ∈ r :: s.accepted ∧ x ∉ s.placed
    rw [hepis, mem_waitq_enqueue, h.mem_waitq, mem_cons]
    by_cases hx : x = r
    · simp [hx, hplaced]
    · simp [hx]
  · -- at the tail it comes last, and at the front it does not count
    change (s.entered ++ [r]).filter _ = s.left.filter _ ++ (ctx.epis k).epiReqWaitq.filter _
    rw [filter_append, h.fifo k, append_assoc, hepis, update_apply]
    congr 1
    split_ifs with hk
    · rw [enqueue, ← hk]
      cases hfront : cfg.coiQueueFront r with
      | false => simp
      | true => simp [ordinary, hfront]
    · have : cfg.epRank r ≠ k := fun heq => hk heq.symm
      simp [ordinary, this]

theorem FlowInv.track (hC : cfg.cgCreditEpCtx ≠ 0) (hnew : r ∉ s.tracked) {env : DeadlineEnv}
    {epiRc : ℤ} {res : TrackRc} (hstep : s.track cfg env epiRc r = some (res, s')) : s'.FlowInv cfg := by
  have hinv := h.toInv.track hnew hstep
  obtain ⟨⟨res, ctx⟩, htrack, heq⟩ := map_eq_some_iff.mp hstep
  cases heq
  rcases crtContextReqTrack_cases h.heap (h.untracked r hnew) htrack with
    ⟨rfl, hres⟩ | ⟨hopc, htr⟩
  · -- nothing but the call itself is recorded
    have hsame : (if cfg.opcUriLookup r = true then { s with tracked := r :: s.tracked }
        else { s with tracked := r :: s.tracked }.record r res) =
        { s with tracked := r :: s.tracked } := by
      split_ifs with hopc
      · rfl
      · obtain ⟨rc, rfl⟩ := hres.resolve_left hopc
        rfl
    rw [hsame] at hinv ⊢
    exact h.frame hinv rfl (fun _ _ => ⟨rfl, rfl⟩) (subset_cons_self r s.tracked)
      (List.Subset.refl _) ⟨rfl, rfl, rfl, rfl, rfl⟩
  · simp only [hopc, Bool.false_eq_true, if_false] at hinv ⊢
    cases res with
    | inflighq => exact h.inflighq hC hnew hopc htr hinv
    | waitq => exact h.waitq hnew hopc htr hinv
    | error rc =>
      refine h.frame hinv htr.placed (fun x hx => ?_) (subset_cons_self r s.tracked)
        (List.Subset.refl _) ⟨rfl, rfl, rfl, rfl, rfl⟩
      have hxr : x ≠ r := fun heq => (h.nowhere hnew).1 (heq ▸ hx)
      change (ctx.rpcs x).crpCtxTracked = _ ∧ (ctx.rpcs x).crpEpi = _
      rw [htr.other x hxr]
      exact ⟨rfl, rfl⟩

/-- **A second untrack** changes nothing. -/
theorem FlowInv.untrack_of_released (hr : r ∈ s.released) (hstate :
    (s.ctx.rpcs r).crpState.untrackable = true) (env : ι → DeadlineEnv) :
    s.ctx.crtContextReqUntrack cfg env r = some (s.ctx, []) := by
  obtain ⟨htracked, hepi, hopc⟩ := h.flags r (h.placed_subset (h.released_subset hr))
  have hflag : (s.ctx.rpcs r).crpCtxTracked = false := by
    rw [← Bool.not_eq_true, htracked, not_not]
    exact hr
  simp [crtContextReqUntrack, hopc, hstate, hepi, hflag]

theorem FlowInv.untrack_of_inflight (hr : r ∈ s.placed) (hrel : r ∉ s.released) (hstate :
    (s.ctx.rpcs r).crpState.untrackable = true) (env : ι → DeadlineEnv) :
    s.ctx.crtContextReqUntrack cfg env r = s.ctx.untrackLocked cfg env r := by
  obtain ⟨htracked, hepi, hopc⟩ := h.flags r (h.placed_subset hr)
  simp [crtContextReqUntrack, hopc, hstate, hepi, htracked.mpr hrel]

end

section

variable (h : s.FlowInv cfg) (hr : r ∈ (s.ctx.epis (cfg.epRank r)).epiReqQ) {ctx : CrtContext ι}
  {l : List ι} (hun : CrtContext.Untracked cfg r s.ctx ctx l)

include h hr hun

theorem FlowInv.waitq_eq : (s.ctx.epis (cfg.epRank r)).epiReqWaitq =
    l ++ (ctx.epis (cfg.epRank r)).epiReqWaitq := by
  rw [← hun.waitq_eq, erase_of_not_mem (h.not_mem_waitq hr _)]

omit hr in
theorem FlowInv.mem_submit {x : ι} (hx : x ∈ l) :
    cfg.epRank x = cfg.epRank r ∧ x ∈ s.accepted ∧ x ∉ s.placed := by
  have hw := hun.submit_subset hx
  have hrank := (h.toInv.mem_waitq hw).1
  exact ⟨hrank, (h.mem_waitq x).mp (by rw [hrank]; exact hw)⟩

omit hr in
theorem FlowInv.mem_reqQ_untrack (x : ι) : x ∈ (ctx.epis (cfg.epRank x)).epiReqQ ↔
    x ≠ r ∧ x ∈ (s.ctx.epis (cfg.epRank x)).epiReqQ ∨ x ∈ l := by
  by_cases hk : cfg.epRank x = cfg.epRank r
  · rw [hk, hun.reqQ_eq, mem_append, (h.nodup (cfg.epRank r)).of_append_left.mem_erase_iff]
  · have hxr : x ≠ r := fun heq => hk (by rw [heq])
    have hxl : x ∉ l := fun hx => hk (h.mem_submit hun hx).1
    rw [hun.epis_of_ne hk]
    simp [hxr, hxl]

theorem FlowInv.mem_waitq_untrack (x : ι) : x ∈ (ctx.epis (cfg.epRank x)).epiReqWaitq ↔
    x ∈ (s.ctx.epis (cfg.epRank x)).epiReqWaitq ∧ x ∉ l := by
  by_cases hk : cfg.epRank x = cfg.epRank r
  · have hnd := h.waitq_nodup (cfg.epRank r)
    rw [h.waitq_eq hr hun, nodup_append] at hnd
    rw [hk, h.waitq_eq hr hun, mem_append]
    constructor
    · exact fun hx => ⟨.inr hx, fun hxl => hnd.2.2 x hxl x hx rfl⟩
    · exact fun hx => hx.1.resolve_left hx.2
  · have hxl : x ∉ l := fun hx => hk (h.mem_submit hun hx).1
    rw [hun.epis_of_ne hk]
    simp [hxl]

theorem FlowInv.flow_untrack (hC : cfg.cgCreditEpCtx ≠ 0) (k : ℕ) :
    (ctx.epis k).Flow cfg.cgCreditEpCtx := by
  by_cases hk : k = cfg.epRank r
  · subst hk
    have hflow := h.flow (cfg.epRank r)
    have hnum := hflow.num
    have hbound := hflow.bound
    have hpos := length_pos_of_mem hr
    have hlen : (s.ctx.without cfg r).epiReqQ.length =
        (s.ctx.epis (cfg.epRank r)).epiReqQ.length - 1 := by
      rw [without_reqQ, length_erase_of_mem hr]
    rw [hun.epis, update_self, credits, if_neg hC]
    refine CrtEpInflight.Flow.release ?_ ?_ ?_
    · rw [without_num, hlen]
      omega
    · omega
    · rw [without_waitNum, without_waitq,
        erase_of_not_mem (h.not_mem_waitq hr _)]
      exact hflow.waitNum
  · rw [hun.epis_of_ne hk]
    exact h.flow k

/-- Those that are submitted leave in order. -/
theorem FlowInv.fifo_untrack (k : ℕ) : s.entered.filter (ordinary cfg k) =
    (s.left ++ l).filter (ordinary cfg k) ++ (ctx.epis k).epiReqWaitq.filter (ordinary cfg k) := by
  rw [h.fifo k, filter_append, append_assoc]
  congr 1
  by_cases hk : k = cfg.epRank r
  · subst hk
    rw [h.waitq_eq hr hun, filter_append]
  · have hnil : l.filter (ordinary cfg k) = [] := by
      refine filter_eq_nil_iff.mpr fun x hx => ?_
      have hrank := (h.mem_submit hun hx).1
      have hne : cfg.epRank x ≠ k := fun heq => hk (heq.symm.trans hrank)
      simp [ordinary, hne]
    rw [hnil, nil_append, hun.epis_of_ne hk]

end

theorem FlowInv.untrack (h : s.FlowInv cfg) (hC : cfg.cgCreditEpCtx ≠ 0) (hr : r ∈ s.placed)
    (hstate : (s.ctx.rpcs r).crpState.untrackable = true) {env : ι → DeadlineEnv}
    (hstep : s.untrack cfg env r = some s') : s'.FlowInv cfg := by
  have hinv := h.toInv.untrack hstep
  obtain ⟨⟨ctx, l⟩, huntrack, rfl⟩ := map_eq_some_iff.mp hstep
  by_cases hrel : r ∈ s.released
  · rw [h.untrack_of_released hrel hstate] at huntrack
    cases huntrack
    have hmem : ∀ x, x ∈ r :: s.released ↔ x ∈ s.released := fun x => by
      simp only [mem_cons, or_iff_right_iff_imp]
      exact fun heq => heq ▸ hrel
    simp only [append_nil] at hinv ⊢
    refine ⟨hinv, h.flow, h.accepted_subset, h.placed_subset, ?_, h.submit_subset, fun x => ?_,
      h.mem_waitq, fun x hx => ?_, h.fifo⟩
    · exact fun x hx => h.released_subset ((hmem x).mp hx)
    · rw [hmem]
      exact h.mem_reqQ x
    · rw [hmem]
      exact h.flags x hx
  · rw [h.untrack_of_inflight hr hrel hstate] at huntrack
    have hq := (h.mem_reqQ r).mpr ⟨hr, hrel⟩
    have hun := untrackLocked_spec h.heap (h.waitq_nodup _)
      (fun w hw => (h.waiting _ w hw).1) huntrack
    refine ⟨hinv, h.flow_untrack hq hun hC, h.accepted_subset, ?_, ?_, ?_, fun x => ?_, fun x => ?_,
      fun x hx => ?_, h.fifo_untrack hq hun⟩
    · exact append_subset.mpr ⟨h.placed_subset, fun x hx => (h.mem_submit hun hx).2.1⟩
    · exact cons_subset.mpr ⟨mem_append_left l hr,
        fun x hx => mem_append_left l (h.released_subset hx)⟩
    · exact append_subset.mpr ⟨fun x hx => mem_append_left l (h.submit_subset hx),
        subset_append_right s.placed l⟩
    · change x ∈ (ctx.epis (cfg.epRank x)).epiReqQ ↔ x ∈ s.placed ++ l ∧ x ∉ r :: s.released
      rw [h.mem_reqQ_untrack hun, h.mem_reqQ, mem_append, mem_cons]
      by_cases hxl : x ∈ l
      · -- it was not in flight before, so it is neither `r` nor released
        have hx := (h.mem_submit hun hxl).2.2
        have hxr : x ≠ r := fun heq => hx (heq ▸ hr)
        have hxrel : x ∉ s.released := fun hin => hx (h.released_subset hin)
        simp [hxl, hxr, hxrel]
      · simp only [hxl, or_false]
        tauto
    · change x ∈ (ctx.epis (cfg.epRank x)).epiReqWaitq ↔ x ∈ s.accepted ∧ x ∉ s.placed ++ l
      rw [h.mem_waitq_untrack hq hun, h.mem_waitq, mem_append, not_or, and_assoc]
    · obtain ⟨htracked, hepi, hopc⟩ := h.flags x hx
      change ((ctx.rpcs x).crpCtxTracked = true ↔ x ∉ r :: s.released) ∧
        (ctx.rpcs x).crpEpi = true ∧ _
      rw [(hun.flags x).2]
      refine ⟨?_, hepi, hopc⟩
      by_cases hxr : x = r
      · simp [hxr, hun.self.1]
      · rw [(hun.flags x).1 hxr, htracked]
        simp [hxr]

theorem FlowInv.setState (h : s.FlowInv cfg) (r : ι) (state : RpcState) :
    { s with ctx := s.ctx.setState r state }.FlowInv cfg := by
  refine h.frame (h.toInv.setState r state) rfl (fun x _ => ?_) (List.Subset.refl _)
    (List.Subset.refl _) ⟨rfl, rfl, rfl, rfl, rfl⟩
  by_cases hx : x = r
  · simp [CrtContext.setState, CrtContext.setRpc, hx]
  · simp [CrtContext.setState, CrtContext.setRpc, update_of_ne hx]

theorem FlowInv.erase_submit (h : s.FlowInv cfg) (r : ι) :
    { s with submit := s.submit.erase r }.FlowInv cfg :=
  h.frame (h.toInv.congr rfl (List.Subset.refl _) rfl) rfl (fun _ _ => ⟨rfl, rfl⟩)
    (List.Subset.refl _) erase_subset ⟨rfl, rfl, rfl, rfl, rfl⟩

end CtxState

/-! ### Flow control -/

/-- The calls the code makes: untrack is for RPCs that were in flight, in a state
that it accepts. -/
def UntracksInflight {ι : Type} (s : CtxState ι) : CtxEvent ι → Prop
  | .untrack r _ => r ∈ s.placed ∧ (s.ctx.rpcs r).crpState.untrackable = true
  | _ => True

/-- The runs with these calls. -/
@[reducible]
def flowLts {ι : Type} [DecidableEq ι] (cfg : CtxCfg ι) (null : ι) : Lts (CtxState ι) (CtxEvent ι) :=
  (ctxLts cfg null).restrict UntracksInflight

instance {ι : Type} [DecidableEq ι] (s : CtxState ι) (e : CtxEvent ι) :
    Decidable (UntracksInflight s e) := by
  apply CtxEvent.casesOn (motive := (Decidable <| UntracksInflight s ·)) e <;> intros <;>
    dsimp only [UntracksInflight] <;> infer_instance

namespace CtxState

variable [DecidableEq ι] {cfg : CtxCfg ι} {s : CtxState ι}

theorem flowInv_invariant (null : ι) (hC : cfg.cgCreditEpCtx ≠ 0) :
    (flowLts cfg null).Invariant (FlowInv cfg) := by
  refine ⟨fun s hs => hs ▸ flowInv_create cfg null, ?_⟩
  rintro s e s' h ⟨henabled, hcall⟩ hstep
  have hinv := (ctxInv_invariant cfg null).step s e s' h.toInv henabled hstep
  have htimer := h.toInv.timer henabled
  cases e with
  | track r env epiRc =>
    obtain ⟨⟨res, t⟩, htrack, rfl⟩ := map_eq_some_iff.mp hstep
    exact h.track hC henabled htrack
  | untrack r env => exact h.untrack hC hcall.1 hcall.2 hstep
  | resubmit r rc env =>
    simp only [flowLts, Lts.restrict, CtxState.step] at hstep
    split at hstep
    · exact some.inj hstep ▸ h.erase_submit r
    · exact ((h.erase_submit r).setState r .inited).untrack hC (h.submit_subset henabled)
        (by simp [setState, setRpc, RpcState.untrackable]) hstep
  | setState r state => exact some.inj hstep ▸ h.setState r state
  | timeoutCheck now | timeoutReset r env present | uriLookupRetry r env | forceTimeout r env =>
    obtain ⟨_, _, heq, _, hepis, hfields⟩ := htimer trivial
    obtain rfl := some.inj (heq.symm.trans hstep)
    exact h.frame hinv hepis (fun x _ => hfields x) (List.Subset.refl _) (List.Subset.refl _)
      ⟨rfl, rfl, rfl, rfl, rfl⟩

theorem FlowInv.untrack_isSome (h : s.FlowInv cfg) (hr : r ∈ s.placed)
    (hstate : (s.ctx.rpcs r).crpState.untrackable = true) (env : ι → DeadlineEnv) :
    (s.untrack cfg env r).isSome := by
  rw [CtxState.untrack, isSome_map]
  by_cases hrel : r ∈ s.released
  · rw [h.untrack_of_released hrel hstate]
    rfl
  · have hq := (h.mem_reqQ r).mpr ⟨hr, hrel⟩
    have hflow := h.flow (cfg.epRank r)
    have hnum := hflow.num
    have hbound := hflow.bound
    have hpos := length_pos_of_mem hq
    rw [h.untrack_of_inflight hr hrel hstate]
    exact untrackLocked_isSome h.heap (h.waitq_nodup _)
      (fun w hw => (h.waiting _ w hw).1) env (by omega) (fun _ => by omega) hflow.waitNum
      (h.not_mem_waitq hq _)

theorem FlowInv.track_isSome (h : s.FlowInv cfg) (hnew : r ∉ s.tracked) (env : DeadlineEnv)
    (epiRc : ℤ) : (s.track cfg env epiRc r).isSome := by
  rw [CtxState.track, isSome_map]
  by_cases hopc : cfg.opcUriLookup r = true
  · rw [crtContextReqTrack, if_pos hopc]
    rfl
  by_cases hepi : epiRc = 0
  · subst hepi
    have hnum := (h.flow (cfg.epRank r)).num
    obtain ⟨res, ctx, heq, _⟩ := crtContextReqTrack_spec h.heap (h.untracked r hnew)
      (Bool.eq_false_iff.mpr hopc) (by omega) env
    rw [heq]
    rfl
  · rw [crtContextReqTrack, if_neg hopc, if_pos hepi]
    rfl

theorem FlowInv.isSome (h : s.FlowInv cfg) {null : ι} {e : CtxEvent ι}
    (henabled : (flowLts cfg null).enabled s e) : (s.step cfg e).isSome := by
  obtain ⟨henabled, hcall⟩ := henabled
  have htimer := h.toInv.timer henabled
  cases e with
  | track r env epiRc =>
    rw [CtxState.step, isSome_map]
    exact h.track_isSome henabled env epiRc
  | untrack r env => exact h.untrack_isSome hcall.1 hcall.2 env
  | resubmit r rc env =>
    rw [CtxState.step]
    split
    · rfl
    · exact ((h.erase_submit r).setState r .inited).untrack_isSome (h.submit_subset henabled)
        (by simp [CrtContext.setState, CrtContext.setRpc, RpcState.untrackable]) env
  | setState r state => rfl
  | timeoutCheck now | timeoutReset r env present | uriLookupRetry r env | forceTimeout r env =>
    obtain ⟨_, _, heq, _⟩ := htimer trivial
    rw [heq]
    rfl

end CtxState

/-- **Flow control** of the endpoint `k`, in every state of every run. -/
theorem endpoint_flow_control {ι : Type} [DecidableEq ι] (cfg : CtxCfg ι)
    (hC : 0 < cfg.cgCreditEpCtx) (null : ι) (s : CtxState ι) (hs : (flowLts cfg null).Reach s)
    (k : ℕ) :
    (s.ctx.epis k).epiReqNum - (s.ctx.epis k).epiReplyNum = (s.ctx.epis k).epiReqQ.length ∧
    (s.ctx.epis k).epiReqQ.length ≤ cfg.cgCreditEpCtx ∧
    (s.ctx.epis k).epiReqWaitNum = (s.ctx.epis k).epiReqWaitq.length ∧
    (∀ r, cfg.epRank r = k → (r ∈ s.accepted ∧ r ∉ s.released ↔
      ((s.ctx.epis k).epiReqQ ++ (s.ctx.epis k).epiReqWaitq).count r = 1)) ∧
    ((s.ctx.epis k).epiReqWaitq ≠ [] → (s.ctx.epis k).epiReqQ.length = cfg.cgCreditEpCtx) ∧
    (∀ r env, r ∈ s.released → (s.ctx.rpcs r).crpState.untrackable = true →
      s.ctx.crtContextReqUntrack cfg env r = some (s.ctx, [])) ∧
    s.entered.filter (CtxState.ordinary cfg k) = s.left.filter (CtxState.ordinary cfg k) ++
      (s.ctx.epis k).epiReqWaitq.filter (CtxState.ordinary cfg k) ∧
    ∀ e, (flowLts cfg null).enabled s e → (s.step cfg e).isSome := by
  have h := (CtxState.flowInv_invariant null (Nat.pos_iff_ne_zero.mp hC)).reach hs
  have hflow := h.flow k
  refine ⟨hflow.num, hflow.bound, hflow.waitNum, fun r hk => ?_, hflow.full,
    fun r env hr hstate => h.untrack_of_released hr hstate env, h.fifo k, fun e => h.isSome⟩
  subst hk
  rw [← h.mem_queued]
  exact ⟨count_eq_one_of_mem (h.nodup _), fun hone =>
    count_pos_iff.mp (hone.symm ▸ Nat.one_pos)⟩

/-- One credit, and one RPC that goes to the front. -/
def frontCfg : CtxCfg ℕ where
  cgCreditEpCtx := 1
  epRank _ := 0
  coiQueueFront r := r == 2
  coiResetTimer _ := false
  opcUriLookup _ := false

/-- The credit goes to the RPC at the front, whose submission fails, and then to
the other one that waits. -/
theorem endpoint_flow_after_failed_resubmit : ∃ s, (flowLts frontCfg 0).Reach s ∧
    (s.ctx.epis 0).epiReqQ = [1] ∧ s.entered = [1, 2] ∧ s.left = [2, 1] ∧
    (s.ctx.epis 0).epiReqNum - (s.ctx.epis 0).epiReplyNum = 1 := by
  obtain ⟨s, hreach, hreqs, hentered, hleft⟩ : ∃ s, (flowLts frontCfg 0).Reach s ∧
      (s.ctx.epis 0).epiReqQ = [1] ∧ s.entered = [1, 2] ∧ s.left = [2, 1] :=
    Lts.exists_reach_of_exec [.track 0 ⟨3, ⟨true, 0⟩⟩ 0, .track 1 ⟨4, ⟨true, 0⟩⟩ 0,
      .track 2 ⟨5, ⟨true, 0⟩⟩ 0, .setState 0 .completed, .untrack 0 fun _ => ⟨6, ⟨true, 0⟩⟩,
      .resubmit 2 (-1) fun _ => ⟨7, ⟨false, 0⟩⟩] _ rfl (by decide +kernel)
  obtain ⟨hnum, _⟩ := endpoint_flow_control frontCfg Nat.one_pos 0 s hreach 0
  refine ⟨s, hreach, hreqs, hentered, hleft, ?_⟩
  rw [hnum, hreqs]
  rfl

end Cart
