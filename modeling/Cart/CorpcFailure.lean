/-
A local dispatch that fails.

When `crt_rpc_common_hdlr` fails on a node, `crt_corpc_req_hdlr` counts the local handler as a
failed child.  But replies that were parked on `co_replied_rpcs` before are only ever counted
by the local reply, which does not come any more.

Main results: `corpc_completes_iff_no_early_reply`, `CorpcNode.completed_iff_of_run`.
-/
import Cart.CorpcCompletion

open List

namespace Cart

open CorpcEvent

/-- The runs in which the local dispatch fails. -/
def failingLts (cfg : CorpcCfg) (ι : Type) [DecidableEq ι] :
    Lts (CorpcNode ι) (CorpcEvent ι) :=
  (corpcLts cfg ι).restrict fun _ e => ∀ rc, e = .dispatch rc → rc ≠ 0

instance (cfg : CorpcCfg) (ι : Type) [DecidableEq ι] (n : CorpcNode ι) (e : CorpcEvent ι) :
    Decidable ((failingLts cfg ι).enabled n e) :=
  have : Decidable (∀ rc, e = .dispatch rc → rc ≠ 0) :=
    match e with
    | .dispatch rc => decidable_of_iff (rc ≠ 0) ⟨by rintro h _ ⟨⟩; exact h, fun h => h rc rfl⟩
    | .start _ | .create _ | .forwardDone | .localDone | .childReply _ _ _ | .localReply =>
      isTrue nofun
  inferInstanceAs (Decidable (n.Enabled e ∧ _))

/-- The children that call back before the failed dispatch is recorded in
`co_local_done`. -/
def earlyReplies {ι : Type} : List (CorpcEvent ι) → List ι
  | [] => []
  | .localDone :: _ => []
  | .childReply c _ _ :: es => c :: earlyReplies es
  | _ :: es => earlyReplies es

/-- The events that fail. -/
def CorpcEvent.Fails {ι : Type} : CorpcEvent ι → Prop
  | .start (.fail _) => True
  | .start (.children _) => False
  | .create rc => rc ≠ 0
  | .forwardDone => False
  | .dispatch rc => rc ≠ 0
  | .localDone => False
  | .childReply _ cciRc cchRc => cciRc ≠ 0 ∨ cchRc ≠ 0
  | .localReply => False

namespace CorpcNode

variable {ι : Type} [DecidableEq ι] {cfg : CorpcCfg} {n : CorpcNode ι} {e : CorpcEvent ι}

/-- What a step does to `co_rc`, up to the completion. -/
theorem next_coRc_iff (henabled : n.Enabled e) (h : n.cchRc ≠ 0 → n.coRc ≠ 0) :
    (n.next cfg e).coRc ≠ 0 ↔ n.coRc ≠ 0 ∨ e.Fails := by
  cases e with
  | start outcome =>
    cases outcome with
    | fail rc => exact iff_of_true henabled.2 (.inr trivial)
    | children l => exact (or_iff_left not_false).symm
  | create rc =>
    obtain ⟨c, cs, hpc⟩ := henabled
    simp only [next, hpc, Fails]
    split_ifs with hrc
    · exact (or_iff_left (not_not.mpr hrc)).symm
    · exact iff_of_true hrc (.inr hrc)
  | forwardDone | localDone => exact (or_iff_left not_false).symm
  | dispatch rc =>
    rw [next_dispatch_eq]
    simp only [Fails]
    split_ifs with hrc
    · exact (or_iff_left (not_not.mpr hrc)).symm
    · exact iff_of_true hrc (.inr hrc)
  | childReply c cciRc cchRc =>
    obtain ⟨_, _, _, heq⟩ := next_childReply_eq cfg n c cciRc cchRc
    rw [heq]
    simp only [noteReply, Fails]
    by_cases hcch : cchRc = 0
    · by_cases hcci : cciRc = 0
      · simp [hcch, hcci]
      · simp [hcch, hcci]
    · simp [hcch]
  | localReply =>
    simp only [next, Fails, or_false]
    by_cases hcch : n.cchRc = 0
    · simp [hcch]
    · simp [hcch, h hcch]

/-- What holds in the runs whose dispatch fails: there is no local reply, and
the failure has left its mark. -/
structure FailInv (cfg : CorpcCfg) (n : CorpcNode ι) : Prop extends Inv cfg n where
  unreplied : n.localReplied = false
  unpending : n.crpReplyPending = false
  marked : n.dispatchFailed = true → n.coRc ≠ 0
  reported : ∀ rc ∈ n.completed, rc ≠ 0

/-- Without a local reply only a failed dispatch lets the counters meet. -/
theorem Counts.dispatchFailed_of_counted (h : Counts cfg n) (hex : cfg.coRootExcluded = false)
    (hreplied : n.localReplied = false) (hc : Counted cfg n) : n.dispatchFailed = true := by
  have hlen := h.len
  have hack := h.ack
  have hfailed := h.failed
  have hdone := hc.1
  rw [hreplied, Bool.toNat_false] at hack
  simp only [doneNum, waitNum, hex, Bool.false_eq_true, if_false] at hdone
  by_contra hnot
  rw [Bool.not_eq_true] at hnot
  rw [hnot, Bool.toNat_false] at hfailed
  omega

/-- A failed dispatch has left its error code behind. -/
theorem next_marked (henabled : n.Enabled e) (h : n.dispatchFailed = true → n.coRc ≠ 0) :
    (n.next cfg e).dispatchFailed = true → (n.next cfg e).coRc ≠ 0 := by
  intro hfail
  by_cases he : ∀ rc, e = .dispatch rc → rc = 0
  · rw [(next_frame e).2.1 he] at hfail
    exact (next_coRc_iff henabled fun _ => h hfail).mpr (.inl (h hfail))
  · push Not at he
    obtain ⟨rc, rfl, hrc⟩ := he
    simp only [next, if_neg hrc]
    exact hrc

/-- Only a successful dispatch and the reply it brings concern the local
handler. -/
theorem next_local (he : e ≠ .localReply)
    (hd : ∀ rc, e = .dispatch rc → rc ≠ 0) (hpending : n.crpReplyPending = false) :
    (n.next cfg e).localReplied = n.localReplied ∧ (n.next cfg e).crpReplyPending = false := by
  cases e with
  | start outcome => cases outcome <;> exact ⟨rfl, hpending⟩
  | create rc =>
    obtain ⟨_, _, _, _, _, _, heq⟩ := next_create_eq cfg n rc
    rw [heq]
    exact ⟨rfl, hpending⟩
  | forwardDone => exact ⟨rfl, hpending⟩
  | dispatch rc =>
    rw [next_dispatch_eq]
    exact ⟨rfl, by simp [hpending, hd rc rfl]⟩
  | localDone => exact ⟨rfl, rfl⟩
  | childReply c cciRc cchRc =>
    obtain ⟨_, _, _, heq⟩ := next_childReply_eq cfg n c cciRc cchRc
    rw [heq]
    exact ⟨rfl, hpending⟩
  | localReply => exact absurd rfl he

/-- Which replies are parked: those before `co_local_done`. -/
theorem next_parked (hops : cfg.coOps = true) (hex : cfg.coRootExcluded = false)
    (he : e ≠ .localReply) (es : List (CorpcEvent ι)) : (n.next cfg e).coRepliedRpcs ++
        (if (n.next cfg e).coLocalDone then [] else earlyReplies es) =
      n.coRepliedRpcs ++ if n.coLocalDone then [] else earlyReplies (e :: es) := by
  cases e with
  | start outcome => cases outcome <;> rfl
  | create rc =>
    obtain ⟨_, _, _, _, _, _, heq⟩ := next_create_eq cfg n rc
    rw [heq]
    rfl
  | forwardDone => rfl
  | dispatch rc =>
    rw [next_dispatch_eq]
    rfl
  | localDone => simp [next, earlyReplies]
  | childReply c cciRc cchRc =>
    by_cases hdone : n.coLocalDone = true
    · simp [next, noteReply, hops, hex, hdone]
    · simp [next, noteReply, hops, hex, hdone, earlyReplies]
  | localReply => exact absurd rfl he

theorem Inv.counted_of_mem (h : Inv cfg n) {rc : ℤ} (hrc : rc ∈ n.completed) : Counted cfg n := by
  by_contra hc
  have hdone := h.done
  rw [if_neg hc] at hdone
  rw [length_eq_zero_iff.mp hdone] at hrc
  exact not_mem_nil hrc

omit [DecidableEq ι] in
theorem result_ne_zero (h : n.coRc ≠ 0) : n.result ≠ 0 := by
  rwa [result, if_neg h]

theorem failInv_invariant (hex : cfg.coRootExcluded = false) :
    (failingLts cfg ι).Invariant (FailInv cfg) where
  init := by
    rintro n rfl
    exact ⟨init_inv, rfl, rfl, fun h => absurd h Bool.false_ne_true,
      fun rc hrc => absurd hrc not_mem_nil⟩
  step := by
    intro n e n' h henabled hstep
    have hinv := (inv_invariant cfg).step n e n' h.toInv henabled.1 hstep
    have hlocal : e ≠ .localReply := by
      rintro rfl
      exact Bool.false_ne_true (h.unpending.symm.trans henabled.1)
    obtain ⟨hreplied, hpending⟩ : (n.next cfg e).localReplied = n.localReplied ∧
      (n.next cfg e).crpReplyPending = false := next_local hlocal henabled.2 h.unpending
    have hmarked : (n.next cfg e).dispatchFailed = true → (n.next cfg e).coRc ≠ 0 :=
      next_marked henabled.1 h.marked
    rcases step_next hstep with rfl | rfl
    · exact ⟨hinv, hreplied.trans h.unreplied, hpending, hmarked,
        (next_completed e).symm ▸ h.reported⟩
    · rw [complete_eq] at hinv ⊢
      refine ⟨hinv, hreplied.trans h.unreplied, hpending, hmarked, ?_⟩
      -- a completion needs the failed dispatch, whose code is then the result
      have hfail := hinv.toCounts.dispatchFailed_of_counted hex (hreplied.trans h.unreplied)
        (hinv.counted_of_mem (mem_append_right _ (mem_singleton_self _)))
      intro rc hrc
      rcases mem_append.mp hrc with hrc | hrc
      · exact h.reported rc (next_completed e ▸ hrc)
      · rw [mem_singleton.mp hrc]
        exact result_ne_zero (hmarked hfail)

/-- **The parked replies of a whole run** are the early ones. -/
theorem parked_of_run (hops : cfg.coOps = true) (hex : cfg.coRootExcluded = false)
    {n' : CorpcNode ι} {es : List (CorpcEvent ι)} (hrun : (failingLts cfg ι).Run n es n')
    (h : FailInv cfg n) :
    n'.coRepliedRpcs = n.coRepliedRpcs ++ if n.coLocalDone then [] else earlyReplies es := by
  induction hrun with
  | nil n => simp [earlyReplies]
  | @cons n m n' e es henabled hstep hrun ih =>
    have hlocal : e ≠ .localReply := by
      rintro rfl
      exact Bool.false_ne_true (h.unpending.symm.trans henabled.1)
    rw [ih ((failInv_invariant hex).step n e m h henabled hstep),
      ← next_parked hops hex hlocal es]
    obtain ⟨rc, cs, rfl⟩ := step_fields hstep
    rfl

theorem Counts.counted_iff_of_finished (h : Counts cfg n) (hex : cfg.coRootExcluded = false)
    (hend : n.pc = .finished ∧ n.coChildRpcs = [] ∧ n.crpReplyPending = false) :
    Counted cfg n ↔ n.coRepliedRpcs = [] := by
  obtain ⟨hpc, hrpcs, hpending⟩ := hend
  have hlen := h.len
  have hack := h.ack
  have hfailed := h.failed
  have hphase := h.phase
  rw [hpending, undispatched, hpc, hex] at hphase
  rw [todo, hpc, hrpcs, length_nil] at hlen
  simp only [Bool.toNat_false, Nat.add_zero, Bool.false_eq_true, if_false] at hphase
  rw [Counted, doneNum, waitNum, hex, ← length_eq_zero_iff]
  simp only [Bool.false_eq_true, if_false, hpc, implies_true, and_true]
  omega

end CorpcNode

open CorpcNode in
/-- **Completion after a failed dispatch**: once, with an error, if no child called back before
`co_local_done` was set, and not at all otherwise.  The assertions are those on the counters;
`crp_refcount` is not modelled. -/
theorem corpc_completes_iff_no_early_reply (cfg : CorpcCfg) (ι : Type) [DecidableEq ι]
    (hops : cfg.coOps = true) :
    (failingLts cfg ι).Safe ∧ (failingLts cfg ι).Terminates ∧
    ∀ (es : List (CorpcEvent ι)) (n : CorpcNode ι),
      (failingLts cfg ι).Run (CorpcNode.init ι) es n → (failingLts cfg ι).Terminal n →
      n.dispatchFailed = true →
      ((∃ rc, n.completed = [rc] ∧ rc ≠ 0) ↔ earlyReplies es = []) := by
  have hinv : (failingLts cfg ι).Invariant (Inv cfg) := (inv_invariant cfg).restrict _
  refine ⟨?_, ?_, ?_⟩
  · refine hinv.safe fun n e h henabled => ?_
    obtain ⟨n', hn', _⟩ := h.step henabled.1
    exact ⟨n', hn'⟩
  · exact Lts.terminates_of_measure measure fun n e n' henabled hstep =>
      measure_lt henabled.1 hstep
  · intro es n hrun hterm hfail
    -- an excluded root has no local handler to dispatch
    have hex : cfg.coRootExcluded = false := by
      have hlocal := (hinv.run hrun init_inv).local_le
      by_contra hex
      rw [Bool.not_eq_false] at hex
      rw [hfail, if_pos hex, Bool.toNat_true] at hlocal
      omega
    have hinit : FailInv cfg (CorpcNode.init ι) := (failInv_invariant hex).init _ rfl
    have h := (failInv_invariant hex).run hrun hinit
    have hparked : n.coRepliedRpcs = earlyReplies es := parked_of_run hops hex hrun hinit
    have hend := finished_of_terminal (n := n)
      (fun e he henabled => hterm e ⟨henabled, fun rc hrc => absurd hrc (he rc)⟩)
      (fun hpc => hterm (.dispatch 1) ⟨hpc, fun rc hrc => by cases hrc; decide⟩)
    have hdone := h.done
    rw [← hparked, ← h.counted_iff_of_finished hex hend]
    constructor
    · rintro ⟨rc, hrc, _⟩
      exact h.counted_of_mem (hrc ▸ mem_singleton_self rc)
    · intro hc
      rw [if_pos hc] at hdone
      obtain ⟨rc, hrc⟩ := length_eq_one_iff.mp hdone
      exact ⟨rc, hrc, h.reported rc (hrc ▸ mem_singleton_self rc)⟩

/-- One child, which replies after the dispatch has failed. -/
theorem corpc_completes_late_reply :
    ∃ n, (failingLts ⟨true, false, 0, false⟩ ℕ).Run (CorpcNode.init ℕ)
        [.start (.children [0]), .create 0, .forwardDone, .dispatch (-derBadTarget), .localDone,
          .childReply 0 0 0] n ∧
      ∃ rc, n.completed = [rc] ∧ rc ≠ 0 := by
  have hrun : (failingLts ⟨true, false, 0, false⟩ ℕ).Run (CorpcNode.init ℕ)
      [.start (.children [0]), .create 0, .forwardDone, .dispatch (-derBadTarget), .localDone,
        .childReply 0 0 0] _ := Lts.run_of_exec rfl
  exact ⟨_, hrun, ((corpc_completes_iff_no_early_reply _ ℕ rfl).2.2 _ _ hrun
    (fun e he => CorpcNode.not_enabled_of_finished ⟨rfl, rfl, rfl⟩ e he.1) rfl).mpr rfl⟩

/-- One child, which replies before the dispatch fails: the node never
completes. -/
theorem corpc_early_reply_lost :
    ∃ n, (failingLts ⟨true, false, 0, false⟩ ℕ).Run (CorpcNode.init ℕ)
        [.start (.children [0]), .create 0, .childReply 0 0 0, .forwardDone,
          .dispatch (-derBadTarget), .localDone] n ∧
      (failingLts ⟨true, false, 0, false⟩ ℕ).Terminal n ∧ n.dispatchFailed = true ∧
      n.completed = [] :=
  ⟨_, Lts.run_of_exec rfl,
    fun e he => CorpcNode.not_enabled_of_finished ⟨rfl, rfl, rfl⟩ e he.1, rfl, rfl⟩

/-! ### Any run of a node -/

namespace CorpcNode

variable {ι : Type} [DecidableEq ι] {cfg : CorpcCfg} {n n' : CorpcNode ι} {es : List (CorpcEvent ι)}

/-- Once the handler has been dispatched, its reply is pending or has come. -/
theorem Counts.dispatched_step (h : Counts cfg n) {e : CorpcEvent ι} (henabled : n.Enabled e)
    (hstep : n.step cfg e = some n') (hlocal : n.crpReplyPending = true ∨ n.localReplied = true) :
    n'.crpReplyPending = true ∨ n'.localReplied = true := by
  obtain ⟨rc, cs, rfl⟩ := step_fields hstep
  cases e with
  | start outcome => cases outcome <;> exact hlocal
  | create rc =>
    obtain ⟨_, _, _, _, _, _, heq⟩ := next_create_eq cfg n rc
    rw [heq]
    exact hlocal
  | forwardDone => exact hlocal
  | dispatch rc =>
    rw [next_dispatch_eq]
    exact hlocal.imp_left fun hp => by simp [hp]
  | localDone =>
    -- here the dispatch has failed, so that there was no local reply
    have hlocal_le := h.local_le
    have hphase := h.phase
    have hfail := h.failing henabled
    rw [hfail, Bool.toNat_true] at hphase hlocal_le
    have hnone : n.crpReplyPending.toNat = 0 ∧ n.localReplied.toNat = 0 := by
      by_cases hex : cfg.coRootExcluded = true
      · rw [if_pos hex] at hlocal_le
        omega
      · rw [if_neg hex] at hphase
        omega
    rw [Bool.toNat_eq_zero, Bool.toNat_eq_zero] at hnone
    rw [hnone.1, hnone.2] at hlocal
    simp at hlocal
  | childReply c cciRc cchRc =>
    obtain ⟨_, _, _, heq⟩ := next_childReply_eq cfg n c cciRc cchRc
    rw [heq]
    exact hlocal
  | localReply => exact .inr rfl

section

variable (hrun : (corpcLts cfg ι).Run n es n')

include hrun

theorem Inv.dispatched_run (h : Inv cfg n)
    (hlocal : n.crpReplyPending = true ∨ n.localReplied = true) :
    n'.crpReplyPending = true ∨ n'.localReplied = true := by
  induction hrun with
  | nil n => exact hlocal
  | cons henabled hstep hrun ih =>
    exact ih ((inv_invariant cfg).step _ _ _ h henabled hstep)
      (h.dispatched_step henabled hstep hlocal)

/-- A run at whose end the dispatch has failed is one in which no dispatch
succeeds. -/
theorem Inv.failing_run (h : Inv cfg n)
    (hfail : n'.dispatchFailed = true) : (failingLts cfg ι).Run n es n' := by
  induction hrun with
  | nil n => exact .nil n
  | @cons n m n' e es henabled hstep hrun ih =>
    have hm : Inv cfg m := (inv_invariant cfg).step _ _ _ h henabled hstep
    refine .cons ⟨henabled, ?_⟩ hstep (ih hm hfail)
    rintro rc rfl rfl
    have hpending : m.crpReplyPending = true := by
      cases hstep
      rfl
    have hn' := (inv_invariant cfg).run hrun hm
    have hphase := hn'.phase
    have hlocal_le := hn'.local_le
    rw [hfail, Bool.toNat_true] at hphase hlocal_le
    rcases Inv.dispatched_run hrun hm (.inl hpending) with hp | hl
    · rw [hp, Bool.toNat_true] at hphase
      split_ifs at hphase with hex
      · rw [if_pos hex] at hlocal_le
        omega
      · omega
    · rw [hl, Bool.toNat_true] at hlocal_le
      split at hlocal_le <;> omega

/-- The flag tells whether a dispatch has failed. -/
theorem dispatchFailed_of_run :
    n'.dispatchFailed = true ↔ n.dispatchFailed = true ∨ ∃ rc, rc ≠ 0 ∧ .dispatch rc ∈ es := by
  induction hrun with
  | nil n => simp
  | @cons n m n' e es henabled hstep hrun ih =>
    have hm : m.dispatchFailed = (n.next cfg e).dispatchFailed := by
      obtain ⟨rc, cs, rfl⟩ := step_fields hstep
      rfl
    rw [ih, hm]
    by_cases he : ∀ rc, e = .dispatch rc → rc = 0
    · rw [(next_frame e).2.1 he]
      refine or_congr_right ⟨?_, ?_⟩
      · rintro ⟨rc, hrc, hmem⟩
        exact ⟨rc, hrc, mem_cons_of_mem e hmem⟩
      · rintro ⟨rc, hrc, hmem⟩
        rcases mem_cons.mp hmem with heq | hmem
        · exact absurd (he rc heq.symm) hrc
        · exact ⟨rc, hrc, hmem⟩
    · push Not at he
      obtain ⟨rc, rfl, hrc⟩ := he
      have hset : (n.next cfg (.dispatch rc)).dispatchFailed = true := by
        rw [next_dispatch_eq]
        simp [hrc]
      exact iff_of_true (.inl hset) (.inr ⟨rc, hrc, mem_cons_self⟩)

end

/-- **A node that is not an excluded root** completes, unless its dispatch fails and a child
replied too early. -/
theorem completed_iff_of_run (hex : cfg.coRootExcluded = false)
    (hrun : (corpcLts cfg ι).Run (CorpcNode.init ι) es n) (hterm : (corpcLts cfg ι).Terminal n) :
    n.completed.length = 1 ↔
      (cfg.coOps = true → (∃ rc, rc ≠ 0 ∧ .dispatch rc ∈ es) → earlyReplies es = []) := by
  have h : Inv cfg n := (inv_invariant cfg).run hrun init_inv
  have hend := finished_of_terminal (n := n) (fun e _ => hterm e) (hterm (.dispatch 0))
  have hdone : n.completed.length = 1 ↔ Counted cfg n := by
    rw [h.done]
    split <;> simp [*]
  have hfail := dispatchFailed_of_run hrun
  rw [hdone, h.counted_iff_of_finished hex hend]
  by_cases hf : n.dispatchFailed = true
  · by_cases hops : cfg.coOps = true
    · rw [parked_of_run hops hex (Inv.failing_run hrun init_inv hf) ((failInv_invariant hex).init _ rfl)]
      have hex' : ∃ rc, rc ≠ 0 ∧ dispatch rc ∈ es := by
        simpa [CorpcNode.init] using hfail.mp hf
      simp [CorpcNode.init, hops, hex']
    · refine iff_of_true ?_ fun h => absurd h hops
      by_contra hp
      exact hops (h.parked hp).1
  · -- the handler has replied, and has taken the parked replies with it
    have hphase := h.phase
    rw [Bool.not_eq_true] at hf
    rw [hend.2.2, undispatched, hend.1, hex, hf] at hphase
    rw [hf] at hfail
    refine iff_of_true ?_ fun _ hrc => absurd (hfail.mpr (.inr hrc)) Bool.false_ne_true
    by_contra hp
    rw [(h.parked hp).2.2] at hphase
    simp at hphase

end CorpcNode

end Cart
