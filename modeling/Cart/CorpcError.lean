/-
Errors on one node of a collective.

An error travels through two fields, `co_rc` and `cch_rc`, that are set and
read in different callbacks.  A step that fails makes `co_rc` an error, and
nothing else does (`next_coRc_iff`).  `Synced` says that `cch_rc` adds nothing to
it and that a completion, once it has happened, agrees with it.
-/
import Cart.CorpcFailure

open List

namespace Cart

namespace CorpcNode

variable {ι : Type} [DecidableEq ι] {cfg : CorpcCfg} {n n' : CorpcNode ι} {e : CorpcEvent ι}

/-- `cch_rc` is an error only if `co_rc` is one, and so is the result of a
completion. -/
structure Synced (n : CorpcNode ι) : Prop where
  cch : n.cchRc ≠ 0 → n.coRc ≠ 0
  completed : ∀ rc ∈ n.completed, (rc ≠ 0 ↔ n.coRc ≠ 0)

omit [DecidableEq ι] in
theorem Synced.result_ne_zero_iff (h : n.cchRc ≠ 0 → n.coRc ≠ 0) : n.result ≠ 0 ↔ n.coRc ≠ 0 := by
  rw [result]
  split_ifs with hco
  · exact iff_of_false (fun hcch => h hcch hco) (not_not.mpr hco)
  · rfl

theorem next_cch (henabled : n.Enabled e) (h : n.cchRc ≠ 0 → n.coRc ≠ 0) :
    (n.next cfg e).cchRc ≠ 0 → (n.next cfg e).coRc ≠ 0 := by
  intro hcch
  rw [next_coRc_iff henabled h]
  cases e with
  | start outcome =>
    cases outcome with
    | fail rc => exact .inr trivial
    | children l => exact .inl (h hcch)
  | create rc =>
    obtain ⟨c, cs, hpc⟩ := henabled
    simp only [next, hpc] at hcch
    by_cases hrc : rc = 0
    · rw [if_pos hrc] at hcch
      exact .inl (h hcch)
    · exact .inr hrc
  | forwardDone | localDone | localReply => exact .inl (h hcch)
  | dispatch rc =>
    rw [next_dispatch_eq] at hcch
    by_cases hrc : rc = 0
    · exact .inl (h (by simpa [hrc] using hcch))
    · exact .inr hrc
  | childReply c cciRc cchRc =>
    obtain ⟨_, _, _, heq⟩ := next_childReply_eq cfg n c cciRc cchRc
    rw [heq] at hcch
    by_cases hrc : cchRc = 0
    · exact .inl (h (by simpa [noteReply, hrc] using hcch))
    · exact .inr (.inr hrc)

/-- When everything is counted, nobody is left to be created, dispatched or
heard of. -/
theorem Counts.quiet_of_counted (h : Counts cfg n) (hc : Counted cfg n) :
    n.todo = [] ∧ n.coChildRpcs = [] ∧ n.pc ≠ .start ∧ n.pc ≠ .dispatch := by
  have hlen := h.len
  have hack := h.ack
  have hfailed := h.failed
  have hlocal := h.local_le
  have hphase := h.phase
  obtain ⟨hdone, hnobody⟩ := hc
  rw [doneNum, waitNum] at hdone
  rw [waitNum] at hnobody
  have hundispatched : cfg.coRootExcluded = false → n.undispatched = 0 := by
    intro hex
    simp only [hex, Bool.false_eq_true, if_false] at hphase hdone hlocal
    omega
  refine ⟨length_eq_zero_iff.mp (by omega), length_eq_zero_iff.mp (by omega), ?_, ?_⟩
  · intro hpc
    by_cases hex : cfg.coRootExcluded = true
    · have := hnobody (by rw [if_pos hex, h.fresh hpc])
      rw [hpc] at this
      cases this
    · have := hundispatched (Bool.not_eq_true _ ▸ hex)
      rw [undispatched, hpc] at this
      cases this
  · intro hpc
    by_cases hex : cfg.coRootExcluded = true
    · exact (h.excluded hex).1 hpc
    · have := hundispatched (Bool.not_eq_true _ ▸ hex)
      rw [undispatched, hpc] at this
      cases this

theorem Inv.not_fails_of_mem_completed (h : Inv cfg n) {rc : ℤ} (hrc : rc ∈ n.completed)
    (henabled : n.Enabled e) : ¬ e.Fails := by
  obtain ⟨htodo, hrpcs, hstart, hdispatch⟩ := h.quiet_of_counted (h.counted_of_mem hrc)
  intro hfails
  cases e with
  | start outcome =>
    cases outcome with
    | fail rc => exact hstart henabled.1
    | children l => exact hfails
  | create rc =>
    obtain ⟨c, cs, hpc⟩ := henabled
    rw [todo, hpc] at htodo
    cases htodo
  | forwardDone | localDone | localReply => exact hfails
  | dispatch rc => exact hdispatch henabled
  | childReply c cciRc cchRc =>
    have hc : c ∈ n.coChildRpcs := henabled
    rw [hrpcs] at hc
    exact not_mem_nil hc

/-- **What a step does to `co_rc`.** -/
theorem coRc_step (h : n.Synced) (henabled : n.Enabled e) (hstep : n.step cfg e = some n') :
    n'.coRc ≠ 0 ↔ n.coRc ≠ 0 ∨ e.Fails := by
  obtain ⟨rc, cs, rfl⟩ := step_fields hstep
  exact next_coRc_iff henabled h.cch

theorem Synced.step (h : n.Synced) (hinv : Inv cfg n) (henabled : n.Enabled e)
    (hstep : n.step cfg e = some n') : n'.Synced := by
  have hco := coRc_step h henabled hstep
  have hcch : (n.next cfg e).cchRc ≠ 0 → (n.next cfg e).coRc ≠ 0 := next_cch henabled h.cch
  -- an earlier completion still agrees, because nothing has failed since
  have hold : ∀ rc ∈ n.completed, (rc ≠ 0 ↔ n'.coRc ≠ 0) := by
    intro rc hrc
    rw [h.completed rc hrc, hco, or_iff_left (hinv.not_fails_of_mem_completed hrc henabled)]
  rcases step_next hstep with rfl | rfl
  · exact ⟨hcch, (next_completed e).symm ▸ hold⟩
  · have hresult := Synced.result_ne_zero_iff hcch
    rw [complete_eq] at hold ⊢
    refine ⟨?_, fun rc hrc => ?_⟩
    · split
      · exact hcch
      · exact hresult.mp
    · rcases mem_append.mp hrc with hrc | hrc
      · exact hold rc (next_completed e ▸ hrc)
      · rw [mem_singleton.mp hrc]
        exact hresult

omit [DecidableEq ι] in
theorem init_synced : (CorpcNode.init ι).Synced :=
  ⟨fun h => absurd rfl h, fun _ h => absurd h not_mem_nil⟩

/-! ### The children that were sent the request -/

/-- The child has been created and sent. -/
def Sent (n : CorpcNode ι) (c : ι) : Prop := c ∈ n.coChildRpcs ∨ c ∈ n.handled

theorem handled_step (hstep : n.step cfg e = some n') {c : ι} (hc : c ∈ n'.handled) :
    c ∈ n.handled ∨ ∃ cciRc cchRc, e = .childReply c cciRc cchRc := by
  obtain ⟨rc, cs, rfl⟩ := step_fields hstep
  by_cases he : ∃ c' cciRc cchRc, e = .childReply c' cciRc cchRc
  · obtain ⟨c', cciRc, cchRc, rfl⟩ := he
    obtain ⟨_, _, _, heq⟩ := next_childReply_eq cfg n c' cciRc cchRc
    have hc' : c ∈ (n.next cfg (.childReply c' cciRc cchRc)).handled := hc
    rw [heq, noteReply, mem_append, mem_singleton] at hc'
    exact hc'.imp_right fun h => ⟨cciRc, cchRc, by rw [h]⟩
  · have hc' : c ∈ (n.next cfg e).handled := hc
    rw [(next_frame e).2.2 fun c' cciRc cchRc h => he ⟨c', cciRc, cchRc, h⟩] at hc'
    exact .inl hc'

theorem Sent.step {c : ι} (hc : n.Sent c) (hstep : n.step cfg e = some n') : n'.Sent c := by
  obtain ⟨rc, cs, rfl⟩ := step_fields hstep
  change (n.next cfg e).Sent c
  cases e with
  | start outcome => cases outcome <;> exact hc
  | create rc =>
    rw [next]
    split
    · split
      · exact hc.imp_left (mem_append_left _)
      · exact hc
    · exact hc
  | forwardDone | localDone | localReply => exact hc
  | dispatch rc =>
    rw [next_dispatch_eq]
    exact hc
  | childReply c' cciRc cchRc =>
    obtain ⟨_, _, _, heq⟩ := next_childReply_eq cfg n c' cciRc cchRc
    rw [heq]
    by_cases hcc : c = c'
    · subst hcc
      exact .inr (mem_append_right _ (mem_singleton_self c))
    · exact hc.imp (mem_erase_of_ne hcc).mpr (mem_append_left _)

end CorpcNode

end Cart
