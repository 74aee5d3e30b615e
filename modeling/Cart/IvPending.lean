/-
What the fetches of a queue are told (`crt_ivf_pending_reqs_process`).

When the shared fetch has succeeded, each fetch of the queue should be told what its own
callbacks return.  The loop carries `rc_value` from one fetch to the next: a fetch of the node
itself whose `ivo_on_get` fails leaves its error there, for everyone behind it.

Main result: `pending_outcome_iff`.
-/
import Cart.IvFetch

open List

namespace Cart

open IvAct

variable {V : Type} {rcValue : ℤ}

/-- What the callbacks of a fetch have returned: success with the value, or the
error of the one that failed. -/
def PendingEnv.ownOutcome (env : PendingEnv V) : ℤ × Option V :=
  if env.onGetRc ≠ 0 then (env.onGetRc, none)
  else if env.onFetchRc ≠ 0 then (env.onFetchRc, none)
  else (0, some env.value)

/-- What an action tells the one who asked. -/
def IvAct.delivers (bciRc : ℤ) : IvAct V → Option (ℤ × Option V)
  | .compCb rc value => some (rc, value)
  | .reply rc => some (rc, none)
  | .transfer _ value => some (bciRc, if bciRc = 0 then some value else none)
  | .get _ _ | .put _ | .transferred _ => none

/-- The value gets to the child. -/
def TransferEnv.Succeeds (env : TransferEnv) (bciRc : ℤ) : Prop :=
  env.bulkCreateRc = 0 ∧ env.cbInfoAllocated = true ∧ env.transferRc = 0 ∧ bciRc = 0

section

variable (env : IvFetch → PendingEnv V) (bci : IvFetch → ℤ) (f : IvFetch)

/-- The fetch is one of the node itself, and cannot get its buffer. -/
def Poisons : Bool :=
  !f.child && decide ((env f).onGetRc ≠ 0)

/-- What a fetch needs that finds `rc_value` 0. -/
def Served : Prop :=
  (env f).onGetRc = 0 →
    if f.child then (env f).onFetchRc = 0 → (env f).transfer.Succeeds (bci f)
    else (env f).onFetchRc = 0

/-- What the fetches of a round are told is their own outcome. -/
def TellsOwn (done : List (IvFetch × List (IvAct V))) : Prop :=
  ∀ d ∈ done, d.2.filterMap (delivers (bci d.1)) = [(env d.1).ownOutcome]

end

section Round

variable {env : IvFetch → PendingEnv V} {bci : IvFetch → ℤ} {f : IvFetch}

theorem delivers_of_ne_zero (hrc : rcValue ≠ 0) (child : Bool) (penv : PendingEnv V)
    (bciRc : ℤ) : ((pendingStep child rcValue penv).1.filterMap (delivers bciRc) =
      [(rcValue, none)]) ∧ (pendingStep child rcValue penv).2 = rcValue := by
  rw [pendingStep]
  cases child with
  | true =>
    rw [if_pos rfl, if_pos hrc]
    exact ⟨rfl, rfl⟩
  | false =>
    rw [if_neg Bool.false_ne_true, if_pos hrc]
    exact ⟨rfl, rfl⟩

theorem process_of_ne_zero (hrc : rcValue ≠ 0) (queue : List IvFetch) :
    TellsOwn env bci (crtIvfPendingReqsProcess env rcValue queue) ↔
      ∀ g ∈ queue, (env g).ownOutcome = (rcValue, none) := by
  induction queue with
  | nil => exact iff_of_true (forall_mem_nil _) (forall_mem_nil _)
  | cons g queue ih =>
    obtain ⟨hdelivers, hnext⟩ := delivers_of_ne_zero hrc g.child (env g) (bci g)
    rw [crtIvfPendingReqsProcess]
    simp only [hnext]
    rw [TellsOwn, forall_mem_cons, forall_mem_cons, hdelivers, ← ih]
    refine and_congr_left fun _ => ?_
    rw [List.cons.injEq]
    exact ⟨fun h => h.1.symm, fun h => ⟨h.symm, rfl⟩⟩

theorem delivers_transfer (value : V) (tenv : TransferEnv) (bciRc : ℤ) :
    (crtIvfBulkTransfer .pending value tenv).2.filterMap (delivers bciRc) =
        [(0, some value)] ↔ tenv.Succeeds bciRc := by
  rw [crtIvfBulkTransfer, TransferEnv.Succeeds]
  split_ifs with hcreate halloc hstart
  · exact iff_of_false (by simp) fun h => hcreate h.1
  · refine iff_of_false (by simp [delivers]) fun h => ?_
    rw [halloc] at h
    exact Bool.false_ne_true h.2.1
  · exact iff_of_false (by simp [delivers]) fun h => hstart h.2.2.1
  · by_cases hbci : bciRc = 0
    · refine iff_of_true (by simp [delivers, hbci]) ⟨not_not.mp hcreate, ?_, not_not.mp hstart,
        hbci⟩
      exact Bool.eq_true_of_not_eq_false halloc
    · exact iff_of_false (by simp [delivers, hbci]) fun h => hbci h.2.2.2

theorem delivers_child (penv : PendingEnv V) (bciRc : ℤ) :
    ((pendingStep true 0 penv).1.filterMap (delivers bciRc) = [penv.ownOutcome] ↔
      (penv.onGetRc = 0 → penv.onFetchRc = 0 → penv.transfer.Succeeds bciRc)) ∧
      (pendingStep true 0 penv).2 = 0 := by
  rw [pendingStep, if_pos rfl, if_neg (not_not.mpr rfl), PendingEnv.ownOutcome]
  by_cases hget : penv.onGetRc = 0
  · rw [if_neg (not_not.mpr hget), if_neg (not_not.mpr hget)]
    by_cases hfetch : penv.onFetchRc = 0
    · rw [if_neg (not_not.mpr hfetch), if_neg (not_not.mpr hfetch)]
      refine ⟨?_, rfl⟩
      rw [← delivers_transfer penv.value]
      exact ⟨fun h _ _ => h, fun h => h hget hfetch⟩
    · rw [if_pos hfetch, if_pos hfetch]
      exact ⟨iff_of_true rfl fun _ h => absurd h hfetch, rfl⟩
  · rw [if_pos hget, if_pos hget]
    exact ⟨iff_of_true rfl fun h => absurd h hget, rfl⟩

theorem delivers_local (penv : PendingEnv V) (bciRc : ℤ) :
    ((pendingStep false 0 penv).1.filterMap (delivers bciRc) = [penv.ownOutcome] ↔
      (penv.onGetRc = 0 → penv.onFetchRc = 0)) ∧
      (pendingStep false 0 penv).2 = penv.onGetRc := by
  rw [pendingStep, if_neg Bool.false_ne_true, if_neg (not_not.mpr rfl), PendingEnv.ownOutcome]
  by_cases hget : penv.onGetRc = 0
  · rw [if_neg (not_not.mpr hget), if_neg (not_not.mpr hget)]
    refine ⟨?_, hget.symm⟩
    by_cases hfetch : penv.onFetchRc = 0
    · rw [if_neg (not_not.mpr hfetch)]
      exact iff_of_true rfl fun _ => hfetch
    · rw [if_pos hfetch]
      refine iff_of_false ?_ fun h => hfetch (h hget)
      show [((0 : ℤ), some penv.value)] ≠ [(penv.onFetchRc, none)]
      simp
  · rw [if_pos hget, if_pos hget]
    exact ⟨iff_of_true rfl fun h => absurd h hget, rfl⟩

/-- The first fetch of a queue is told its own outcome if it is served. -/
theorem process_cons (f : IvFetch) (queue : List IvFetch) :
    TellsOwn env bci (crtIvfPendingReqsProcess env 0 (f :: queue)) ↔
      Served env bci f ∧ TellsOwn env bci (crtIvfPendingReqsProcess env
        (if Poisons env f then (env f).onGetRc else 0) queue) := by
  rw [crtIvfPendingReqsProcess, TellsOwn, Served, Poisons]
  cases f.child with
  | true =>
    obtain ⟨hdelivers, hnext⟩ := delivers_child (env f) (bci f)
    simp only [hnext]
    rw [forall_mem_cons, hdelivers]
    rfl
  | false =>
    obtain ⟨hdelivers, hnext⟩ := delivers_local (env f) (bci f)
    have hrc : (if (!false && decide ((env f).onGetRc ≠ 0)) = true then (env f).onGetRc else 0) =
        (env f).onGetRc := by
      by_cases hget : (env f).onGetRc = 0
      · simp [hget]
      · simp [hget]
    rw [hrc]
    simp only [hnext]
    rw [forall_mem_cons, hdelivers]
    rfl

end Round

/-- **Pending outcomes** are each fetch's own exactly if those before the first own one without
a buffer are served, and those behind it have its error. -/
theorem pending_outcome_iff (env : IvFetch → PendingEnv V) (bci : IvFetch → ℤ)
    (queue : List IvFetch) :
    TellsOwn env bci (crtIvfPendingReqsProcess env 0 queue) ↔
      (∀ f ∈ queue.takeWhile fun f => !Poisons env f, Served env bci f) ∧
        ∀ f rest, (queue.dropWhile fun f => !Poisons env f) = f :: rest →
          ∀ g ∈ rest, (env g).ownOutcome = (env f).ownOutcome := by
  induction queue with
  | nil => exact iff_of_true (forall_mem_nil _) ⟨forall_mem_nil _, by simp⟩
  | cons f queue ih =>
    rw [process_cons]
    by_cases hpoisons : Poisons env f = true
    · have hget : (env f).onGetRc ≠ 0 := by
        simp only [Poisons, Bool.and_eq_true, decide_eq_true_eq] at hpoisons
        exact hpoisons.2
      have hown : (env f).ownOutcome = ((env f).onGetRc, none) := if_pos hget
      have hserved : Served env bci f := fun h => absurd h hget
      rw [if_pos hpoisons, process_of_ne_zero hget, takeWhile_cons_of_neg (by simp [hpoisons]),
        dropWhile_cons_of_neg (by simp [hpoisons])]
      refine ⟨fun h => ⟨forall_mem_nil _, ?_⟩, fun h => ⟨hserved, ?_⟩⟩
      · rintro _ _ ⟨⟩ g hg
        rw [h.2 g hg, hown]
      · intro g hg
        rw [h.2 f queue rfl g hg, hown]
    · rw [if_neg hpoisons, ih, takeWhile_cons_of_pos (by simp [hpoisons]),
        dropWhile_cons_of_pos (by simp [hpoisons]), forall_mem_cons, and_assoc]

/-- A child is told the error of the node's own fetch before it. -/
theorem pending_error_passed_on :
    let own : IvFetch := ⟨0, false, 0, .null⟩
    let child : IvFetch := ⟨1, true, 0, .null⟩
    let env : IvFetch → PendingEnv ℕ := fun f =>
      ⟨if f.child then 0 else -derNomem, 0, 5, ⟨0, true, 0⟩⟩
    (env child).ownOutcome = (0, some 5) ∧
      (child, [.reply (-derNomem)]) ∈ crtIvfPendingReqsProcess env 0 [own, child] := by
  decide

end Cart
