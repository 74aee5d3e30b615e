/-
Labelled transition systems whose steps can crash.

A step function returns nothing when the program aborts.  An invariant holds in every state
reached (`Invariant.reach`), and if it rules out a crash, no run crashes (`Invariant.safe`).  A
system can be cut down to the steps that satisfy a condition (`restrict`), and a list of events
can be executed (`exec`).
-/
import Mathlib.Tactic

/-- A transition system with states `σ` and events `ε`. -/
structure Lts (σ ε : Type*) where
  init : σ → Prop
  enabled : σ → ε → Prop
  step : σ → ε → Option σ

namespace Lts

variable {σ ε : Type*} {es : List ε} {allowed : σ → ε → Prop} {s s' : σ}

/-- The runs from a state, with the events on the way. -/
inductive Run (M : Lts σ ε) : σ → List ε → σ → Prop
  | nil (s : σ) : Run M s [] s
  | cons {s s' s'' : σ} {e : ε} {es : List ε} (henabled : M.enabled s e)
      (hstep : M.step s e = some s') (hrun : Run M s' es s'') : Run M s (e :: es) s''

section

variable (M : Lts σ ε) (allowed : σ → ε → Prop) (s : σ)

/-- The states reached from an initial one. -/
def Reach : Prop := ∃ s₀ es, M.init s₀ ∧ M.Run s₀ es s

/-- What is reached always satisfies `P`. -/
def Always (P : σ → Prop) : Prop := ∀ s, M.Reach s → P s

/-- No enabled event crashes in a state that is reached. -/
def Safe : Prop :=
  ∀ s, M.Reach s → ∀ e, M.enabled s e → ∃ s', M.step s e = some s'

/-- There is no infinite run. -/
def Terminates : Prop :=
  ∀ f : ℕ → σ, ¬ ∀ i, ∃ e, M.enabled (f i) e ∧ M.step (f i) e = some (f (i + 1))

/-- No event is enabled: a run that got here is complete. -/
def Terminal : Prop := ∀ e, ¬ M.enabled s e

/-- The system with only those steps that satisfy a condition. -/
def restrict : Lts σ ε where
  init := M.init
  enabled s e := M.enabled s e ∧ allowed s e
  step := M.step

instance (e : ε) [Decidable (M.enabled s e)] [Decidable (allowed s e)] :
    Decidable ((M.restrict allowed).enabled s e) :=
  instDecidableAnd

end

/-- `P` holds initially and is kept by every enabled step. -/
structure Invariant (M : Lts σ ε) (P : σ → Prop) : Prop where
  init : ∀ s, M.init s → P s
  step : ∀ s e s', P s → M.enabled s e → M.step s e = some s' → P s'

/-- Executes a list of events, if they are enabled one after the other and none
of them crashes. -/
def exec (M : Lts σ ε) [∀ s e, Decidable (M.enabled s e)] : List ε → σ → Option σ
  | [], s => some s
  | e :: es, s => if M.enabled s e then (M.step s e).bind (M.exec es) else none

variable {M : Lts σ ε} {P : σ → Prop}

theorem Run.eq_of_nil (h : M.Run s [] s') : s' = s := by
  cases h
  rfl

theorem run_of_exec [∀ s e, Decidable (M.enabled s e)]
    (h : M.exec es s = some s') : M.Run s es s' := by
  induction es generalizing s with
  | nil =>
    obtain rfl := Option.some.inj h
    exact .nil s
  | cons e es ih =>
    rw [exec] at h
    split at h
    · rename_i henabled
      obtain ⟨t, hstep, hrest⟩ := Option.bind_eq_some_iff.mp h
      exact .cons henabled hstep (ih hrest)
    · cases h

/-- A run that is computed reaches a state, whose properties are decided. -/
theorem exists_reach_of_exec [∀ s e, Decidable (M.enabled s e)] [DecidablePred P] (es : List ε) (s₀ : σ)
    (hinit : M.init s₀) (h : (M.exec es s₀).any (decide <| P ·) = true) : ∃ s, M.Reach s ∧ P s := by
  obtain ⟨s, hrun, hs⟩ := (Option.any_eq_true _ _).mp h
  exact ⟨s, ⟨s₀, es, hinit, run_of_exec hrun⟩, of_decide_eq_true hs⟩

section

variable (h : M.Invariant P)

include h

theorem Invariant.run (hrun : M.Run s es s') (hs : P s) : P s' := by
  induction hrun with
  | nil s => exact hs
  | cons henabled hstep _ ih => exact ih (h.step _ _ _ hs henabled hstep)

/-- What no step undoes where the invariant holds, no run undoes. -/
theorem Invariant.run_keeps {Q : σ → Prop}
    (hQ : ∀ s e s', P s → Q s → M.enabled s e → M.step s e = some s' → Q s')
    (hrun : M.Run s es s') (hs : P s) (hq : Q s) : Q s' := by
  induction hrun with
  | nil s => exact hq
  | cons henabled hstep _ ih =>
    exact ih (h.step _ _ _ hs henabled hstep) (hQ _ _ _ hs hq henabled hstep)

/-- An invariant holds in every state reached. -/
theorem Invariant.reach (hs : M.Reach s) : P s := by
  obtain ⟨s₀, es, hinit, hrun⟩ := hs
  exact h.run hrun (h.init s₀ hinit)

/-- An invariant that rules out crashes makes the system safe. -/
theorem Invariant.safe (hok : ∀ s e, P s → M.enabled s e → ∃ s', M.step s e = some s') : M.Safe :=
  fun s hs e henabled => hok s e (h.reach hs) henabled

theorem Invariant.restrict (allowed : σ → ε → Prop) : (M.restrict allowed).Invariant P :=
  ⟨h.init, fun s e s' hs henabled hstep => h.step s e s' hs henabled.1 hstep⟩

end

theorem Run.of_restrict (h : (M.restrict allowed).Run s es s') : M.Run s es s' := by
  induction h with
  | nil s => exact .nil s
  | cons henabled hstep _ ih => exact .cons henabled.1 hstep ih

theorem Reach.of_restrict (h : (M.restrict allowed).Reach s) : M.Reach s := by
  obtain ⟨s₀, es, hinit, hrun⟩ := h
  exact ⟨s₀, es, hinit, hrun.of_restrict⟩

/-- A measure that every step lowers bounds all runs. -/
theorem terminates_of_measure {β : Type*} [Preorder β] [WellFoundedLT β] (μ : σ → β)
    (hμ : ∀ s e s', M.enabled s e → M.step s e = some s' → μ s' < μ s) : M.Terminates := by
  intro f hf
  obtain ⟨i, hi⟩ := WellFounded.not_rel_apply_succ (r := (· < ·)) fun i => μ (f i)
  obtain ⟨e, henabled, hstep⟩ := hf i
  exact hi (hμ _ _ _ henabled hstep)

end Lts
