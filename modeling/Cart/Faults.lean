/-
Calls that can meet faults.

A call returns an error code with a value, or does not return at all.  It follows the call
without faults if it comes to the same, up to a projection of the values, unless it met a
fault and says so with an error.

Main results: `Follows.ok`, `Follows.of_faultless`, `Follows.andThen`.
-/
import Mathlib.Tactic

namespace Faults

variable {ε α β α' β' : Type*} {faultless c : Prop} {proj : α → β} {rc rc₁ : ℤ} {a : α}
  {r : Except ε (ℤ × α)}

/-- Calls one after the other: if the last one returns, so does the first. -/
theorem exists_of_bind_eq_ok {r : Except ε α} {next : α → Except ε β} {b : β}
    (h : r.bind next = .ok b) : ∃ a, r = .ok a ∧ next a = .ok b := by
  cases r with
  | error stop => cases h
  | ok a => exact ⟨a, rfl, h⟩

/-- A check in front of a call: it has refused it, or let it pass. -/
theorem guard_cases [Decidable c] {b : α} (h : (if c then .ok (rc₁, a) else r) = .ok (rc, b)) :
    c ∧ rc = rc₁ ∧ b = a ∨ ¬ c ∧ r = .ok (rc, b) := by
  split_ifs at h with hc
  · cases h
    exact .inl ⟨hc, rfl, rfl⟩
  · exact .inr ⟨hc, h⟩

/-- A call that succeeds has passed the checks in front of it. -/
theorem of_guard [Decidable c] {b : α} (h : (if c then .ok (rc₁, a) else r) = .ok (0, b))
    (hrc₁ : c → rc₁ ≠ 0) : ¬ c ∧ r = .ok (0, b) := by
  rcases guard_cases h with ⟨hc, heq, _⟩ | hpass
  · exact absurd heq.symm (hrc₁ hc)
  · exact hpass

/-- `r` comes to the same as `s`, or it met a fault and returns an error. -/
def Follows (faultless : Prop) (proj : α → β) (r : Except ε (ℤ × α)) (s : Except ε (ℤ × β)) : Prop :=
  r.map (Prod.map id proj) = s ∨ ¬ faultless ∧ ∃ rc a, r = .ok (rc, a) ∧ rc ≠ 0

namespace Follows

variable {r : Except ε (ℤ × α)} {s : Except ε (ℤ × β)}

theorem same (rc : ℤ) (a : α) :
    Follows faultless proj (.ok (rc, a) : Except ε (ℤ × α)) (.ok (rc, proj a)) := .inl rfl

theorem stop (stop : ε) : Follows faultless proj (.error stop) (.error stop) := .inl rfl

theorem fault (a : α) (hfault : ¬ faultless) (hrc : rc ≠ 0) :
    Follows faultless proj (.ok (rc, a)) s := .inr ⟨hfault, rc, a, rfl, hrc⟩

/-- A check that both calls make. -/
theorem guard [Decidable c] (h : ¬ c → Follows faultless proj r s) :
    Follows faultless proj (if c then .ok (rc, a) else r) (if c then .ok (rc, proj a) else s) := by
  split
  · exact same rc a
  · exact h ‹_›

/-- A check that only a fault does not pass. -/
theorem pass [Decidable c] (hfault : faultless → ¬ c) (hrc : rc ≠ 0)
    (h : Follows faultless proj r s) : Follows faultless proj (if c then .ok (rc, a) else r) s := by
  split
  · exact fault a (fun hf => hfault hf ‹_›) hrc
  · exact h

section

variable (h : Follows faultless proj r s)

include h

theorem ok (hr : r = .ok (0, a)) : s = .ok (0, proj a) := by
  rcases h with hsame | ⟨_, rc, b, hb, hrc⟩
  · rw [← hsame, hr]
    rfl
  · rw [hr] at hb
    cases hb
    exact absurd rfl hrc

theorem of_faultless (hf : faultless) :
    r.map (Prod.map id proj) = s := h.resolve_right fun hfault => hfault.1 hf

/-- Without faults a value that the other call returns comes from one of this call. -/
theorem exists_of_faultless (hf : faultless) {b : β} (hs : s = .ok (rc, b)) :
    ∃ a, r = .ok (rc, a) ∧ proj a = b := by
  have hmap := h.of_faultless hf
  rw [hs] at hmap
  cases r with
  | error stop => cases hmap
  | ok x =>
    obtain ⟨rc', a⟩ := x
    cases hmap
    exact ⟨a, rfl, rfl⟩

end

theorem mono {faultless' : Prop} (h : Follows faultless' proj r s) (hf : faultless → faultless') :
    Follows faultless proj r s := h.imp_right fun hfault => ⟨fun hp => hfault.1 (hf hp), hfault.2⟩

/-- A call that stops at an error, and goes on otherwise. -/
theorem andThen {next : ℤ × α → Except ε (ℤ × α')} {next' : ℤ × β → Except ε (ℤ × β')}
    {proj' : α' → β'} (h : Follows faultless proj r s)
    (herror : ∀ rc a, rc ≠ 0 → ∃ b, next (rc, a) = .ok (rc, b) ∧ next' (rc, proj a) = .ok (rc, proj' b))
    (hok : ∀ a, r = .ok (0, a) → Follows faultless proj' (next (0, a)) (next' (0, proj a))) :
    Follows faultless proj' (r.bind next) (s.bind next') := by
  rcases h with rfl | ⟨hfault, rc, a, rfl, hrc⟩
  · cases r with
    | error e => exact stop e
    | ok x =>
      obtain ⟨rc, a⟩ := x
      by_cases hrc : rc = 0
      · subst hrc
        exact hok a rfl
      · obtain ⟨b, hnext, hnext'⟩ := herror rc a hrc
        show Follows faultless proj' (next (rc, a)) (next' (rc, proj a))
        rw [hnext, hnext']
        exact same rc b
  · obtain ⟨b, hnext, _⟩ := herror rc a hrc
    show Follows faultless proj' (next (rc, a)) _
    rw [hnext]
    exact fault b hfault hrc

end Follows

end Faults
