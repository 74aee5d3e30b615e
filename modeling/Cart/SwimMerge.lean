/-
Merging updates about a member.

The incarnation and whether it is dead make up a verdict, in the lexicographic order.  An
update has a verdict too, and applying it takes the larger of the two (`verdict_merge`); only
between alive and suspect the last update decides (`merges_status`).

Main result: `swim_merge_closed_form`.
-/
import Cart.SwimSpec

open List

namespace Cart

/-! ### Maxima of lists -/

theorem foldl_max_le_iff {α : Type} [LinearOrder α] (l : List α) (a b : α) :
    l.foldl max a ≤ b ↔ a ≤ b ∧ ∀ x ∈ l, x ≤ b := by
  induction l generalizing a with
  | nil => simp
  | cons x l ih =>
    rw [foldl_cons, ih, max_le_iff]
    simp [and_assoc]

theorem foldl_max_mem {α : Type} [LinearOrder α] (l : List α) (a : α) :
    l.foldl max a = a ∨ l.foldl max a ∈ l := by
  induction l generalizing a with
  | nil => exact .inl rfl
  | cons x l ih =>
    rw [foldl_cons]
    rcases ih (max a x) with h | h
    · rcases max_choice a x with ha | hx
      · exact .inl (h.trans ha)
      · exact .inr (mem_cons.mpr (.inl (h.trans hx)))
    · exact .inr (mem_cons_of_mem x h)

/-! ### Verdicts -/

/-- An update about some member. -/
structure SwimCall where
  kind : UpdateKind
  frm : ℕ
  nr : ℕ
  env : CallEnv

/-- The part of a state that the order of updates does not matter for. -/
def SwimMemberState.verdict (state : SwimMemberState) : ℕ ×ₗ Bool :=
  toLex (state.smsIncarnation, decide (state.smsStatus = .dead))

def SwimCall.verdict (u : SwimCall) : ℕ ×ₗ Bool := toLex (u.nr, decide (u.kind = .dead))

/-- The state after a sequence of updates. -/
def SwimMemberState.merges (state : SwimMemberState) (us : List SwimCall) : SwimMemberState :=
  us.foldl (fun s u => s.merge u.kind u.nr) state

open SwimMemberState

theorem verdict_merge (state : SwimMemberState) (u : SwimCall) :
    (state.merge u.kind u.nr).verdict = max state.verdict u.verdict := by
  have hkind : u.kind.status = .dead ↔ u.kind = .dead := by
    cases u.kind <;> simp [UpdateKind.status]
  rw [SwimMemberState.merge]
  split_ifs with hig
  · refine (max_eq_left ?_).symm
    obtain ⟨hle, hor⟩ := hig
    rw [SwimCall.verdict, verdict, Prod.Lex.toLex_le_toLex]
    rcases lt_or_eq_of_le hle with hlt | heq
    · exact .inl hlt
    · refine .inr ⟨heq, ?_⟩
      -- with the same incarnation, the member is dead or says the same
      rcases hor with hdead | hsame | hlt
      · simp [hdead]
      · simp [hsame, hkind]
      · exact absurd heq hlt.ne
  · have hnew : (⟨u.nr, u.kind.status⟩ : SwimMemberState).verdict = u.verdict := by
      rw [verdict, SwimCall.verdict]
      simp [hkind]
    rw [hnew]
    refine (max_eq_right ?_).symm
    rw [SwimCall.verdict, verdict, Prod.Lex.toLex_le_toLex]
    rcases lt_trichotomy state.smsIncarnation u.nr with hlt | heq | hgt
    · exact .inl hlt
    · refine .inr ⟨heq, ?_⟩
      have hnot : state.smsStatus ≠ .dead := fun hdead => hig ⟨heq.ge, .inl hdead⟩
      simp [hnot]
    · exact absurd ⟨hgt.le, .inr (.inr hgt)⟩ hig

section

variable (state : SwimMemberState) (us : List SwimCall)

include state us

theorem verdict_merges :
    (state.merges us).verdict = (us.map SwimCall.verdict).foldl max state.verdict := by
  induction us generalizing state with
  | nil => rfl
  | cons u us ih =>
    rw [map_cons, foldl_cons, ← verdict_merge]
    exact ih _

/-- The incarnation of a maximal verdict is the maximal incarnation. -/
theorem merges_incarnation :
    (state.merges us).smsIncarnation = (us.map SwimCall.nr).foldl max state.smsIncarnation := by
  induction us generalizing state with
  | nil => rfl
  | cons u us ih =>
    rw [map_cons, foldl_cons]
    have hone : (state.merge u.kind u.nr).smsIncarnation = max state.smsIncarnation u.nr := by
      rw [SwimMemberState.merge]
      split_ifs with hig
      · exact (max_eq_left hig.1).symm
      · refine (max_eq_right ?_).symm
        by_contra hlt
        exact hig ⟨(not_le.mp hlt).le, .inr (.inr (not_le.mp hlt))⟩
    rw [← hone]
    exact ih _

/-- A member is dead if somebody says so with the last incarnation. -/
theorem merges_dead_iff : (state.merges us).smsStatus = .dead ↔
      (∃ u ∈ us, u.kind = .dead ∧ u.nr = (state.merges us).smsIncarnation) ∨
        state.smsStatus = .dead ∧ state.smsIncarnation = (state.merges us).smsIncarnation := by
  have hv := verdict_merges state us
  have hle := (foldl_max_le_iff (us.map SwimCall.verdict) state.verdict _).mp hv.ge
  constructor
  · intro hdead
    -- the maximum is attained, at the initial state or at an update
    rcases foldl_max_mem (us.map SwimCall.verdict) state.verdict with h | h
    · rw [← hv] at h
      have h' := Prod.mk.inj (toLex.injective h)
      refine .inr ⟨?_, h'.1.symm⟩
      have hsnd := h'.2
      rw [hdead] at hsnd
      simpa using hsnd.symm
    · rw [← hv] at h
      obtain ⟨u, hu, heq⟩ := mem_map.mp h
      have h' := Prod.mk.inj (toLex.injective heq)
      refine .inl ⟨u, hu, ?_, h'.1⟩
      have hsnd := h'.2
      rw [hdead] at hsnd
      simpa using hsnd
  · -- a dead verdict with the last incarnation is not exceeded
    have key : ∀ v : ℕ ×ₗ Bool, v ≤ (state.merges us).verdict →
        v = toLex ((state.merges us).smsIncarnation, true) → (state.merges us).smsStatus = .dead := by
      rintro v hv' rfl
      rw [verdict, Prod.Lex.toLex_le_toLex] at hv'
      rcases hv' with hlt | ⟨_, hb⟩
      · exact absurd hlt (lt_irrefl _)
      · by_contra hnot
        rw [decide_eq_false hnot] at hb
        exact absurd hb (by simp)
    rintro (⟨u, hu, hkind, hnr⟩ | ⟨hst, hinc⟩)
    · refine key u.verdict (hle.2 _ (mem_map_of_mem hu)) ?_
      simp [SwimCall.verdict, hkind, hnr]
    · refine key state.verdict hle.1 ?_
      rw [verdict, hinc, hst]
      simp

/-- Between alive and suspect the last update with the last incarnation decides. -/
theorem merges_status (halive : (state.merges us).smsStatus ≠ .dead) : (state.merges us).smsStatus =
      match us.reverse.find? fun u => u.kind ≠ .dead ∧ u.nr = (state.merges us).smsIncarnation with
      | some u => u.kind.status
      | none => state.smsStatus := by
  induction us using reverseRecOn with
  | nil => rfl
  | append_singleton us u ih =>
    have hstep : state.merges (us ++ [u]) = (state.merges us).merge u.kind u.nr := by
      simp [merges]
    rw [hstep, SwimMemberState.merge] at halive ⊢
    rw [reverse_append, reverse_singleton, singleton_append]
    split_ifs at halive with hig
    · rw [if_pos hig]
      by_cases hfound : u.kind ≠ .dead ∧ u.nr = (state.merges us).smsIncarnation
      · -- it was ignored since it says the same
        rw [find?_cons_of_pos (by simpa using hfound)]
        exact (hig.2.resolve_left halive).resolve_right (not_lt.mpr hfound.2.ge)
      · rw [find?_cons_of_neg (by simpa using hfound)]
        exact ih halive
    · rw [if_neg hig]
      have hkind : u.kind ≠ .dead := fun h => halive (by rw [h]; rfl)
      rw [find?_cons_of_pos (by simpa using hkind)]

end

namespace SwimContext

/-- The calls for a sequence of updates about `id`. -/
def applyCalls (id : ℕ) (us : List SwimCall) (ctx : SwimContext) : SwimContext :=
  us.foldl (fun ctx u => (ctx.swimMember u.kind u.env u.frm id u.nr).2) ctx

theorem applyCalls_members {ctx : SwimContext} {id : ℕ} {state : SwimMemberState} {us : List SwimCall}
    (hid : ctx.members id = some state) (halloc : ∀ u ∈ us, u.env.allocSuspect = true) :
    (ctx.applyCalls id us).members id = some (state.merges us) := by
  induction us generalizing ctx state with
  | nil => exact hid
  | cons u us ih =>
    exact ih (merge_eq hid (halloc u mem_cons_self)) fun u' hu' =>
      halloc u' (mem_cons_of_mem u hu')

end SwimContext

/-- **SWIM state merge**: the incarnation is the maximum `M` of all; the member is dead iff
somebody said so with `M`. -/
theorem swim_merge_closed_form (ctx : SwimContext) (id : ℕ) (state : SwimMemberState)
    (hid : ctx.members id = some state) (us : List SwimCall)
    (halloc : ∀ u ∈ us, u.env.allocSuspect = true) :
    ∃ final, (ctx.applyCalls id us).members id = some final ∧
      final.smsIncarnation = (us.map SwimCall.nr).foldl max state.smsIncarnation ∧
      (final.smsStatus = .dead ↔
        (∃ u ∈ us, u.kind = .dead ∧ u.nr = final.smsIncarnation) ∨
          state.smsStatus = .dead ∧ state.smsIncarnation = final.smsIncarnation) ∧
      (final.smsStatus ≠ .dead → final.smsStatus =
        match us.reverse.find? fun u => u.kind ≠ .dead ∧ u.nr = final.smsIncarnation with
        | some u => u.kind.status
        | none => state.smsStatus) ∧
      state.smsIncarnation ≤ final.smsIncarnation ∧
      (state.smsStatus = .dead → final.smsStatus ≠ .dead →
        state.smsIncarnation < final.smsIncarnation) ∧
      ∀ us' : List SwimCall, (∀ u ∈ us', u.env.allocSuspect = true) →
        (∀ kind nr, (∃ u ∈ us, u.kind = kind ∧ u.nr = nr) ↔ ∃ u ∈ us', u.kind = kind ∧ u.nr = nr) →
        ∃ final', (ctx.applyCalls id us').members id = some final' ∧
          final'.smsIncarnation = final.smsIncarnation ∧
          (final'.smsStatus = .dead ↔ final.smsStatus = .dead) := by
  have hle : state.smsIncarnation ≤ (state.merges us).smsIncarnation := by
    rw [merges_incarnation]
    exact ((foldl_max_le_iff _ _ _).mp le_rfl).1
  refine ⟨state.merges us, SwimContext.applyCalls_members hid halloc, merges_incarnation state us,
    merges_dead_iff state us, merges_status state us, hle, fun hdead hnot => ?_, fun us' halloc' hset => ?_⟩
  · exact lt_of_le_of_ne hle fun heq => hnot ((merges_dead_iff state us).mpr (.inr ⟨hdead, heq⟩))
  · have hinc : (state.merges us').smsIncarnation = (state.merges us).smsIncarnation := by
      -- both are the least upper bound of the same incarnations
      refine eq_of_forall_ge_iff fun m => ?_
      rw [merges_incarnation, merges_incarnation, foldl_max_le_iff, foldl_max_le_iff]
      refine and_congr_right fun _ => ⟨fun h n hn => ?_, fun h n hn => ?_⟩
      · obtain ⟨u, hu, rfl⟩ := List.mem_map.mp hn
        obtain ⟨u', hu', _, hnr⟩ := (hset u.kind u.nr).mp ⟨u, hu, rfl, rfl⟩
        exact h _ (List.mem_map.mpr ⟨u', hu', hnr⟩)
      · obtain ⟨u, hu, rfl⟩ := List.mem_map.mp hn
        obtain ⟨u', hu', _, hnr⟩ := (hset u.kind u.nr).mpr ⟨u, hu, rfl, rfl⟩
        exact h _ (List.mem_map.mpr ⟨u', hu', hnr⟩)
    refine ⟨state.merges us', SwimContext.applyCalls_members hid halloc', hinc, ?_⟩
    rw [merges_dead_iff, merges_dead_iff, hinc, hset]

/-- Every allocation succeeds. -/
def plentyEnv : CallEnv := ⟨0, true, true⟩

/-- A member refutes a suspicion, is declared dead, and does not come back. -/
theorem swim_merge_refuted_and_killed : ∃ final,
    ((SwimContext.swimInit 0 threeMembers).applyCalls 1 [⟨.suspect, 2, 0, plentyEnv⟩,
      ⟨.alive, 1, 1, plentyEnv⟩, ⟨.dead, 2, 1, plentyEnv⟩, ⟨.alive, 1, 1, plentyEnv⟩]).members 1 =
        some final ∧ final.smsIncarnation = 1 ∧ final.smsStatus = .dead := by
  obtain ⟨final, hfinal, hinc, hdead, _⟩ := swim_merge_closed_form (.swimInit 0 threeMembers) 1
    ⟨0, .alive⟩ rfl [⟨.suspect, 2, 0, plentyEnv⟩, ⟨.alive, 1, 1, plentyEnv⟩, ⟨.dead, 2, 1, plentyEnv⟩,
      ⟨.alive, 1, 1, plentyEnv⟩] (by simp [plentyEnv])
  have hone : final.smsIncarnation = 1 := hinc.trans (by simp)
  exact ⟨final, hfinal, hone, hdead.mpr (.inl (by simp [hone]))⟩

end Cart
