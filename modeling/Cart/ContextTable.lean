/-
Creation and destruction of contexts (`crt_context.c`).

The library keeps its contexts in a list and their number in a counter, which is also the
index of the next context.  A step is one call; what it meets is up to the environment.

Main results: `context_identity_iff`, `context_identity_broken`.
-/
import Cart.Basic
import Cart.KeyedList
import Cart.Lts

open List Option

namespace Cart

open KeyedList

def crtSwimFlushAttempts : ℕ := 10

/-- A context in the list: where it is in memory, and its index. -/
structure CtxEntry where
  addr : ℕ
  ccIdx : ℤ
  deriving DecidableEq, Repr

/-- The part of `struct crt_gdata` that concerns contexts. -/
structure CtxTable where
  cgShareNa : Bool
  cgCtxMaxNum : ℕ
  cgCtxNum : ℤ
  cgCtxList : List CtxEntry
  deriving DecidableEq, Repr

/-- What the calls of `crt_context_destroy` return. -/
structure CtxDestroyEnv where
  ctxInvalidRc : ℤ
  traverseRc : ℕ → ℤ
  flushRc : ℕ → ℤ
  tableRc : ℤ
  hgDestroyRc : ℤ

/-- What the calls of `crt_context_create` return. -/
structure CtxCreateEnv where
  -- whether `crt_ctx` is not `NULL`
  crtCtx : Bool
  -- the memory for the context
  ctx : Option ℕ
  initRc : ℤ
  hgCreateRc : ℤ
  poolRc : ℤ
  destroy : CtxDestroyEnv

/-- The loop of `crt_context_destroy`: the result of its last call, and how many
rounds there were. -/
def CtxDestroyEnv.abortLoop (env : CtxDestroyEnv) : ℕ → ℕ → ℤ → ℤ × ℕ
  | 0, i, rc => (rc, i)
  | n + 1, i, _ => if env.traverseRc i = 0 then (0, i) else env.abortLoop n (i + 1) (env.flushRc i)

namespace CtxTable

/-- For the context at `ctx`. `hgctx` says whether it has a Mercury context (`chc_hgctx`). -/
def crtContextDestroy (env : CtxDestroyEnv) (force hgctx : Bool) (ctx : ℕ) (s : CtxTable) :
    Option (ℤ × CtxTable) :=
  if env.ctxInvalidRc ≠ 0 ∧ force = false then some (env.ctxInvalidRc, s)
  else
    let (rc, i) := env.abortLoop crtSwimFlushAttempts 0 env.ctxInvalidRc
    if force = false ∧ rc ≠ 0 ∧ i = crtSwimFlushAttempts then some (rc, s)
    else if env.tableRc ≠ 0 ∧ force = false then some (env.tableRc, s)
    else if hgctx = false then none
    else if env.hgDestroyRc ≠ 0 then some (env.hgDestroyRc, s)
    else some (0, { s with
      cgCtxNum := s.cgCtxNum - 1, cgCtxList := eraseAt CtxEntry.addr ctx s.cgCtxList })

variable (s : CtxTable)

/-- The limit for contexts that share an address; the comparison is without sign. -/
def AtLimit : Prop :=
  s.cgShareNa = true ∧ (s.cgCtxMaxNum : ℤ) ≤ s.cgCtxNum % 2 ^ 32
deriving Decidable

/-- The code, and `*crt_ctx`. At the limit `D_GOTO(out, -DER_AGAIN)` does not set `rc`. -/
def crtContextCreate (env : CtxCreateEnv) (s : CtxTable) : Option (ℤ × Option ℕ × CtxTable) :=
  if env.crtCtx = false then some (-derInval, none, s)
  else if s.AtLimit then some (0, none, s)
  else
    match env.ctx with
    | none => some (-derNomem, none, s)
    | some ctx =>
      if env.initRc ≠ 0 then some (env.initRc, none, s)
      else if env.hgCreateRc ≠ 0 then
        (s.crtContextDestroy env.destroy true false ctx).map fun (_, s) => (env.hgCreateRc, none, s)
      else if env.poolRc ≠ 0 then
        (s.crtContextDestroy env.destroy true true ctx).map fun (_, s) => (env.poolRc, none, s)
      else some (0, some ctx, { s with
        cgCtxNum := s.cgCtxNum + 1, cgCtxList := s.cgCtxList ++ [⟨ctx, s.cgCtxNum⟩] })

/-- `crt_context_lookup_locked`. -/
def crtContextLookup (ctxIdx : ℤ) : Option CtxEntry :=
  s.cgCtxList.find? fun ctx => ctx.ccIdx = ctxIdx

/-- The calls. -/
inductive Event where
  | create (env : CtxCreateEnv)
  | destroy (env : CtxDestroyEnv) (force : Bool) (ctx : ℕ)

/-- New memory is at an address of its own, and what is destroyed is live. -/
def Enabled : Event → Prop
  | .create env => ∀ ctx ∈ env.ctx, ctx ∉ s.cgCtxList.map CtxEntry.addr
  | .destroy _ _ ctx => ctx ∈ s.cgCtxList.map CtxEntry.addr

instance (e : Event) : Decidable (s.Enabled e) := by
  cases e <;> dsimp only [Enabled] <;> infer_instance

def step : Event → Option CtxTable
  | .create env => (s.crtContextCreate env).map fun (_, _, s) => s
  | .destroy env force ctx => (s.crtContextDestroy env force true ctx).map Prod.snd

/-- The counter counts the live contexts, and an index belongs to one of them. -/
structure Sound (s : CtxTable) : Prop where
  count : s.cgCtxNum = s.cgCtxList.length
  distinct : (s.cgCtxList.map CtxEntry.ccIdx).Nodup
  lookup : ∀ ctx ∈ s.cgCtxList, s.crtContextLookup ctx.ccIdx = some ctx

/-- Soundness is kept, and creation reports success just when it has handed out a context. -/
def StepSound : Event → Prop
  | .create env => ∃ rc handle s', s.crtContextCreate env = some (rc, handle, s') ∧ s'.Sound ∧
      (rc = 0 ↔ ∃ ctx, handle = some ctx ∧ ∃ i, s'.cgCtxList = s.cgCtxList ++ [⟨ctx, i⟩])
  | .destroy env force ctx => ∃ rc s', s.crtContextDestroy env force true ctx = some (rc, s') ∧
      s'.Sound

/-- No creation at the limit or with a counter that is a live index, and Mercury fails in making
the pool, if at all. -/
def Orderly : Event → Prop
  | .create env => env.crtCtx = true → ¬ s.AtLimit ∧
      ∀ ctx ∈ env.ctx, env.initRc = 0 →
        env.hgCreateRc = 0 ∧ (env.poolRc ≠ 0 → env.destroy.hgDestroyRc ≠ 0) ∧
          (env.poolRc = 0 → s.cgCtxNum ∉ s.cgCtxList.map CtxEntry.ccIdx)
  | .destroy _ _ _ => True

end CtxTable

/-- The runs of the library as far as its contexts are concerned. -/
@[reducible]
def ctxTableLts : Lts CtxTable CtxTable.Event where
  init s := s.cgCtxNum = 0 ∧ s.cgCtxList = []
  enabled := CtxTable.Enabled
  step := CtxTable.step

namespace CtxTable

variable {s s' : CtxTable} {ctx : ℕ}

/-! ### Destruction -/

open CtxEntry

/-- A forced destruction goes as far as Mercury. -/
theorem crtContextDestroy_force (env : CtxDestroyEnv) (hgctx : Bool) (ctx : ℕ) (s : CtxTable) :
    s.crtContextDestroy env true hgctx ctx =
      if hgctx = false then none
      else if env.hgDestroyRc ≠ 0 then some (env.hgDestroyRc, s)
      else some (0, { s with
        cgCtxNum := s.cgCtxNum - 1, cgCtxList := eraseAt addr ctx s.cgCtxList }) := by
  unfold crtContextDestroy
  rw [if_neg (fun hc => Bool.noConfusion hc.2)]
  dsimp only
  rw [if_neg (fun hc => Bool.noConfusion hc.1), if_neg (fun hc => Bool.noConfusion hc.2)]

theorem crtContextDestroy_cases (env : CtxDestroyEnv) (force : Bool) (ctx : ℕ) (s : CtxTable) :
    ∃ rc s', s.crtContextDestroy env force true ctx = some (rc, s') ∧
      (s' = s ∨ s' = { s with
        cgCtxNum := s.cgCtxNum - 1, cgCtxList := eraseAt addr ctx s.cgCtxList }) := by
  unfold crtContextDestroy
  by_cases hinvalid : env.ctxInvalidRc ≠ 0 ∧ force = false
  · rw [if_pos hinvalid]
    exact ⟨_, s, rfl, .inl rfl⟩
  rw [if_neg hinvalid]
  dsimp only
  by_cases habort : force = false ∧
      (env.abortLoop crtSwimFlushAttempts 0 env.ctxInvalidRc).1 ≠ 0 ∧
      (env.abortLoop crtSwimFlushAttempts 0 env.ctxInvalidRc).2 = crtSwimFlushAttempts
  · rw [if_pos habort]
    exact ⟨_, s, rfl, .inl rfl⟩
  rw [if_neg habort]
  by_cases htable : env.tableRc ≠ 0 ∧ force = false
  · rw [if_pos htable]
    exact ⟨_, s, rfl, .inl rfl⟩
  rw [if_neg htable, if_neg (fun hc => Bool.noConfusion hc)]
  split_ifs with hhg
  · exact ⟨_, s, rfl, .inl rfl⟩
  exact ⟨0, _, rfl, .inr rfl⟩

/-! ### Soundness -/

/-- With distinct indices a lookup finds the context that was meant. -/
theorem lookup_of_distinct (hnodup : (s.cgCtxList.map ccIdx).Nodup) {ctx : CtxEntry}
    (hctx : ctx ∈ s.cgCtxList) : s.crtContextLookup ctx.ccIdx = some ctx := by
  rw [crtContextLookup]
  generalize s.cgCtxList = l at hnodup hctx
  induction l with
  | nil => cases hctx
  | cons c l ih =>
    obtain ⟨hc, hl⟩ := nodup_cons.mp hnodup
    rw [find?_cons]
    rcases mem_cons.mp hctx with rfl | hmem
    · rw [decide_eq_true rfl]
    · have hne : c.ccIdx ≠ ctx.ccIdx := fun heq => hc (heq ▸ mem_map_of_mem hmem)
      rw [decide_eq_false hne]
      exact ih hl hmem

/-- What every orderly step keeps. -/
structure Inv (s : CtxTable) : Prop where
  count : s.cgCtxNum = s.cgCtxList.length
  distinct : (s.cgCtxList.map CtxEntry.ccIdx).Nodup
  apart : (s.cgCtxList.map CtxEntry.addr).Nodup

theorem Inv.sound (h : s.Inv) : s.Sound :=
  ⟨h.count, h.distinct, fun _ hctx => lookup_of_distinct h.distinct hctx⟩

theorem Inv.erase (h : s.Inv) (hctx : ctx ∈ s.cgCtxList.map addr) :
    Inv { s with cgCtxNum := s.cgCtxNum - 1, cgCtxList := eraseAt addr ctx s.cgCtxList } := by
  obtain ⟨c, hc, rfl⟩ := mem_map.mp hctx
  have hlen := (perm_cons_eraseAt h.apart hc).length_eq
  rw [length_cons] at hlen
  refine ⟨?_, h.distinct.sublist (eraseAt_sublist.map _), h.apart.sublist (eraseAt_sublist.map _)⟩
  rw [h.count, hlen]
  push_cast
  omega

theorem Inv.destroy (h : s.Inv) (hctx : ctx ∈ s.cgCtxList.map addr) (env : CtxDestroyEnv)
    (force : Bool) : ∃ rc s', s.crtContextDestroy env force true ctx = some (rc, s') ∧ s'.Inv := by
  obtain ⟨rc, s', heq, rfl | rfl⟩ := crtContextDestroy_cases env force ctx s
  · exact ⟨rc, s', heq, h⟩
  · exact ⟨rc, _, heq, h.erase hctx⟩

theorem Inv.add (h : s.Inv) (hctx : ctx ∉ s.cgCtxList.map addr)
    (hidx : s.cgCtxNum ∉ s.cgCtxList.map ccIdx) : Inv { s with
      cgCtxNum := s.cgCtxNum + 1, cgCtxList := s.cgCtxList ++ [⟨ctx, s.cgCtxNum⟩] } := by
  refine ⟨?_, ?_, ?_⟩
  · rw [h.count, length_append, length_singleton]
    push_cast
    rfl
  · rw [map_append, map_singleton, ← concat_eq_append]
    exact h.distinct.concat hidx
  · rw [map_append, map_singleton, ← concat_eq_append]
    exact h.apart.concat hctx

/-- Creation from a sound state goes well just if it is orderly, and then keeps
the invariant. -/
theorem Inv.create_iff (h : s.Inv) {env : CtxCreateEnv} (henabled : s.Enabled (.create env)) :
    (s.StepSound (.create env) ↔ s.Orderly (.create env)) ∧
      (s.Orderly (.create env) → ∃ rc handle s', s.crtContextCreate env = some (rc, handle, s') ∧
        s'.Inv) := by
  -- a call that fails and leaves everything alone
  have hfail : ∀ rc : ℤ, rc ≠ 0 → s.crtContextCreate env = some (rc, none, s) →
      s.StepSound (.create env) := by
    intro rc hrc heq
    refine ⟨rc, none, s, heq, h.sound, iff_of_false hrc ?_⟩
    rintro ⟨_, hc, _⟩
    cases hc
  by_cases hnull : env.crtCtx = false
  · have heq : s.crtContextCreate env = some (-derInval, none, s) := by
      rw [crtContextCreate, if_pos hnull]
    have horderly : s.Orderly (.create env) := fun hc => by rw [hnull] at hc; cases hc
    exact ⟨iff_of_true (hfail _ (by decide) heq) horderly, fun _ => ⟨_, _, s, heq, h⟩⟩
  have htrue : env.crtCtx = true := by rwa [Bool.not_eq_false] at hnull
  by_cases hlimit : s.AtLimit
  · have heq : s.crtContextCreate env = some (0, none, s) := by
      rw [crtContextCreate, if_neg hnull, if_pos hlimit]
    have hnot : ¬ s.Orderly (.create env) := fun ho => (ho htrue).1 hlimit
    refine ⟨iff_of_false ?_ hnot, fun ho => absurd ho hnot⟩
    rintro ⟨rc, handle, s', heq', _, hrc⟩
    rw [heq] at heq'
    cases heq'
    obtain ⟨_, hc, _⟩ := hrc.mp rfl
    cases hc
  cases hctx : env.ctx with
  | none =>
    have heq : s.crtContextCreate env = some (-derNomem, none, s) := by
      unfold crtContextCreate
      rw [if_neg hnull, if_neg hlimit, hctx]
    have horderly : s.Orderly (.create env) := fun _ => ⟨hlimit, fun ctx hmem => by
      rw [hctx] at hmem
      cases hmem⟩
    exact ⟨iff_of_true (hfail _ (by decide) heq) horderly, fun _ => ⟨_, _, s, heq, h⟩⟩
  | some ctx =>
    have hbody := Eq.refl (s.crtContextCreate env)
    conv_rhs at hbody =>
      unfold crtContextCreate
      rw [if_neg hnull, if_neg hlimit, hctx]
      dsimp only
    have horderly : s.Orderly (.create env) ↔ (env.initRc = 0 → env.hgCreateRc = 0 ∧
        (env.poolRc ≠ 0 → env.destroy.hgDestroyRc ≠ 0) ∧
          (env.poolRc = 0 → s.cgCtxNum ∉ s.cgCtxList.map ccIdx)) := by
      simp only [Orderly, htrue, hlimit, hctx, not_false_eq_true, true_and, forall_const,
        mem_def, Option.some.injEq, forall_eq']
    have hnew : ctx ∉ s.cgCtxList.map addr := henabled ctx hctx
    rw [horderly]
    by_cases hinit : env.initRc = 0
    swap
    · rw [if_pos hinit] at hbody
      exact ⟨iff_of_true (hfail _ hinit hbody) fun hc => absurd hc hinit,
        fun _ => ⟨_, _, s, hbody, h⟩⟩
    rw [if_neg (not_not.mpr hinit)] at hbody
    by_cases hhg : env.hgCreateRc = 0
    swap
    · -- there is no Mercury context to destroy, and an assertion says so
      rw [if_pos hhg, crtContextDestroy_force, if_pos rfl, map_none] at hbody
      refine ⟨iff_of_false ?_ fun ho => hhg (ho hinit).1, fun ho => absurd (ho hinit).1 hhg⟩
      rintro ⟨rc, handle, s', heq', _⟩
      rw [hbody] at heq'
      cases heq'
    rw [if_neg (not_not.mpr hhg)] at hbody
    by_cases hpool : env.poolRc = 0
    swap
    · rw [if_pos hpool, crtContextDestroy_force, if_neg (fun hc => Bool.noConfusion hc)] at hbody
      by_cases hdestroy : env.destroy.hgDestroyRc = 0
      · -- the counter goes down although it never went up
        rw [if_neg (not_not.mpr hdestroy), map_some] at hbody
        refine ⟨iff_of_false ?_ fun ho => (ho hinit).2.1 hpool hdestroy,
          fun ho => absurd hdestroy ((ho hinit).2.1 hpool)⟩
        rintro ⟨rc, handle, s', heq', hsound, _⟩
        rw [hbody] at heq'
        cases heq'
        have hcount : s.cgCtxNum - 1 = ((eraseAt addr ctx s.cgCtxList).length : ℤ) :=
          hsound.count
        have hsame : eraseAt addr ctx s.cgCtxList = s.cgCtxList :=
          eraseAt_of_forall_ne fun c hc heq => hnew (mem_map.mpr ⟨c, hc, heq⟩)
        rw [hsame, h.count] at hcount
        omega
      · rw [if_pos hdestroy, map_some] at hbody
        exact ⟨iff_of_true (hfail _ hpool hbody)
          fun _ => ⟨hhg, fun _ => hdestroy, fun hc => absurd hc hpool⟩, fun _ => ⟨_, _, s, hbody, h⟩⟩
    rw [if_neg (not_not.mpr hpool)] at hbody
    by_cases hidx : s.cgCtxNum ∈ s.cgCtxList.map ccIdx
    · refine ⟨iff_of_false ?_ fun ho => (ho hinit).2.2 hpool hidx,
        fun ho => absurd hidx ((ho hinit).2.2 hpool)⟩
      rintro ⟨rc, handle, s', heq', hsound, _⟩
      rw [hbody] at heq'
      cases heq'
      have hnodup : ((s.cgCtxList ++ [(⟨ctx, s.cgCtxNum⟩ : CtxEntry)]).map ccIdx).Nodup :=
        hsound.distinct
      rw [map_append, map_singleton, nodup_append] at hnodup
      exact hnodup.2.2 _ hidx _ (mem_singleton_self _) rfl
    · have hinv := h.add hnew hidx
      refine ⟨iff_of_true ⟨0, some ctx, _, hbody, hinv.sound, ?_⟩ ?_, fun _ => ⟨_, _, _, hbody, hinv⟩⟩
      · exact iff_of_true rfl ⟨ctx, rfl, s.cgCtxNum, rfl⟩
      · exact fun _ => ⟨hhg, fun hc => absurd hpool hc, fun _ => hidx⟩

theorem inv_invariant : (ctxTableLts.restrict Orderly).Invariant Inv := by
  refine ⟨?_, ?_⟩
  · rintro s ⟨hnum, hlist⟩
    refine ⟨by rw [hnum, hlist]; rfl, ?_, ?_⟩
    · rw [hlist]
      exact nodup_nil
    · rw [hlist]
      exact nodup_nil
  · rintro s e s' h ⟨henabled, horderly⟩ hstep
    cases e with
    | create env =>
      obtain ⟨rc, handle, t, heq, hinv⟩ := (h.create_iff henabled).2 horderly
      have hstep' : (s.crtContextCreate env).map (fun r => r.2.2) = some s' := hstep
      rw [heq] at hstep'
      cases hstep'
      exact hinv
    | destroy env force ctx =>
      obtain ⟨rc, t, heq, hinv⟩ := h.destroy henabled env force
      have hstep' : (s.crtContextDestroy env force true ctx).map Prod.snd = some s' := hstep
      rw [heq] at hstep'
      cases hstep'
      exact hinv

end CtxTable

/-- **Contexts and their indices.**  After orderly calls indices are distinct and lookups right;
the next call keeps this if and only if it is orderly. -/
theorem context_identity_iff (s : CtxTable) (hs : (ctxTableLts.restrict CtxTable.Orderly).Reach s) :
    s.Sound ∧ ∀ e, ctxTableLts.enabled s e → (s.StepSound e ↔ s.Orderly e) := by
  have h := CtxTable.inv_invariant.reach hs
  refine ⟨h.sound, fun e henabled => ?_⟩
  cases e with
  | create env => exact (h.create_iff henabled).1
  | destroy env force ctx =>
    obtain ⟨rc, s', heq, hinv⟩ := h.destroy henabled env force
    exact iff_of_true ⟨rc, s', heq, hinv.sound⟩ trivial

/-- Every call succeeds. -/
def quietDestroy : CtxDestroyEnv := ⟨0, fun _ => 0, fun _ => 0, 0, 0⟩

def quietCreate (ctx : ℕ) : CtxCreateEnv := ⟨true, some ctx, 0, 0, 0, quietDestroy⟩

/-- Two contexts, of which the second is destroyed and replaced. -/
theorem context_identity_of_replaced : ∃ s : CtxTable, s.cgCtxNum = 2 ∧ s.Sound ∧
    ∀ e, ctxTableLts.enabled s e → (s.StepSound e ↔ s.Orderly e) := by
  have hreach : (ctxTableLts.restrict CtxTable.Orderly).Reach ⟨true, 8, 2, [⟨10, 0⟩, ⟨30, 1⟩]⟩ := by
    refine ⟨⟨true, 8, 0, []⟩, [.create (quietCreate 10), .create (quietCreate 20),
      .destroy quietDestroy false 20, .create (quietCreate 30)], ⟨rfl, rfl⟩, ?_⟩
    refine .cons ⟨by decide, fun _ => ⟨by decide, ?_⟩⟩ rfl
      (.cons ⟨by decide, fun _ => ⟨by decide, ?_⟩⟩ rfl
        (.cons ⟨by decide, trivial⟩ rfl (.cons ⟨by decide, fun _ => ⟨by decide, ?_⟩⟩ rfl (.nil _))))
    all_goals exact fun ctx _ _ => ⟨rfl, fun hc => absurd rfl hc, fun _ => by decide⟩
  exact ⟨_, rfl, context_identity_iff _ hreach⟩

/-- An index is used twice after a context is destroyed; at the limit creation makes nothing. -/
theorem context_identity_broken :
    (∃ s, ctxTableLts.Reach s ∧ s.cgCtxList = [⟨20, 1⟩, ⟨30, 1⟩] ∧
      s.crtContextLookup 1 = some ⟨20, 1⟩ ∧ ¬ s.Sound) ∧
    ∃ s, ctxTableLts.Reach s ∧ s.crtContextCreate (quietCreate 20) = some (0, none, s) ∧
      ¬ s.StepSound (.create (quietCreate 20)) := by
  constructor
  · refine ⟨_, ⟨⟨false, 8, 0, []⟩, [.create (quietCreate 10), .create (quietCreate 20),
      .destroy quietDestroy false 10, .create (quietCreate 30)], ⟨rfl, rfl⟩, Lts.run_of_exec rfl⟩,
      rfl, rfl, fun hsound => ?_⟩
    exact absurd hsound.distinct (by decide)
  · refine ⟨_, ⟨⟨true, 1, 0, []⟩, [.create (quietCreate 10)], ⟨rfl, rfl⟩, Lts.run_of_exec rfl⟩,
      rfl, ?_⟩
    rintro ⟨rc, handle, s', heq, _, hrc⟩
    cases heq
    obtain ⟨_, hc, _⟩ := hrc.mp rfl
    cases hc

end Cart
