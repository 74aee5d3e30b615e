/-
Runs of `crt_init_opt` and `crt_finalize` (`crt_init.c`).

What a call of `crt_finalize` does, and from it and `Good.init_cases` what any
sequence of calls does.

Main results: `lifecycle_iff`, `lifecycle_broken`.
-/
import Cart.Lifecycle
import Cart.Lts

namespace Cart

namespace CrtLib

section

variable {s s' : CrtLib} {fi : Bool}

/-! ### `crt_finalize` -/

/-- The last `crt_finalize` does not fail with fault injection, and group and lock are there. -/
def FinalizeOrderly (fi : Bool) (env : CrtFinalizeEnv) (s : CrtLib) : Prop :=
  s.cgRefcount = 1 →
    (fi = true → env.ctxNum = 0 ∧ env.hgFiniRc = 0) ∧
    (env.ctxNum = 0 → s.cgGrpInited = true ∧ (env.hgFiniRc = 0 → env.rwlockDestroyRc = 0))

theorem dFaultInjectFini_eq (fi : Bool) (s : CrtLib) :
    s.dFaultInjectFini fi = { s with fiRef := s.fiRef - fi.toNat } := by
  cases fi <;> rfl

theorem finalizeOut_error (fi : Bool) {rc : ℤ} (hrc : rc ≠ 0) (s : CrtLib) :
    s.finalizeOut fi rc = some (rc, { s with fiRef := s.fiRef - fi.toNat }) := by
  rw [finalizeOut, if_neg hrc, dFaultInjectFini_eq]

theorem finalizeOut_zero (fi : Bool) (hlog : 0 < s.logRef) : s.finalizeOut fi 0 =
      some (0, { s with logRef := s.logRef - 1, fiRef := s.fiRef - fi.toNat }) := by
  have hne : ({ s with fiRef := s.fiRef - fi.toNat } : CrtLib).logRef ≠ 0 := by
    show s.logRef ≠ 0
    omega
  rw [finalizeOut, if_pos rfl, dFaultInjectFini_eq, dLogFini, if_neg hne]
  rfl

/-- The three counts are the same. -/
def SameCounts (s s' : CrtLib) : Prop :=
  s'.cgRefcount = s.cgRefcount ∧ s'.logRef = s.logRef ∧ s'.fiRef = s.fiRef

/-- `crt_finalize` fails, drops a reference, or does damage. -/
inductive FinalizeEnd (fi : Bool) (ok : Prop) (s : CrtLib) : Option (ℤ × CrtLib) → Prop
  | refused {rc : ℤ} {s' : CrtLib} (hok : ok) (hrc : rc ≠ 0) (hsame : SameCounts s s')
      (hgood : Good fi s') : FinalizeEnd fi ok s (some (rc, s'))
  | dropped {s' : CrtLib} (hok : ok) (href : s'.cgRefcount + 1 = s.cgRefcount)
      (hgood : Good fi s') : FinalizeEnd fi ok s (some (0, s'))
  | spoilt {r : Option (ℤ × CrtLib)} (hnot : ¬ ok) (hspoils : Spoils r s) : FinalizeEnd fi ok s r

/-- A failed call that has put the reference back: it has dropped a reference to
the fault injection all the same. -/
theorem finalizeEnd_restored {ok : Prop} {rc : ℤ} (hrc : rc ≠ 0)
    (hsame : SameCounts s s') (hgood : Good fi s') (href : 0 < s.cgRefcount)
    (hok : ok ↔ fi = false) : FinalizeEnd fi ok s (s'.finalizeOut fi rc) := by
  rw [finalizeOut_error fi hrc]
  cases hfi : fi with
  | false =>
    rw [hfi] at hgood
    exact .refused (hok.mpr hfi) hrc hsame hgood
  | true =>
    refine .spoilt (fun hc => ?_) fun rc' t heq => ?_
    · rw [hok.mp hc] at hfi
      cases hfi
    · cases heq
      have hpos := hgood.fault hfi
      have heq := hsame.1
      refine Or.inr ⟨hrc, Or.inr ?_⟩
      show s'.fiRef - 1 ≠ s.fiRef
      rw [← hsame.2.2]
      omega

theorem finalizeEnd_dropped {ok : Prop} (hok : ok)
    (href : s'.cgRefcount + 1 = s.cgRefcount) (hlog : 0 < s'.logRef)
    (hgood : Good fi { s' with logRef := s'.logRef - 1, fiRef := s'.fiRef - fi.toNat }) :
    FinalizeEnd fi ok s (s'.finalizeOut fi 0) := by
  rw [finalizeOut_zero fi hlog]
  exact .dropped hok href hgood

/-- What `crt_plugin_fini` and `crt_swim_fini` leave. -/
theorem fini_eq (hswim : s.cgSwimInited = true → s.cgServer = true) :
    ∃ up, s.crtPluginFini.crtSwimFini = { s with pluginUp := up, cgSwimInited := false } := by
  have hplugin : ∃ up, s.crtPluginFini = { s with pluginUp := up } := by
    rw [crtPluginFini]
    split
    · exact ⟨false, rfl⟩
    · exact ⟨s.pluginUp, rfl⟩
  obtain ⟨up, heq⟩ := hplugin
  refine ⟨up, ?_⟩
  rw [heq, crtSwimFini]
  cases hs : s.cgSwimInited with
  | true => rw [if_pos ⟨hswim hs, rfl⟩]
  | false => rw [if_neg fun hc => Bool.false_ne_true hc.2]

theorem Good.takeDown_end (h : Good fi s) (href : s.cgRefcount = 1) (env : CrtFinalizeEnv) :
    FinalizeEnd fi (s.FinalizeOrderly fi env) s ({ s with cgRefcount := 0 }.takeDown fi env) := by
  have hpos : 0 < s.cgRefcount := href ▸ one_pos
  have hinit : s.cgInited = true := h.inited.mpr hpos
  unfold takeDown
  by_cases hctx : 0 < env.ctxNum
  · rw [if_pos hctx]
    have hs : ({ s with cgRefcount := 1 } : CrtLib) = s := by rw [← href]
    refine finalizeEnd_restored (by decide) ⟨href.symm, rfl, rfl⟩ (hs.symm ▸ h) hpos ?_
    refine ⟨fun hc => Bool.eq_false_iff.mpr fun hfi => ?_, fun hfi _ => ⟨fun hc => ?_, fun hc => ?_⟩⟩
    · exact hctx.ne' ((hc href).1 hfi).1
    · exact absurd hc (Bool.eq_false_iff.mp hfi)
    · exact absurd hc hctx.ne'
  rw [if_neg hctx]
  have hctx' : env.ctxNum = 0 := Nat.eq_zero_of_not_pos hctx
  obtain ⟨up, hfini⟩ := fini_eq (s := { s with cgRefcount := 0 }) h.swim
  rw [hfini]
  by_cases hgrp : s.cgGrpInited = true
  swap
  · rw [if_pos (Bool.eq_false_iff.mpr hgrp)]
    exact .spoilt (fun hc => hgrp ((hc href).2 hctx').1) fun rc t heq => by cases heq
  rw [if_neg (by rw [hgrp]; decide)]
  by_cases hhg : env.hgFiniRc = 0
  swap
  · -- the group is gone, but the library still counts as initialised
    rw [if_pos hhg]
    refine finalizeEnd_restored hhg ⟨href.symm, rfl, rfl⟩ ?_ hpos ?_
    · refine ⟨h.free, iff_of_true hinit one_pos, h.up, fun hc => ?_, fun hc => ?_, ?_, ?_⟩
      · rw [hinit] at hc
        cases hc
      · cases hc
      · exact hpos.trans_le h.log
      · exact fun hfi => hpos.trans_le (h.fault hfi)
    · refine ⟨fun hc => Bool.eq_false_iff.mpr fun hfi => ?_,
        fun hfi _ => ⟨fun hc => ?_, fun _ => ⟨hgrp, fun hc => absurd hc hhg⟩⟩⟩
      · exact hhg ((hc href).1 hfi).2
      · exact absurd hc (Bool.eq_false_iff.mp hfi)
  have hup : ¬ (s.cgAddr = false ∨ s.cgOpcMap = false) := by
    rw [(h.up hinit).2.1, (h.up hinit).2.2]
    decide
  rw [if_neg (not_not.mpr hhg), if_neg hup]
  by_cases hlock : env.rwlockDestroyRc = 0
  swap
  · -- the count stays at zero
    rw [if_pos hlock, finalizeOut_error fi hlock]
    refine .spoilt (fun hc => hlock (((hc href).2 hctx').2 hhg)) fun rc t heq => ?_
    cases heq
    exact Or.inr ⟨hlock, Or.inl hpos.ne⟩
  rw [if_neg (not_not.mpr hlock)]
  refine finalizeEnd_dropped (fun _ => ⟨fun _ => ⟨hctx', hhg⟩, fun _ => ⟨hgrp, fun _ => hlock⟩⟩)
    href.symm (hpos.trans_le h.log) ?_
  refine ⟨h.free, iff_of_false Bool.false_ne_true (lt_irrefl 0), fun hc => ?_,
    fun _ => ⟨rfl, rfl⟩, fun hc => ?_, Nat.zero_le _, fun _ => Nat.zero_le _⟩
  · cases hc
  · cases hc

/-- **What `crt_finalize` does.** -/
theorem Good.finalize_end (h : Good fi s) (env : CrtFinalizeEnv) :
    FinalizeEnd fi (s.FinalizeOrderly fi env) s (s.crtFinalize fi env) := by
  unfold crtFinalize
  rw [if_neg (by rw [h.free]; decide)]
  by_cases hinit : s.cgInited = true
  swap
  · have hzero := h.refcount_eq_zero (Bool.eq_false_iff.mpr hinit)
    have hno : s.crtInitialized = false := by
      rw [crtInitialized, Bool.eq_false_iff.mpr hinit, Bool.and_false]
    rw [if_pos hno]
    refine .refused (fun hc => ?_) (by decide) ⟨rfl, rfl, rfl⟩ h
    rw [hzero] at hc
    cases hc
  have hpos := h.inited.mp hinit
  have hyes : s.crtInitialized = true := by
    rw [crtInitialized, hinit, (h.up hinit).1, Bool.and_true]
  rw [if_neg (by rw [hyes]; decide), if_neg hpos.ne']
  by_cases hone : s.cgRefcount - 1 = 0
  · rw [if_pos hone, hone]
    exact h.takeDown_end (by omega) env
  · -- others are using the library
    rw [if_neg hone]
    refine finalizeEnd_dropped (fun hc => by omega) (Nat.sub_add_cancel hpos)
      (hpos.trans_le h.log) ?_
    refine ⟨h.free, iff_of_true hinit (pos_of_ne_zero hone), h.up, h.down, h.swim,
      Nat.sub_le_sub_right h.log 1, fun hfi => ?_⟩
    have hfault := h.fault hfi
    rw [hfi]
    exact Nat.sub_le_sub_right hfault 1

end

end CrtLib

/-! ### Runs -/

/-- A call that an application can make. -/
inductive LibCall where
  | init (env : CrtInitEnv)
  | finalize (env : CrtFinalizeEnv)

/-- The library in a run, with the calls of each kind that have succeeded. -/
structure LibRun where
  lib : CrtLib
  inits : ℕ
  finalizes : ℕ
  deriving DecidableEq, Repr

def LibCall.call (fi : Bool) : LibCall → CrtLib → Option (ℤ × CrtLib)
  | .init env => CrtLib.crtInitOpt fi env
  | .finalize env => CrtLib.crtFinalize fi env

namespace LibRun

variable (fi : Bool) (s : LibRun) (e : LibCall)

/-- The run after a call that returned `rc`. -/
def returned (rc : ℤ) (lib : CrtLib) : LibRun :=
  match e with
  | .init _ => ⟨lib, s.inits + if rc = 0 then 1 else 0, s.finalizes⟩
  | .finalize _ => ⟨lib, s.inits, s.finalizes + if rc = 0 then 1 else 0⟩

/-- The lock is free, and the library is initialised just while it should be. -/
structure Sound (s : LibRun) : Prop where
  free : s.lib.rwlockHeld = false
  initialized : s.lib.crtInitialized = true ↔ s.finalizes < s.inits

/-- The next call leaves things sound. -/
def StepSound : Prop :=
  ∃ rc lib, e.call fi s.lib = some (rc, lib) ∧ (s.returned e rc lib).Sound ∧
    (rc ≠ 0 → s.lib.SameCounts lib) ∧
    ∀ env, e = .init env → rc = 0 → s.inits = s.finalizes → lib.pluginUp = true

/-- The conditions on the calls. -/
def Orderly : LibCall → Prop
  | .init env => s.lib.InitOrderly fi env
  | .finalize env => s.lib.FinalizeOrderly fi env

end LibRun

/-- The global data before the first call. -/
def CrtLib.unset (logRef fiRef : ℕ) : CrtLib where
  logRef := logRef
  fiRef := fiRef
  gdataInitFlag := false
  rwlockHeld := false
  cgRefcount := 0
  cgInited := false
  cgServer := false
  cgNaPlugin := .sm
  cgAddr := false
  cgGrpInited := false
  cgOpcMap := false
  cgSwimInited := false
  cpgInited := false
  pluginUp := false

/-- The calls one after the other, in a build with fault injection or without. -/
@[reducible]
def libLts (fi : Bool) : Lts LibRun LibCall where
  init s := ∃ logRef fiRef, s = ⟨.unset logRef fiRef, 0, 0⟩
  enabled _ _ := True
  step s e := (e.call fi s.lib).map fun r => s.returned e r.1 r.2

namespace LibRun

variable {fi : Bool} {s : LibRun}

/-- What orderly calls keep true. -/
structure Inv (fi : Bool) (s : LibRun) : Prop where
  good : s.lib.Good fi
  count : s.inits = s.finalizes + s.lib.cgRefcount

theorem Inv.sound (h : Inv fi s) : s.Sound := by
  refine ⟨h.good.free, ?_⟩
  have hinit : s.lib.crtInitialized = true ↔ s.lib.cgInited = true := by
    rw [CrtLib.crtInitialized, Bool.and_eq_true]
    exact ⟨fun hc => hc.2, fun hc => ⟨(h.good.up hc).1, hc⟩⟩
  rw [hinit, h.good.inited, h.count]
  omega

/-- A call that failed and left the counts alone. -/
theorem Inv.failed (h : Inv fi s) (e : LibCall) {rc : ℤ} {lib : CrtLib} (hrc : rc ≠ 0)
    (hsame : s.lib.SameCounts lib) (hgood : lib.Good fi) : Inv fi (s.returned e rc lib) := by
  have hcount : s.inits = s.finalizes + lib.cgRefcount := by rw [hsame.1, h.count]
  cases e with
  | init env =>
    refine ⟨hgood, ?_⟩
    show s.inits + (if rc = 0 then 1 else 0) = _
    rw [if_neg hrc]
    exact hcount
  | finalize env =>
    refine ⟨hgood, ?_⟩
    show s.inits = s.finalizes + (if rc = 0 then 1 else 0) + lib.cgRefcount
    rw [if_neg hrc]
    exact hcount

/-- A call that spoils something is not sound. -/
theorem not_stepSound {e : LibCall} (hspoils : CrtLib.Spoils (e.call fi s.lib) s.lib) :
    ¬ s.StepSound fi e := by
  rintro ⟨rc, lib, heq, hsound, hsame, _⟩
  rcases hspoils rc lib heq with hheld | ⟨hrc, hcounts⟩
  · have hfree : lib.rwlockHeld = false := by
      cases e with
      | init env | finalize env => exact hsound.free
    rw [hheld] at hfree
    cases hfree
  · obtain ⟨href, _, hfi⟩ := hsame hrc
    exact hcounts.elim (fun hc => hc href) fun hc => hc hfi

theorem Inv.init_iff (h : Inv fi s) (env : CrtInitEnv) :
    (s.StepSound fi (.init env) ↔ s.Orderly fi (.init env)) ∧
      ∀ rc lib, s.Orderly fi (.init env) → s.lib.crtInitOpt fi env = some (rc, lib) →
        Inv fi (s.returned (.init env) rc lib) := by
  rcases h.good.init_cases env with ⟨hok, rc, lib, heq, hrc, hkept⟩ | ⟨lib, heq, hgrown, hok⟩ |
    ⟨hnot, hspoils⟩
  · have hsame : s.lib.SameCounts lib := ⟨hkept.refcount, hkept.logRef, hkept.fiRef⟩
    have hinv := h.failed (.init env) hrc hsame (hkept.good h.good)
    refine ⟨iff_of_true ⟨rc, lib, heq, hinv.sound, fun _ => hsame, fun _ _ hc => absurd hc hrc⟩ hok,
      fun rc' lib' _ heq' => ?_⟩
    cases heq.symm.trans heq'
    exact hinv
  · have hinv : Inv fi (s.returned (.init env) 0 lib) := by
      refine ⟨hgrown.good h.good, ?_⟩
      show s.inits + 1 = s.finalizes + lib.cgRefcount
      rw [hgrown.refcount, h.count]
      rfl
    have hdown : s.inits = s.finalizes ↔ s.lib.cgInited = false := by
      rw [h.count, ← Bool.not_eq_true, h.good.inited]
      omega
    refine ⟨⟨?_, fun ho => ⟨0, lib, heq, hinv.sound, fun hc => absurd rfl hc,
      fun _ _ _ hzero => hok.mp ho (hdown.mp hzero)⟩⟩, fun rc' lib' _ heq' => ?_⟩
    · rintro ⟨rc', lib', heq', _, _, hplugin⟩
      cases heq.symm.trans heq'
      exact hok.mpr fun hc => hplugin env rfl rfl (hdown.mpr hc)
    · cases heq.symm.trans heq'
      exact hinv
  · exact ⟨iff_of_false (not_stepSound hspoils) hnot, fun _ _ hc => absurd hc hnot⟩

theorem Inv.finalize_iff (h : Inv fi s) (env : CrtFinalizeEnv) :
    (s.StepSound fi (.finalize env) ↔ s.Orderly fi (.finalize env)) ∧
      ∀ rc lib, s.Orderly fi (.finalize env) → s.lib.crtFinalize fi env = some (rc, lib) →
        Inv fi (s.returned (.finalize env) rc lib) := by
  have hend := h.good.finalize_end env
  generalize hr : s.lib.crtFinalize fi env = r at hend
  cases hend with
  | refused hok hrc hsame hgood =>
    have hinv := h.failed (.finalize env) hrc hsame hgood
    refine ⟨iff_of_true ⟨_, _, hr, hinv.sound, fun _ => hsame, fun _ hc => by cases hc⟩ hok,
      fun rc' lib' _ heq' => ?_⟩
    cases heq'
    exact hinv
  | @dropped lib hok href hgood =>
    have hinv : Inv fi (s.returned (.finalize env) 0 lib) := by
      refine ⟨hgood, ?_⟩
      show s.inits = s.finalizes + 1 + lib.cgRefcount
      rw [h.count, ← href]
      omega
    refine ⟨iff_of_true ⟨0, lib, hr, hinv.sound, fun hc => absurd rfl hc, fun _ hc => by cases hc⟩
      hok, fun rc' lib' _ heq' => ?_⟩
    cases heq'
    exact hinv
  | spoilt hnot hspoils =>
    rw [← hr] at hspoils
    exact ⟨iff_of_false (not_stepSound hspoils) hnot, fun _ _ hc => absurd hc hnot⟩

theorem inv_invariant (fi : Bool) : ((libLts fi).restrict (Orderly fi)).Invariant (Inv fi) := by
  refine ⟨?_, ?_⟩
  · rintro s ⟨logRef, fiRef, rfl⟩
    refine ⟨⟨rfl, iff_of_false Bool.false_ne_true (lt_irrefl 0), fun hc => ?_,
      fun _ => ⟨rfl, rfl⟩, fun hc => ?_, Nat.zero_le _, fun _ => Nat.zero_le _⟩, rfl⟩
    · cases hc
    · cases hc
  · rintro s e s' h ⟨_, horderly⟩ hstep
    obtain ⟨r, heq, rfl⟩ := Option.map_eq_some_iff.mp hstep
    cases e with
    | init env => exact (h.init_iff env).2 r.1 r.2 horderly heq
    | finalize env => exact (h.finalize_iff env).2 r.1 r.2 horderly heq

end LibRun

/-- **Starting and stopping the library.**  After orderly calls it is initialised while it was
started more often than stopped; the next call keeps this if and only if it is orderly. -/
theorem lifecycle_iff (fi : Bool) (s : LibRun)
    (hs : ((libLts fi).restrict (LibRun.Orderly fi)).Reach s) :
    s.Sound ∧ ∀ e, s.StepSound fi e ↔ s.Orderly fi e := by
  have h := (LibRun.inv_invariant fi).reach hs
  refine ⟨h.sound, fun e => ?_⟩
  cases e with
  | init env => exact (h.init_iff env).1
  | finalize env => exact (h.finalize_iff env).1

/-- A client that starts the library, with nothing failing. -/
def quietInit : CrtInitEnv where
  grpid := none
  server := false
  autoSwimDisable := false
  phyAddrStr := none
  memPinDisable := false
  logRc := 0
  faultConfigRc := 0
  rwlockInitRc := 0
  memPinRc := 0
  ofiConfigRc := 0
  hgInitRc := 0
  grpGdataRc := 0
  grpInitRc := 0
  pluginInitRc := 0
  opcMapRc := 0
  swimInitRc := 0

/-- The library is started, not stopped as long as there is a context, and then
stopped. -/
theorem lifecycle_of_stopped : ∃ s : LibRun, s.inits = 1 ∧ s.finalizes = 1 ∧ s.Sound ∧
    ∀ e, s.StepSound false e ↔ s.Orderly false e := by
  have hreach : ((libLts false).restrict (LibRun.Orderly false)).Reach
      ⟨{ CrtLib.unset 0 0 with cgNaPlugin := .ofiSockets, cpgInited := true }, 1, 1⟩ := by
    refine ⟨⟨.unset 0 0, 0, 0⟩,
      [.init quietInit, .finalize ⟨1, 0, 0⟩, .finalize ⟨0, 0, 0⟩], ⟨0, 0, rfl⟩, ?_⟩
    refine .cons ⟨trivial, fun _ => ⟨fun _ => ⟨?_, ?_, ?_⟩, fun hc => by cases hc⟩⟩ rfl
      (.cons ⟨trivial, fun _ => ⟨fun hc => (by cases hc), fun hc => by cases hc⟩⟩ rfl
        (.cons ⟨trivial, fun _ => ⟨fun hc => (by cases hc), fun _ => ⟨rfl, fun _ => rfl⟩⟩⟩ rfl
          (.nil _)))
    · exact ⟨.ofiSockets, rfl, by decide, fun _ => rfl⟩
    · exact fun hc => hc.2.2 (by decide)
    · exact fun _ hc => by cases hc
  exact ⟨_, rfl, rfl, lifecycle_iff false _ hreach⟩

/-- A second start without fault injection, an unknown provider, a stop that fails, and a second
start. -/
theorem lifecycle_broken :
    (∃ s lib, (libLts false).Reach s ∧
      s.lib.crtInitOpt false quietInit = some (-derNosys, lib) ∧
      s.lib.cgRefcount = 1 ∧ lib.cgRefcount = 2) ∧
    (∃ s lib, (libLts false).Reach s ∧
      s.lib.crtInitOpt false { quietInit with phyAddrStr := some "tcp" } =
        some (-derNonexist, lib) ∧ lib.rwlockHeld = true) ∧
    (∃ s lib, (libLts true).Reach s ∧ s.lib.crtFinalize true ⟨1, 0, 0⟩ = some (-derNoPerm, lib) ∧
      s.lib.fiRef = 1 ∧ lib.fiRef = 0) ∧
    ∃ s lib, (libLts false).Reach s ∧ s.inits = s.finalizes ∧
      s.lib.crtInitOpt false quietInit = some (0, lib) ∧ lib.pluginUp = false := by
  refine ⟨?_, ?_, ?_, ?_⟩
  · exact ⟨_, _, ⟨⟨.unset 0 0, 0, 0⟩, [.init quietInit], ⟨0, 0, rfl⟩, Lts.run_of_exec rfl⟩, rfl,
      rfl, rfl⟩
  · exact ⟨_, _, ⟨⟨.unset 0 0, 0, 0⟩, [], ⟨0, 0, rfl⟩, .nil _⟩, rfl, rfl⟩
  · exact ⟨_, _, ⟨⟨.unset 0 0, 0, 0⟩, [.init quietInit], ⟨0, 0, rfl⟩, Lts.run_of_exec rfl⟩, rfl,
      rfl, rfl⟩
  · exact ⟨_, _, ⟨⟨.unset 0 0, 0, 0⟩, [.init quietInit, .finalize ⟨0, 0, 0⟩], ⟨0, 0, rfl⟩,
      Lts.run_of_exec rfl⟩, rfl, rfl, rfl⟩

end Cart
