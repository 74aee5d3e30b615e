/-
Starting and stopping the library (`crt_init.c`, `gurt/fault_inject.c`).

`crt_init_opt` and `crt_finalize` are counted: the first call sets everything up and the last
one takes it down.  The log and the fault injection have counts of their own.  A function
returns nothing where a `D_ASSERT` fails or a lock is waited for that is never released.

Main result: `Good.init_cases`.
-/
import Cart.GroupId
import Mathlib

open Option

namespace Cart

/-- The plugins of `crt_na_dict`. -/
inductive NaType where
  | sm
  | ofiSockets
  | ofiVerbsRxm
  | ofiVerbs
  | ofiGni
  | ofiPsm2
  | ofiTcpRxm
  deriving DecidableEq, Repr

def crtNaDict : List (String × NaType) :=
  [("sm", .sm), ("ofi+sockets", .ofiSockets), ("ofi+verbs;ofi_rxm", .ofiVerbsRxm),
    ("ofi+verbs", .ofiVerbs), ("ofi+gni", .ofiGni), ("ofi+psm2", .ofiPsm2),
    ("ofi+tcp;ofi_rxm", .ofiTcpRxm)]

def NaType.crtNaTypeIsOfi : NaType → Bool
  | .sm => false
  | _ => true

/-- The global data, as far as starting and stopping is concerned.  A pointer is
here whether it is set. -/
structure CrtLib where
  -- `d_log_refcount` and `dfg_refcount`
  logRef : ℕ
  fiRef : ℕ
  gdataInitFlag : Bool
  rwlockHeld : Bool
  -- never more than `d_log_refcount`, an `int`, which would overflow before this one wraps
  cgRefcount : ℕ
  cgInited : Bool
  cgServer : Bool
  cgNaPlugin : NaType
  cgAddr : Bool
  cgGrpInited : Bool
  cgOpcMap : Bool
  cgSwimInited : Bool
  cpgInited : Bool
  -- whether the locks and lists of the plugin state are there
  pluginUp : Bool
  deriving DecidableEq, Repr

/-- What `crt_init_opt` is given, reads and meets. -/
structure CrtInitEnv where
  grpid : Option (List Char)
  server : Bool
  autoSwimDisable : Bool
  -- `CRT_PHY_ADDR_STR` and `CRT_DISABLE_MEM_PIN`
  phyAddrStr : Option String
  memPinDisable : Bool
  logRc : ℤ
  -- reading the file with the faults
  faultConfigRc : ℤ
  rwlockInitRc : ℤ
  memPinRc : ℤ
  ofiConfigRc : ℤ
  hgInitRc : ℤ
  -- `crt_grp_init` before and after it creates the group
  grpGdataRc : ℤ
  grpInitRc : ℤ
  pluginInitRc : ℤ
  opcMapRc : ℤ
  swimInitRc : ℤ

/-- The contexts that are live when `crt_finalize` is called, and what the
functions return that it calls. -/
structure CrtFinalizeEnv where
  ctxNum : ℕ
  hgFiniRc : ℤ
  rwlockDestroyRc : ℤ

namespace CrtLib

section

variable (fi : Bool) (env : CrtInitEnv) (rc : ℤ) (s : CrtLib)

def dLogFini : Option CrtLib :=
  if s.logRef = 0 then none else some { s with logRef := s.logRef - 1 }

/-- Without fault injection in the build (`fi`) there is nothing to count. -/
def dFaultInjectInit (configRc : ℤ) (s : CrtLib) : ℤ × CrtLib :=
  if fi = false then (-derNosys, s)
  else (if s.fiRef = 0 then configRc else 0, { s with fiRef := s.fiRef + 1 })

def dFaultInjectFini : CrtLib :=
  if fi = false then s else { s with fiRef := s.fiRef - 1 }

def crtInitialized : Bool := s.gdataInitFlag && s.cgInited

def dataInit : ℤ × CrtLib :=
  if env.rwlockInitRc ≠ 0 then (env.rwlockInitRc, s)
  else
    let s := { s with
      rwlockHeld := false, cgRefcount := 0, cgInited := false, cgAddr := false,
      cgNaPlugin := .ofiSockets }
    if env.server = true ∧ env.memPinDisable = false ∧ env.memPinRc ≠ 0 then (env.memPinRc, s)
    else (0, { s with gdataInitFlag := true })

/-- The label `cleanup` of `crt_init_opt`, which goes on to `unlock`. -/
def cleanup : CrtLib :=
  { s with
    cgInited := false, cgAddr := false, cgGrpInited := false, cgOpcMap := false,
    rwlockHeld := false }

/-- The provider, from the environment or as it was. -/
def provider : Option NaType :=
  match env.phyAddrStr with
  | none => some s.cgNaPlugin
  | some str => crtNaDict.lookup str

/-- `crt_swim_init`, where it is called. -/
def swimInit : ℤ × CrtLib :=
  if s.cgServer = true ∧ env.autoSwimDisable = false then
    if s.cgSwimInited = true then (-derAlready, s)
    else if env.swimInitRc ≠ 0 then (env.swimInitRc, s)
    else (0, { s with cgSwimInited := true })
  else (0, s)

/-- `crt_init_opt` from `crt_hg_init` on, with the lock held. -/
def setUp : Option (ℤ × CrtLib) :=
  if env.hgInitRc ≠ 0 then some (env.hgInitRc, s.cleanup)
  else
    let s := { s with cgAddr := true }
    if s.cgGrpInited = true then none
    else if env.grpGdataRc ≠ 0 then some (env.grpGdataRc, s.cleanup)
    else if ¬ GrpIdFits (env.grpid.getD crtDefaultGrpid) then none
    else if env.grpInitRc ≠ 0 then some (env.grpInitRc, s.cleanup)
    else
      let s := { s with cgGrpInited := true }
      if s.cpgInited = false ∧ env.pluginInitRc ≠ 0 then some (env.pluginInitRc, s.cleanup)
      else
        let s := if s.cpgInited = false then { s with cpgInited := true, pluginUp := true } else s
        if env.opcMapRc ≠ 0 then some (env.opcMapRc, s.cleanup)
        else
          let (rc, s) := { s with cgOpcMap := true, cgInited := true }.swimInit env
          if rc ≠ 0 then some (rc, s.cleanup)
          else some (0, { s with cgRefcount := s.cgRefcount + 1, rwlockHeld := false })

/-- `crt_init_opt` with the lock held; errors before Mercury go past the unlock. -/
def startUp : Option (ℤ × CrtLib) :=
  let s := { s with cgServer := env.server }
  match s.provider env with
  | none => some (-derNonexist, s)
  | some plugin =>
    let s := { s with cgNaPlugin := plugin }
    if plugin = .ofiVerbs then some (-derInval, s)
    else if plugin.crtNaTypeIsOfi = true ∧ env.ofiConfigRc ≠ 0 then some (env.ofiConfigRc, s)
    else s.setUp env

/-- The part of `crt_init_opt` between lock and unlock.  `rc` is what is in the
variable when it gets here. -/
def locked : Option (ℤ × CrtLib) :=
  if s.rwlockHeld = true then none
  else
    let s := { s with rwlockHeld := true }
    if s.cgInited = false then s.startUp env
    else if s.cgServer = false ∧ env.server = true then
      some (-derInval, { s with rwlockHeld := false })
    else some (rc, { s with cgRefcount := s.cgRefcount + 1, rwlockHeld := false })

/-- The group id passes the checks of `crt_init_opt`. -/
def GrpidOk : Prop :=
  ∀ grpid ∈ env.grpid, crtValidateGrpid grpid = 0 ∧ grpid ≠ crtDefaultGrpid
deriving Decidable

/-- `crt_init_opt` between the initialisation of fault injection, which returned
`rc`, and the label `out`. -/
def initBody : Option (ℤ × CrtLib) :=
  if rc ≠ 0 ∧ rc ≠ -derNosys then some (rc, s)
  else if ¬ GrpidOk env then some (-derInval, s)
  else if s.gdataInitFlag = false then
    let (rc, s) := s.dataInit env
    if rc ≠ 0 then some (-rc, s) else s.locked env rc
  else s.locked env rc

/-- The label `out` of `crt_init_opt`. -/
def initOut : Option (ℤ × CrtLib) :=
  if rc ≠ 0 then ((s.dFaultInjectFini fi).dLogFini).map fun s => (rc, s) else some (0, s)

def crtInitOpt : Option (ℤ × CrtLib) :=
  if env.logRc ≠ 0 then some (env.logRc, s)
  else
    let s := { s with logRef := s.logRef + 1 }
    let (rc, s) := s.dFaultInjectInit fi env.faultConfigRc
    (s.initBody env rc).bind fun (rc, s) => s.initOut fi rc

/-- The label `out` of `crt_finalize`. -/
def finalizeOut : Option (ℤ × CrtLib) :=
  let s := s.dFaultInjectFini fi
  if rc = 0 then s.dLogFini.map fun s => (0, s) else some (rc, s)

/-- It leaves `cpg_inited` set. -/
def crtPluginFini : CrtLib :=
  if s.cpgInited = true then { s with pluginUp := false } else s

def crtSwimFini : CrtLib :=
  if s.cgServer = true ∧ s.cgSwimInited = true then { s with cgSwimInited := false } else s

/-- `crt_finalize` for the last reference; the count is zero already. -/
def takeDown (env : CrtFinalizeEnv) (s : CrtLib) : Option (ℤ × CrtLib) :=
  if 0 < env.ctxNum then { s with cgRefcount := s.cgRefcount + 1 }.finalizeOut fi (-derNoPerm)
  else
    let s := s.crtPluginFini.crtSwimFini
    if s.cgGrpInited = false then none
    else
      let s := { s with cgGrpInited := false }
      if env.hgFiniRc ≠ 0 then
        { s with cgRefcount := s.cgRefcount + 1 }.finalizeOut fi env.hgFiniRc
      else if s.cgAddr = false ∨ s.cgOpcMap = false then none
      else
        let s := { s with cgAddr := false, cgServer := false, cgOpcMap := false }
        if env.rwlockDestroyRc ≠ 0 then s.finalizeOut fi env.rwlockDestroyRc
        else { s with cgRefcount := 0, cgInited := false, gdataInitFlag := false }.finalizeOut fi 0

/-- The count is an `unsigned int`, and would wrap below zero. -/
def crtFinalize (env : CrtFinalizeEnv) (s : CrtLib) : Option (ℤ × CrtLib) :=
  if s.rwlockHeld = true then none
  else if s.crtInitialized = false then some (-derUninit, s)
  else
    let s := { s with cgRefcount := if s.cgRefcount = 0 then 2 ^ 32 - 1 else s.cgRefcount - 1 }
    if s.cgRefcount = 0 then s.takeDown fi env else s.finalizeOut fi 0

/-- The counts that a call of `crt_init_opt` takes first. -/
def enter : CrtLib :=
  { s with logRef := s.logRef + 1, fiRef := s.fiRef + fi.toNat }

/-- What is in `rc` after `d_fault_inject_init`. -/
def entryRc : ℤ :=
  if fi = false then -derNosys else if s.fiRef = 0 then env.faultConfigRc else 0

end

theorem crtInitOpt_eq (fi : Bool) {env : CrtInitEnv} (hlog : env.logRc = 0) (s : CrtLib) :
    s.crtInitOpt fi env =
      ((s.enter fi).initBody env (s.entryRc fi env)).bind fun r => r.2.initOut fi r.1 := by
  rw [crtInitOpt, if_neg (not_not.mpr hlog)]
  cases fi <;> rfl

/-! ### What the steps of `crt_init_opt` do -/

/-- A call that failed with the lock free has changed nothing that counts. -/
structure Kept (s s' : CrtLib) : Prop where
  free : s'.rwlockHeld = false
  logRef : s'.logRef = s.logRef
  fiRef : s'.fiRef = s.fiRef
  refcount : s'.cgRefcount = s.cgRefcount
  inited : s'.cgInited = s.cgInited
  same : s.cgInited = true → s' = { s with rwlockHeld := false }
  clean : s.cgInited = false → s'.cgGrpInited = false ∧ s'.cgSwimInited = false

/-- The library is up after the call. -/
structure Started (s s' : CrtLib) : Prop where
  free : s'.rwlockHeld = false
  logRef : s'.logRef = s.logRef
  fiRef : s'.fiRef = s.fiRef
  flag : s'.gdataInitFlag = s.gdataInitFlag
  refcount : s'.cgRefcount = s.cgRefcount + 1
  inited : s'.cgInited = true
  up : s'.cgAddr = true ∧ s'.cgOpcMap = true
  swim : s'.cgSwimInited = true → s'.cgServer = true
  plugin : s'.pluginUp = true ↔ (s.cpgInited = true → s.pluginUp = true)

/-- Nothing that `crt_init_opt` calls fails from `crt_hg_init` on. -/
structure SetUpOk (env : CrtInitEnv) (s : CrtLib) : Prop where
  hg : env.hgInitRc = 0
  gdata : env.grpGdataRc = 0
  grp : env.grpInitRc = 0
  plugin : s.cpgInited = false → env.pluginInitRc = 0
  opcMap : env.opcMapRc = 0
  swim : env.server = true → env.autoSwimDisable = false → env.swimInitRc = 0

/-- The group is created with an id that is too long. -/
def IdTooLong (env : CrtInitEnv) : Prop :=
  env.hgInitRc = 0 ∧ env.grpGdataRc = 0 ∧ ¬ GrpIdFits (env.grpid.getD crtDefaultGrpid)

section

variable {env : CrtInitEnv} {s s' : CrtLib} {fi server : Bool} {rc : ℤ} {plugin : NaType}

theorem kept_cleanup (hlog : s'.logRef = s.logRef) (hfi : s'.fiRef = s.fiRef)
    (href : s'.cgRefcount = s.cgRefcount) (hinit : s.cgInited = false)
    (hswim : s'.cgSwimInited = false) : Kept s s'.cleanup := by
  refine ⟨rfl, hlog, hfi, href, hinit.symm, fun hc => ?_, fun _ => ⟨rfl, hswim⟩⟩
  rw [hinit] at hc
  cases hc

/-- `crt_swim_init` where it has not been called yet. -/
theorem swimInit_cases (env : CrtInitEnv) (hswim : s.cgSwimInited = false) :
    (s.cgServer = true ∧ env.autoSwimDisable = false ∧ env.swimInitRc ≠ 0 ∧
        s.swimInit env = (env.swimInitRc, s)) ∨
      ((s.cgServer = true → env.autoSwimDisable = false → env.swimInitRc = 0) ∧
        ∃ b, (b = true → s.cgServer = true) ∧
          s.swimInit env = (0, { s with cgSwimInited := b })) := by
  unfold swimInit
  by_cases hcall : s.cgServer = true ∧ env.autoSwimDisable = false
  · rw [if_pos hcall, hswim, if_neg Bool.false_ne_true]
    by_cases hrc : env.swimInitRc = 0
    · rw [if_neg (not_not.mpr hrc)]
      exact .inr ⟨fun _ _ => hrc, true, fun _ => hcall.1, rfl⟩
    · rw [if_pos hrc]
      exact .inl ⟨hcall.1, hcall.2, hrc, rfl⟩
  · rw [if_neg hcall]
    refine .inr ⟨fun h1 h2 => absurd ⟨h1, h2⟩ hcall, false, fun hc => (by cases hc), ?_⟩
    rw [← hswim]

/-- From `crt_hg_init` on the lock is always released. -/
theorem setUp_cases (hinit : s.cgInited = false) (hgrp : s.cgGrpInited = false)
    (hswim : s.cgSwimInited = false) (hserver : s.cgServer = env.server) :
    (IdTooLong env ∧ s.setUp env = none) ∨
      (¬ IdTooLong env ∧ ¬ SetUpOk env s ∧
        ∃ rc s', s.setUp env = some (rc, s') ∧ rc ≠ 0 ∧ Kept s s') ∨
      (¬ IdTooLong env ∧ SetUpOk env s ∧ ∃ s', s.setUp env = some (0, s') ∧ Started s s') := by
  unfold setUp
  by_cases hhg : env.hgInitRc = 0
  swap
  · rw [if_pos hhg]
    exact .inr (.inl ⟨fun hc => hhg hc.1, fun hc => hhg hc.hg, _, _, rfl, hhg,
      kept_cleanup rfl rfl rfl hinit hswim⟩)
  rw [if_neg (not_not.mpr hhg)]
  rw [hgrp, if_neg Bool.false_ne_true]
  by_cases hgdata : env.grpGdataRc = 0
  swap
  · rw [if_pos hgdata]
    exact .inr (.inl ⟨fun hc => hgdata hc.2.1, fun hc => hgdata hc.gdata, _, _, rfl, hgdata,
      kept_cleanup rfl rfl rfl hinit hswim⟩)
  rw [if_neg (not_not.mpr hgdata)]
  by_cases hid : GrpIdFits (env.grpid.getD crtDefaultGrpid)
  swap
  · rw [if_pos hid]
    exact .inl ⟨⟨hhg, hgdata, hid⟩, rfl⟩
  rw [if_neg (not_not.mpr hid)]
  have hlong : ¬ IdTooLong env := fun hc => hc.2.2 hid
  by_cases hgrp' : env.grpInitRc = 0
  swap
  · rw [if_pos hgrp']
    exact .inr (.inl ⟨hlong, fun hc => hgrp' hc.grp, _, _, rfl, hgrp',
      kept_cleanup rfl rfl rfl hinit hswim⟩)
  rw [if_neg (not_not.mpr hgrp')]
  by_cases hplugin : s.cpgInited = false ∧ env.pluginInitRc ≠ 0
  · rw [if_pos hplugin]
    exact .inr (.inl ⟨hlong, fun hc => hplugin.2 (hc.plugin hplugin.1), _, _, rfl, hplugin.2,
      kept_cleanup rfl rfl rfl hinit hswim⟩)
  rw [if_neg hplugin]
  -- the plugin state is set up just if it is not marked as such
  generalize hs₁ : (if s.cpgInited = false then
    ({ s with cgAddr := true, cgGrpInited := true, cpgInited := true, pluginUp := true } : CrtLib)
    else { s with cgAddr := true, cgGrpInited := true }) = s₁
  obtain ⟨hlog, hfi, hflag, href, hserver₁, hswim₁, haddr⟩ : s₁.logRef = s.logRef ∧
      s₁.fiRef = s.fiRef ∧ s₁.gdataInitFlag = s.gdataInitFlag ∧ s₁.cgRefcount = s.cgRefcount ∧
      s₁.cgServer = s.cgServer ∧ s₁.cgSwimInited = s.cgSwimInited ∧ s₁.cgAddr = true := by
    rw [← hs₁]
    split_ifs with hcpg
    · exact ⟨rfl, rfl, rfl, rfl, rfl, rfl, rfl⟩
    · exact ⟨rfl, rfl, rfl, rfl, rfl, rfl, rfl⟩
  have hup : s₁.pluginUp = true ↔ (s.cpgInited = true → s.pluginUp = true) := by
    rw [← hs₁]
    split_ifs with hcpg
    · rw [hcpg]
      simp
    · rw [Bool.not_eq_false] at hcpg
      simp [hcpg]
  by_cases hopc : env.opcMapRc = 0
  swap
  · rw [if_pos hopc]
    exact .inr (.inl ⟨hlong, fun hc => hopc hc.opcMap, _, _, rfl, hopc,
      kept_cleanup hlog hfi href hinit (hswim₁.trans hswim)⟩)
  rw [if_neg (not_not.mpr hopc)]
  have hok : SetUpOk env s ↔
      (env.server = true → env.autoSwimDisable = false → env.swimInitRc = 0) := by
    refine ⟨fun hc => hc.swim, fun hc => ⟨hhg, hgdata, hgrp', fun hcpg => ?_, hopc, hc⟩⟩
    by_contra hne
    exact hplugin ⟨hcpg, hne⟩
  rw [hok, ← hserver, ← hserver₁]
  rcases swimInit_cases (s := { s₁ with cgOpcMap := true, cgInited := true }) env
    (hswim₁.trans hswim) with ⟨hsrv, hauto, hrc, heq⟩ | ⟨hall, b, hb, heq⟩
  · rw [heq]
    dsimp only
    rw [if_pos hrc]
    exact .inr (.inl ⟨hlong, fun hc => hrc (hc hsrv hauto), _, _, rfl, hrc,
      kept_cleanup hlog hfi href hinit (hswim₁.trans hswim)⟩)
  · rw [heq]
    dsimp only
    rw [if_neg (not_not.mpr rfl)]
    refine .inr (.inr ⟨hlong, hall, _, rfl, ?_⟩)
    exact ⟨rfl, hlog, hfi, hflag, by rw [← href], rfl, ⟨haddr, rfl⟩, hb, hup⟩

/-- The provider that `crt_init_opt` uses if it has to start the library. -/
def chosen (env : CrtInitEnv) (s : CrtLib) : Option NaType :=
  match env.phyAddrStr with
  | none => some (if s.gdataInitFlag = true then s.cgNaPlugin else .ofiSockets)
  | some str => crtNaDict.lookup str

/-- It is one that is supported, and its configuration succeeds. -/
def Usable (env : CrtInitEnv) (s : CrtLib) : Prop :=
  ∃ plugin ∈ s.chosen env,
    plugin ≠ .ofiVerbs ∧ (plugin.crtNaTypeIsOfi = true → env.ofiConfigRc = 0)

/-- An error on the way to Mercury leaves the lock held. -/
theorem startUp_of_not_usable (hflag : s.gdataInitFlag = true) (h : ¬ s.Usable env) :
    ∃ rc s', s.startUp env = some (rc, s') ∧ s'.rwlockHeld = s.rwlockHeld := by
  have hchosen : ({ s with cgServer := env.server } : CrtLib).provider env = s.chosen env := by
    rw [provider, chosen, if_pos hflag]
  unfold startUp
  dsimp only
  rw [hchosen]
  cases hplugin : s.chosen env with
  | none => exact ⟨_, _, rfl, rfl⟩
  | some plugin =>
    dsimp only
    by_cases hverbs : plugin = .ofiVerbs
    · rw [if_pos hverbs]
      exact ⟨_, _, rfl, rfl⟩
    rw [if_neg hverbs]
    by_cases hconfig : plugin.crtNaTypeIsOfi = true ∧ env.ofiConfigRc ≠ 0
    · rw [if_pos hconfig]
      exact ⟨_, _, rfl, rfl⟩
    · refine absurd ⟨plugin, hplugin, hverbs, fun hofi => ?_⟩ h
      by_contra hne
      exact hconfig ⟨hofi, hne⟩

theorem startUp_of_usable (hflag : s.gdataInitFlag = true) (h : s.Usable env) :
    ∃ plugin, s.startUp env = { s with cgServer := env.server, cgNaPlugin := plugin }.setUp env := by
  obtain ⟨plugin, hplugin, hverbs, hconfig⟩ := h
  have hchosen : ({ s with cgServer := env.server } : CrtLib).provider env = some plugin := by
    rw [provider, ← hplugin, chosen, if_pos hflag]
  refine ⟨plugin, ?_⟩
  unfold startUp
  dsimp only
  rw [hchosen]
  dsimp only
  rw [if_neg hverbs, if_neg fun hc => hc.2 (hconfig hc.1)]

/-! ### The global data -/

/-- What the calls keep true of the global data. -/
structure Good (fi : Bool) (s : CrtLib) : Prop where
  free : s.rwlockHeld = false
  inited : s.cgInited = true ↔ 0 < s.cgRefcount
  up : s.cgInited = true → s.gdataInitFlag = true ∧ s.cgAddr = true ∧ s.cgOpcMap = true
  down : s.cgInited = false → s.cgGrpInited = false ∧ s.cgSwimInited = false
  swim : s.cgSwimInited = true → s.cgServer = true
  log : s.cgRefcount ≤ s.logRef
  fault : fi = true → s.cgRefcount ≤ s.fiRef

/-- The global data are there, or `data_init` sets them up. -/
def DataOk (env : CrtInitEnv) (s : CrtLib) : Prop :=
  s.gdataInitFlag = false → env.rwlockInitRc = 0 ∧
    ¬ (env.server = true ∧ env.memPinDisable = false ∧ env.memPinRc ≠ 0)

/-- The global data after `data_init`, if it is called. -/
def readied (s : CrtLib) : CrtLib :=
  if s.gdataInitFlag = true then s
  else { s with
    rwlockHeld := false, cgRefcount := 0, cgInited := false, cgAddr := false,
    cgNaPlugin := .ofiSockets, gdataInitFlag := true }

section

variable (h : Good fi s)

include h

theorem Good.kept : Kept s s := by
  refine ⟨h.free, rfl, rfl, rfl, rfl, fun _ => ?_, h.down⟩
  rw [← h.free]

theorem Good.refcount_eq_zero (hinit : s.cgInited = false) : s.cgRefcount = 0 := by
  by_contra hne
  rw [h.inited.mpr (Nat.pos_of_ne_zero hne)] at hinit
  cases hinit

theorem Good.inited_of_not_flag (hflag : s.gdataInitFlag = false) : s.cgInited = false := by
  by_contra hne
  rw [Bool.not_eq_false] at hne
  rw [(h.up hne).1] at hflag
  cases hflag

theorem Good.kept_of_not_flag (hflag : s.gdataInitFlag = false) (plugin : NaType) : Kept s { s with
      rwlockHeld := false, cgRefcount := 0, cgInited := false, cgAddr := false,
      cgNaPlugin := plugin } := by
  have hinit := h.inited_of_not_flag hflag
  refine ⟨rfl, rfl, rfl, (h.refcount_eq_zero hinit).symm, hinit.symm, fun hc => ?_,
    fun _ => h.down hinit⟩
  rw [hinit] at hc
  cases hc

theorem initBody_refused (hno : ¬ ((rc = 0 ∨ rc = -derNosys) ∧ GrpidOk env ∧ s.DataOk env)) :
    ∃ rc' s', s.initBody env rc = some (rc', s') ∧ rc' ≠ 0 ∧ Kept s s' := by
  unfold initBody
  by_cases hrc : rc ≠ 0 ∧ rc ≠ -derNosys
  · rw [if_pos hrc]
    exact ⟨rc, s, rfl, hrc.1, h.kept⟩
  rw [if_neg hrc]
  by_cases hgrpid : GrpidOk env
  swap
  · rw [if_pos hgrpid]
    exact ⟨_, s, rfl, by decide, h.kept⟩
  rw [if_neg (not_not.mpr hgrpid)]
  have hdata : ¬ s.DataOk env := by
    refine fun hdata => hno ⟨?_, hgrpid, hdata⟩
    by_contra hc
    exact hrc (not_or.mp hc)
  obtain ⟨hflag, hfail⟩ := Classical.not_imp.mp hdata
  rw [if_pos hflag]
  unfold dataInit
  by_cases hlock : env.rwlockInitRc = 0
  swap
  · rw [if_pos hlock]
    dsimp only
    rw [if_pos hlock]
    exact ⟨_, s, rfl, neg_ne_zero.mpr hlock, h.kept⟩
  rw [if_neg (not_not.mpr hlock)]
  have hpin : env.server = true ∧ env.memPinDisable = false ∧ env.memPinRc ≠ 0 := by
    by_contra hc
    exact hfail ⟨hlock, hc⟩
  rw [if_pos hpin]
  dsimp only
  rw [if_pos hpin.2.2]
  exact ⟨_, _, rfl, neg_ne_zero.mpr hpin.2.2, h.kept_of_not_flag hflag _⟩

end

theorem initBody_admitted (hrc : rc = 0 ∨ rc = -derNosys) (hgrpid : GrpidOk env)
    (hdata : s.DataOk env) :
    s.initBody env rc = s.readied.locked env (if s.gdataInitFlag = true then rc else 0) := by
  unfold initBody
  have hno : ¬ (rc ≠ 0 ∧ rc ≠ -derNosys) := fun hc => hrc.elim hc.1 hc.2
  rw [if_neg hno, if_neg (not_not.mpr hgrpid), readied]
  by_cases hflag : s.gdataInitFlag = true
  · rw [if_neg (by rw [hflag]; decide), if_pos hflag, if_pos hflag]
  · have hflag' := Bool.eq_false_iff.mpr hflag
    obtain ⟨hlock, hpin⟩ := hdata hflag'
    rw [if_pos hflag', if_neg hflag, if_neg hflag]
    unfold dataInit
    rw [if_neg (not_not.mpr hlock)]
    rw [if_neg hpin]
    rfl

theorem readied_of_flag (hflag : s.gdataInitFlag = true) : s.readied = s := if_pos hflag

theorem readied_frame (s : CrtLib) : s.readied.gdataInitFlag = true ∧
    s.readied.logRef = s.logRef ∧ s.readied.fiRef = s.fiRef ∧
    s.readied.cgGrpInited = s.cgGrpInited ∧ s.readied.cgSwimInited = s.cgSwimInited ∧
    s.readied.cpgInited = s.cpgInited ∧ s.readied.pluginUp = s.pluginUp := by
  rw [readied]
  split_ifs with hflag
  · exact ⟨hflag, rfl, rfl, rfl, rfl, rfl, rfl⟩
  · exact ⟨rfl, rfl, rfl, rfl, rfl, rfl, rfl⟩

theorem chosen_readied (env : CrtInitEnv) (s : CrtLib) : s.readied.chosen env = s.chosen env := by
  rw [chosen, chosen, if_pos s.readied_frame.1, readied]
  by_cases hflag : s.gdataInitFlag = true
  · rw [if_pos hflag, if_pos hflag]
  · rw [if_neg hflag, if_neg hflag]

theorem Good.readied (h : Good fi s) : s.readied.rwlockHeld = false ∧
    s.readied.cgRefcount = s.cgRefcount ∧ s.readied.cgInited = s.cgInited := by
  rw [CrtLib.readied]
  by_cases hflag : s.gdataInitFlag = true
  · rw [if_pos hflag]
    exact ⟨h.free, rfl, rfl⟩
  · have hinit := h.inited_of_not_flag (Bool.eq_false_iff.mpr hflag)
    rw [if_neg hflag]
    exact ⟨rfl, (h.refcount_eq_zero hinit).symm, hinit.symm⟩

theorem Good.enter (h : Good fi s) : Good fi (s.enter fi) :=
  ⟨h.free, h.inited, h.up, h.down, h.swim, Nat.le_succ_of_le h.log,
    fun hfi => (h.fault hfi).trans (Nat.le_add_right _ _)⟩

/-- The error path of `crt_init_opt` gives back the two counts taken first. -/
theorem initOut_error (hrc : rc ≠ 0) {l f : ℕ} (hlog : s.logRef = l + 1)
    (hfi : s.fiRef = f + fi.toNat) :
    s.initOut fi rc = some (rc, { s with logRef := l, fiRef := f }) := by
  rw [initOut, if_pos hrc]
  cases fi with
  | false =>
    rw [dFaultInjectFini, if_pos rfl, dLogFini, if_neg (by omega), map_some, hlog]
    have hf : s.fiRef = f := hfi
    rw [← hf]
    rfl
  | true =>
    have hf : s.fiRef = f + 1 := hfi
    have hne : ({ s with fiRef := s.fiRef - 1 } : CrtLib).logRef ≠ 0 := by
      show s.logRef ≠ 0
      omega
    rw [dFaultInjectFini, if_neg (by decide), dLogFini, if_neg hne, map_some]
    rw [hlog, hf]
    rfl

theorem initOut_rwlockHeld {rc' : ℤ}
    (h : s.initOut fi rc = some (rc', s')) : s'.rwlockHeld = s.rwlockHeld := by
  rw [initOut] at h
  split at h
  · obtain ⟨t, hfini, heq⟩ := map_eq_some_iff.mp h
    cases heq
    rw [dLogFini] at hfini
    split at hfini
    · cases hfini
    · cases hfini
      cases fi <;> rfl
  · cases h
    rfl

theorem Kept.leave {t : CrtLib} (hrc : rc ≠ 0) (h : Kept (s.enter fi) t) :
    ∃ s', t.initOut fi rc = some (rc, s') ∧ Kept s s' := by
  refine ⟨_, initOut_error hrc h.logRef h.fiRef, h.free, rfl, rfl, h.refcount, h.inited,
    fun hinit => ?_, h.clean⟩
  rw [h.same hinit]
  rfl

/-- A call to a library that is not up, with the lock taken and the provider
chosen. -/
def onset (server : Bool) (plugin : NaType) (s : CrtLib) : CrtLib :=
  { s.readied with rwlockHeld := true, cgServer := server, cgNaPlugin := plugin }

theorem Kept.of_onset (h : Good fi s)
    (hinit : s.cgInited = false) (hkept : Kept (s.onset server plugin) s') : Kept s s' := by
  obtain ⟨_, hlog, hfi, _⟩ := s.readied_frame
  obtain ⟨_, href, hinit'⟩ := h.readied
  refine ⟨hkept.free, hkept.logRef.trans hlog, hkept.fiRef.trans hfi, hkept.refcount.trans href,
    hkept.inited.trans hinit', fun hc => ?_, fun _ => hkept.clean (hinit'.trans hinit)⟩
  rw [hinit] at hc
  cases hc

/-- The library has one reference more after the call. -/
structure Grown (fi : Bool) (s s' : CrtLib) : Prop where
  free : s'.rwlockHeld = false
  refcount : s'.cgRefcount = s.cgRefcount + 1
  logRef : s'.logRef = s.logRef + 1
  fiRef : s'.fiRef = s.fiRef + fi.toNat
  inited : s'.cgInited = true
  up : s'.gdataInitFlag = true ∧ s'.cgAddr = true ∧ s'.cgOpcMap = true
  swim : s'.cgSwimInited = true → s'.cgServer = true

theorem Started.grown (h : Good fi s)
    (hs : Started ((s.enter fi).onset server plugin) s') : Grown fi s s' := by
  obtain ⟨hflag, hlog, hfi, _⟩ := (s.enter fi).readied_frame
  exact ⟨hs.free, hs.refcount.trans (congrArg (· + 1) h.enter.readied.2.1), hs.logRef.trans hlog,
    hs.fiRef.trans hfi, hs.inited, ⟨hs.flag.trans hflag, hs.up⟩, hs.swim⟩

theorem Kept.good (hk : Kept s s') (h : Good fi s) : Good fi s' := by
  refine ⟨hk.free, ?_, fun hinit => ?_, fun hinit => hk.clean (hk.inited.symm.trans hinit),
    fun hswim => ?_, ?_, ?_⟩
  · rw [hk.inited, hk.refcount]
    exact h.inited
  · have hinit' := hk.inited.symm.trans hinit
    rw [hk.same hinit']
    exact h.up hinit'
  · cases hinit : s.cgInited with
    | false =>
      rw [(hk.clean hinit).2] at hswim
      cases hswim
    | true =>
      rw [hk.same hinit] at hswim ⊢
      exact h.swim hswim
  · rw [hk.refcount, hk.logRef]
    exact h.log
  · rw [hk.refcount, hk.fiRef]
    exact h.fault

theorem Grown.good (hg : Grown fi s s') (h : Good fi s) : Good fi s' := by
  refine ⟨hg.free, iff_of_true hg.inited (hg.refcount ▸ Nat.succ_pos _), fun _ => hg.up,
    fun hc => ?_, hg.swim, ?_, fun hfi => ?_⟩
  · rw [hg.inited] at hc
    cases hc
  · rw [hg.refcount, hg.logRef]
    exact Nat.succ_le_succ h.log
  · rw [hg.refcount, hg.fiRef, hfi]
    exact Nat.succ_le_succ (h.fault hfi)

/-! ### `crt_init_opt` -/

/-- The call gets to the lock. -/
def Admitted (fi : Bool) (env : CrtInitEnv) (s : CrtLib) : Prop :=
  env.logRc = 0 ∧
    (fi = true → s.fiRef = 0 → env.faultConfigRc = 0 ∨ env.faultConfigRc = -derNosys) ∧
    GrpidOk env ∧ s.DataOk env

/-- A start has a usable provider, an id that can be created and a plugin state that is there if
marked; another has fault injection or is refused. -/
def InitOrderly (fi : Bool) (env : CrtInitEnv) (s : CrtLib) : Prop :=
  s.Admitted fi env →
    (s.cgInited = false → s.Usable env ∧ ¬ IdTooLong env ∧
      (SetUpOk env s → s.cpgInited = true → s.pluginUp = true)) ∧
    (s.cgInited = true → fi = true ∨ s.cgServer = false ∧ env.server = true)

/-- A call that leaves the lock held, or fails and changes a count, or does not
return. -/
def Spoils (r : Option (ℤ × CrtLib)) (s : CrtLib) : Prop :=
  ∀ rc s', r = some (rc, s') →
    s'.rwlockHeld = true ∨ rc ≠ 0 ∧ (s'.cgRefcount ≠ s.cgRefcount ∨ s'.fiRef ≠ s.fiRef)

theorem entryRc_iff (fi : Bool) (env : CrtInitEnv) (s : CrtLib) :
    (s.entryRc fi env = 0 ∨ s.entryRc fi env = -derNosys) ↔
      (fi = true → s.fiRef = 0 → env.faultConfigRc = 0 ∨ env.faultConfigRc = -derNosys) := by
  rw [entryRc]
  cases fi with
  | false => exact iff_of_true (.inr rfl) fun hc => (by cases hc)
  | true =>
    rw [if_neg (by decide)]
    split_ifs with href
    · exact ⟨fun hrc _ _ => hrc, fun hrc => hrc rfl href⟩
    · exact iff_of_true (.inl rfl) fun _ hc => absurd hc href

theorem Good.init_down (h : Good fi s) (hinit : s.cgInited = false) (env : CrtInitEnv) (rc : ℤ) :
    (s.Usable env ∧ ¬ IdTooLong env ∧ ¬ SetUpOk env s ∧
        ∃ rc' t, (s.enter fi).readied.locked env rc = some (rc', t) ∧ rc' ≠ 0 ∧
          Kept (s.enter fi) t) ∨
      (s.Usable env ∧ ¬ IdTooLong env ∧ SetUpOk env s ∧
        ∃ t, (s.enter fi).readied.locked env rc = some (0, t) ∧ Grown fi s t ∧
          (t.pluginUp = true ↔ (s.cpgInited = true → s.pluginUp = true))) ∨
      (¬ (s.Usable env ∧ ¬ IdTooLong env) ∧
        ∀ rc' t, (s.enter fi).readied.locked env rc = some (rc', t) → t.rwlockHeld = true) := by
  obtain ⟨hfree, href, hinited⟩ := h.enter.readied
  obtain ⟨hflag, hlog, hfi, hgrp, hswim, hcpg, hplugin⟩ := (s.enter fi).readied_frame
  have hdown := h.down hinit
  have hinit' : (s.enter fi).readied.cgInited = false := hinited.trans hinit
  have hstart : (s.enter fi).readied.locked env rc =
      { (s.enter fi).readied with rwlockHeld := true }.startUp env := by
    unfold locked
    rw [if_neg (by rw [hfree]; decide)]
    rw [if_pos hinit']
  rw [hstart]
  have husable : ({ (s.enter fi).readied with rwlockHeld := true } : CrtLib).Usable env ↔
      s.Usable env := by
    have hchosen : ({ (s.enter fi).readied with rwlockHeld := true } : CrtLib).chosen env =
        s.chosen env := (s.enter fi).chosen_readied env
    rw [Usable, Usable, hchosen]
  by_cases hu : s.Usable env
  swap
  · refine .inr (.inr ⟨fun hc => hu hc.1, fun rc' t heq => ?_⟩)
    obtain ⟨rc', t', heq', hheld⟩ := startUp_of_not_usable
      (s := { (s.enter fi).readied with rwlockHeld := true }) hflag fun hc => hu (husable.mp hc)
    cases heq'.symm.trans heq
    exact hheld
  obtain ⟨plugin, heq⟩ := startUp_of_usable
    (s := { (s.enter fi).readied with rwlockHeld := true }) hflag (husable.mpr hu)
  have hok : SetUpOk env ((s.enter fi).onset env.server plugin) ↔ SetUpOk env s := by
    have hcpg' : ((s.enter fi).onset env.server plugin).cpgInited = s.cpgInited := hcpg
    refine ⟨fun hc => ⟨hc.hg, hc.gdata, hc.grp, ?_, hc.opcMap, hc.swim⟩,
      fun hc => ⟨hc.hg, hc.gdata, hc.grp, ?_, hc.opcMap, hc.swim⟩⟩
    · rw [← hcpg']
      exact hc.plugin
    · rw [hcpg']
      exact hc.plugin
  rw [heq]
  rcases setUp_cases (s := (s.enter fi).onset env.server plugin) hinit'
    (hgrp.trans hdown.1) (hswim.trans hdown.2) rfl with
    ⟨hlong, hnone⟩ | ⟨hlong, hnot, rc', t, hsome, hrc, hkept⟩ | ⟨hlong, hall, t, hsome, hs⟩
  · refine .inr (.inr ⟨fun hc => hc.2 hlong, fun rc' t heq' => ?_⟩)
    cases hnone.symm.trans heq'
  · exact .inl ⟨hu, hlong, fun hc => hnot (hok.mpr hc), rc', t, hsome, hrc,
      hkept.of_onset h.enter hinit⟩
  · refine .inr (.inl ⟨hu, hlong, hok.mp hall, t, hsome, hs.grown h, ?_⟩)
    have hcpg' : ((s.enter fi).onset env.server plugin).cpgInited = s.cpgInited := hcpg
    have hup' : ((s.enter fi).onset env.server plugin).pluginUp = s.pluginUp := hplugin
    rw [← hcpg', ← hup']
    exact hs.plugin

theorem Good.init_up (h : Good fi s) (hinit : s.cgInited = true) (env : CrtInitEnv) :
    ((s.cgServer = false ∧ env.server = true) ∧
        ∃ t, (s.enter fi).readied.locked env (s.entryRc fi env) = some (-derInval, t) ∧
          Kept (s.enter fi) t) ∨
      (¬ (s.cgServer = false ∧ env.server = true) ∧
        ∃ t, (s.enter fi).readied.locked env (s.entryRc fi env) = some (s.entryRc fi env, t) ∧
          Grown fi s t) := by
  rw [readied_of_flag (h.enter.up hinit).1]
  unfold locked
  have hfree : (s.enter fi).rwlockHeld = false := h.free
  have hinit' : (s.enter fi).cgInited ≠ false := by
    show s.cgInited ≠ false
    rw [hinit]
    decide
  rw [if_neg (by rw [hfree]; decide)]
  rw [if_neg hinit']
  split_ifs with hserver
  · refine .inl ⟨hserver, _, rfl, rfl, rfl, rfl, rfl, rfl, fun _ => rfl, fun hc => ?_⟩
    exact absurd hc hinit'
  · exact .inr ⟨hserver, _, rfl, rfl, rfl, rfl, rfl, hinit, h.up hinit, h.swim⟩

/-- **What `crt_init_opt` does**: it fails, takes a reference, or does damage. -/
theorem Good.init_cases (h : Good fi s) (env : CrtInitEnv) : (s.InitOrderly fi env ∧
        ∃ rc s', s.crtInitOpt fi env = some (rc, s') ∧ rc ≠ 0 ∧ Kept s s') ∨
      (∃ s', s.crtInitOpt fi env = some (0, s') ∧ Grown fi s s' ∧
        (s.InitOrderly fi env ↔ (s.cgInited = false → s'.pluginUp = true))) ∨
      (¬ s.InitOrderly fi env ∧ Spoils (s.crtInitOpt fi env) s) := by
  by_cases hlogRc : env.logRc = 0
  swap
  · refine .inl ⟨fun hc => absurd hc.1 hlogRc, env.logRc, s, ?_, hlogRc, h.kept⟩
    rw [crtInitOpt, if_pos hlogRc]
  rw [crtInitOpt_eq fi hlogRc]
  by_cases hadm : (s.entryRc fi env = 0 ∨ s.entryRc fi env = -derNosys) ∧ GrpidOk env ∧
      (s.enter fi).DataOk env
  swap
  · -- an error before the lock
    obtain ⟨rc, t, heq, hrc, hkept⟩ := initBody_refused h.enter hadm
    obtain ⟨s', hout, hkept'⟩ := hkept.leave hrc
    refine .inl ⟨fun hc => ?_, rc, s', ?_, hrc, hkept'⟩
    · exact absurd ⟨(entryRc_iff fi env s).mpr hc.2.1, hc.2.2⟩ hadm
    · rw [heq, bind_some, hout]
  have hall : s.Admitted fi env := ⟨hlogRc, (entryRc_iff fi env s).mp hadm.1, hadm.2⟩
  rw [initBody_admitted hadm.1 hadm.2.1 hadm.2.2]
  cases hinit : s.cgInited with
  | false =>
    have horderly : s.InitOrderly fi env ↔ s.Usable env ∧ ¬ IdTooLong env ∧
        (SetUpOk env s → s.cpgInited = true → s.pluginUp = true) := by
      refine ⟨fun hc => (hc hall).1 hinit, fun hc _ => ⟨fun _ => hc, fun hup => ?_⟩⟩
      rw [hinit] at hup
      cases hup
    rw [horderly]
    rcases h.init_down hinit env
      (if (s.enter fi).gdataInitFlag = true then s.entryRc fi env else 0) with
      ⟨hu, hlong, hnot, rc, t, heq, hrc, hkept⟩ | ⟨hu, hlong, hok, t, heq, hgrown, hplugin⟩ |
        ⟨hnot, hheld⟩
    · obtain ⟨s', hout, hkept'⟩ := hkept.leave hrc
      refine .inl ⟨⟨hu, hlong, fun hc => absurd hc hnot⟩, rc, s', ?_, hrc, hkept'⟩
      rw [heq, bind_some, hout]
    · refine .inr (.inl ⟨t, ?_, hgrown, ?_⟩)
      · rw [heq]
        rfl
      · rw [hplugin]
        exact ⟨fun hc _ => hc.2.2 hok, fun hc => ⟨hu, hlong, fun _ => hc rfl⟩⟩
    · refine .inr (.inr ⟨fun hc => hnot ⟨hc.1, hc.2.1⟩, fun rc s' heq => ?_⟩)
      obtain ⟨r, hr, hout⟩ := bind_eq_some_iff.mp heq
      exact .inl ((initOut_rwlockHeld hout).trans (hheld r.1 r.2 hr))
  | true =>
    have hflag : (s.enter fi).gdataInitFlag = true := (h.enter.up hinit).1
    have horderly : s.InitOrderly fi env ↔ fi = true ∨ s.cgServer = false ∧ env.server = true := by
      refine ⟨fun hc => (hc hall).2 hinit, fun hc _ => ⟨fun hdown => ?_, fun _ => hc⟩⟩
      rw [hinit] at hdown
      cases hdown
    rw [horderly, if_pos hflag]
    rcases h.init_up hinit env with ⟨hserver, t, heq, hkept⟩ | ⟨hserver, t, heq, hgrown⟩
    · obtain ⟨s', hout, hkept'⟩ := hkept.leave (show -derInval ≠ 0 by decide)
      refine .inl ⟨.inr hserver, -derInval, s', ?_, by decide, hkept'⟩
      rw [heq, bind_some, hout]
    rw [heq, bind_some]
    cases hfi : fi with
    | true =>
      have hrc : s.entryRc true env = 0 := by
        have hpos := h.inited.mp hinit
        have href := h.fault hfi
        rw [entryRc, if_neg (by decide), if_neg (by omega)]
      rw [hfi] at hgrown
      refine .inr (.inl ⟨t, ?_, hgrown, iff_of_true (.inl rfl) fun hc => by cases hc⟩)
      rw [hrc]
      rfl
    | false =>
      -- what fault injection returned is still in `rc`
      refine .inr (.inr ⟨fun hc => hc.elim (fun hc => by cases hc) hserver, fun rc s' hout => ?_⟩)
      have hne : s.entryRc false env ≠ 0 := by
        show -derNosys ≠ 0
        decide
      rw [hfi] at hgrown
      have hout' := initOut_error hne hgrown.logRef hgrown.fiRef
      cases hout'.symm.trans hout
      refine .inr ⟨hne, .inl ?_⟩
      rw [hgrown.refcount]
      exact Nat.succ_ne_self _

end

end CrtLib

end Cart
