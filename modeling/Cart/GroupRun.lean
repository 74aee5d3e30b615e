/-
Runs of the membership functions.

Ranks are added to a primary group or a view and its secondary groups, and removed, in every
way there is.  A call that fails a `D_ASSERT` or divides by zero is no step; one that writes
past the end of an array has no next state.

Main results: `GrpWorld.exec_ok`, `group_slots_consistent`, `group_mappings_inverse`.
-/
import Cart.GroupMapping

open List Option

namespace Cart

open GrpWorld

open CrtSwimMembs (RankAddEnv)

/-! ### Groups that start -/

namespace GrpPriv

/-- `crt_grp_priv_create` and `grp_priv_init_membs`. -/
def crtGrpPrivCreate (primary view : Bool) (own size : ℕ) : GrpPriv where
  gpPrimary := primary
  gpView := view
  gpMembs := .grpPrivInitMembs size
  gpSize := size
  gpSelf := own
  gpPsrRank := 0
  gpMembsSwim := .crtSwimInit
  gpUriLookupCache := fun _ => false
  gpP2sTable := fun _ => none
  gpS2pTable := fun _ => none

def crtPrimaryGrpInit (service : Bool) : GrpPriv :=
  if service then crtGrpPrivCreate true false crtNoRank 0 else crtGrpPrivCreate true false 0 1

def crtGroupViewCreate : GrpPriv := crtGrpPrivCreate true true crtNoRank 0

/-- Without ranks. -/
def crtGroupSecondaryCreate : GrpPriv := crtGrpPrivCreate false false crtNoRank 0

def crtGroupRankP2s (g : GrpPriv) (rankIn : ℕ) : Except Stop ℕ :=
  if g.gpPrimary then .ok rankIn
  else
    match g.gpP2sTable rankIn with
    | none => .error (.rc (-derOog))
    | some rankOut => .ok rankOut

/-- With `crt_grp_priv_get_primary_rank`. -/
def crtGroupRankS2p (service : Bool) (g : GrpPriv) (rankIn : ℕ) : Except Stop ℕ :=
  if service = false then .error (.rc (-derInval))
  else if g.gpPrimary then .ok rankIn
  else .ok ((g.gpS2pTable rankIn).getD crtNoRank)

end GrpPriv

/-- The primary groups: that of the process, or a view. -/
def Starts (service : Bool) (prim : GrpPriv) : Prop :=
  prim = .crtPrimaryGrpInit service ∨ prim = .crtGroupViewCreate

/-! ### Calls -/

/-- The calls that change the membership of a primary group or of the `i`-th of its
secondary groups. -/
inductive GrpOp where
  -- `crt_group_primary_rank_add`
  | rankAdd (env : RankAddEnv) (rank : ℕ) (uri : Bool)
  | selfSet (env : RankAddEnv) (rank : ℕ) (uri : Bool)
  | rankRemove (rank : ℕ)
  | modify (envs : ℕ → RankAddEnv) (ranks : List ℕ) (uris : Option (ℕ → Bool)) (op : GroupModOp)
  | configLoad (file : Except ℤ (List (RankAddEnv × ℕ)))
  | psrReload (uri : Bool) (file : Except ℤ (List (RankAddEnv × ℕ)))
  -- a URI that is found otherwise
  | uriInsert (rank : ℕ)
  | secCreate
  | secDestroy (i : ℕ)
  | secRankAdd (i : ℕ) (env : RankAddEnv) (secRank primRank : ℕ)
  | secRankRemove (i : ℕ) (rank : ℕ)
  | secModify (i : ℕ) (envs : ℕ → RankAddEnv) (secRanks primRanks : List ℕ) (op : GroupModOp)

namespace GrpWorld

variable (service : Bool) (w : GrpWorld)

/-- A call on the primary group. -/
def onPrim (result : Except GrpStop (ℤ × GrpPriv)) : Except GrpStop (ℤ × GrpWorld) :=
  result.map fun r => (r.1, { w with prim := r.2 })

/-- A call on a secondary group, if there is one. -/
def onSec (i : ℕ) (f : GrpPriv → Except GrpStop (ℤ × GrpPriv)) : Except GrpStop (ℤ × GrpWorld) :=
  match w.secs[i]? with
  | none => .ok (-derInval, w)
  | some sec => (f sec).map fun r => (r.1, { w with secs := w.secs.set i r.2 })

/-- The return code and the groups after a call. -/
def exec : GrpOp → Except GrpStop (ℤ × GrpWorld)
  | .rankAdd env rank uri => w.onPrim (w.prim.crtGroupPrimaryAddInternal service env rank uri)
  -- the self rank is that of the group of the process, and no concern of a view
  | .selfSet env rank uri =>
    if w.prim.gpView then .ok (0, w) else w.onPrim (w.prim.crtRankSelfSet service env rank uri)
  | .rankRemove rank => .ok (w.crtGroupRankRemove service rank)
  | .modify envs ranks uris op => w.crtGroupPrimaryModify service envs ranks uris op
  | .configLoad file => w.onPrim (w.prim.crtGrpConfigPsrLoad service crtNoRank file)
  | .psrReload uri file => w.onPrim (w.prim.crtGrpPsrReload service uri file)
  | .uriInsert rank => .ok (0, { w with prim := w.prim.crtGrpLcUriInsert rank true })
  | .secCreate => .ok (0, { w with secs := w.secs ++ [.crtGroupSecondaryCreate] })
  | .secDestroy i => .ok (0, { w with secs := w.secs.eraseIdx i })
  | .secRankAdd i env secRank primRank =>
    w.onSec i fun sec => sec.crtGroupSecondaryRankAdd service env w.prim secRank primRank
  | .secRankRemove i rank => w.onSec i fun sec => .ok (sec.crtGroupRankRemoveInternal rank)
  | .secModify i envs secRanks primRanks op =>
    w.onSec i fun sec => sec.crtGroupSecondaryModify service envs w.prim secRanks primRanks op

/-- A call that does not end the process. -/
def Survives {α : Type} : Except GrpStop α → Prop
  | .error .assertFail | .error .divByZero => False
  | .error .outOfBounds | .ok _ => True

def Enabled (op : GrpOp) : Prop := Survives (w.exec service op)

/-- A modification wants to remove more ranks than there are members. -/
def Overflows : GrpOp → Prop
  | .modify _ ranks _ op => ModOverflows w.prim.gpMembs.cgmLinearList ranks op
  | .secModify i _ secRanks _ op =>
    (w.secs[i]?).any fun sec => ModOverflows sec.gpMembs.cgmLinearList secRanks op
  | _ => False

end GrpWorld

namespace GrpWorld

/-- The ranks are distinct and none is in a slot. -/
def NewRanks (w : GrpWorld) (ranks : List ℕ) : Prop :=
  ranks.Nodup ∧ ∀ rank ∈ ranks, rank ∉ w.prim.occupied

/-- Each rank is added once, and only if it is not there; or SWIM refuses it. -/
def AddsNew (service : Bool) (w : GrpWorld) : GrpOp → Prop
  | .rankAdd _ rank _ | .selfSet _ rank _ =>
    rank ∉ w.prim.occupied ∨ w.prim.Guarded service rank
  | .modify _ ranks _ op =>
    op ≠ .remove → w.NewRanks (ranks.filter fun rank => rank ∉ w.prim.gpMembs.cgmLinearList)
  | .configLoad file => w.NewRanks (GrpPriv.linesOf file)
  | .psrReload uri file => uri = false → w.NewRanks (GrpPriv.linesOf file)
  | _ => True

end GrpWorld

/-- The ranks in the calls, but for the primary ranks in calls on secondary groups, are
not `CRT_NO_RANK`. -/
def GrpOp.RanksValid : GrpOp → Prop
  | .rankAdd _ rank _ | .selfSet _ rank _ | .rankRemove rank | .uriInsert rank => rank ≠ crtNoRank
  | .modify _ ranks _ _ => ∀ rank ∈ ranks, rank ≠ crtNoRank
  | .configLoad file | .psrReload _ file => ∀ rank ∈ GrpPriv.linesOf file, rank ≠ crtNoRank
  | .secRankAdd _ _ secRank _ => secRank ≠ crtNoRank
  | .secRankRemove _ rank => rank ≠ crtNoRank
  | .secModify _ _ secRanks _ _ => ∀ rank ∈ secRanks, rank ≠ crtNoRank
  | .secCreate | .secDestroy _ => True

section

variable (service : Bool) (prim : GrpPriv) (w : GrpWorld) (op : GrpOp)

/-- The runs that begin with the primary group `prim`. -/
def groupLts : Lts GrpWorld GrpOp where
  init w := w = ⟨prim, []⟩
  enabled w op := w.Enabled service op
  step w op := (w.exec service op).toOption.map Prod.snd

/-- The runs with valid ranks only. -/
def groupRuns : Lts GrpWorld GrpOp :=
  (groupLts service prim).restrict fun _ op => op.RanksValid

instance {α : Type} (result : Except GrpStop α) : Decidable (GrpWorld.Survives result) :=
  match result with
  | .error .assertFail | .error .divByZero => isFalse not_false
  | .error .outOfBounds | .ok _ => isTrue trivial

instance : Decidable op.RanksValid := by
  cases op <;> dsimp only [GrpOp.RanksValid] <;> infer_instance

instance : Decidable (w.Enabled service op) :=
  inferInstanceAs (Decidable (GrpWorld.Survives (w.exec service op)))

instance : Decidable ((groupRuns service prim).enabled w op) :=
  inferInstanceAs (Decidable (w.Enabled service op ∧ op.RanksValid))

end

/-! ### The invariant -/

namespace GrpWorld

open GrpPriv

variable {w : GrpWorld} {listed distinct : Prop} {service : Bool} {ranks : List ℕ} {rank : ℕ}
  {op : GroupModOp} {g' : GrpPriv}

/-- The groups are in order. -/
structure Ok (listed distinct : Prop) (w : GrpWorld) : Prop where
  prim : PrimOk listed distinct w.prim
  secs : ∀ sec ∈ w.secs, Mapped w.prim.gpMembs.cgmLinearList sec

theorem NewRanks.nil : w.NewRanks [] := ⟨.nil, fun _ h => absurd h not_mem_nil⟩

theorem NewRanks.sublist {l l' : List ℕ} (h : w.NewRanks l) (hsub : l'.Sublist l) : w.NewRanks l' :=
  ⟨h.1.sublist hsub, fun rank hrank => h.2 rank (hsub.subset hrank)⟩

theorem NewRanks.of_addsOne (h : ranks = [] ∨ ranks = [rank] ∧ ¬ w.prim.Guarded service rank)
    (hnew : rank ∉ w.prim.occupied ∨ w.prim.Guarded service rank) : w.NewRanks ranks := by
  rcases h with rfl | ⟨rfl, hguard⟩
  · exact .nil
  · refine ⟨nodup_singleton rank, fun x hx => ?_⟩
    rw [mem_singleton.mp hx]
    exact hnew.resolve_right hguard

section

variable (h : w.Ok listed distinct)

include h

theorem Ok.added (hadded : AddedAll ranks w.prim g') (hnew : distinct → w.NewRanks ranks) :
    Ok listed distinct { w with prim := g' } := by
  refine ⟨h.prim.added hadded hnew, fun sec hsec => (h.secs sec hsec).mono fun p hp => ?_⟩
  exact h.prim.kept_of_added hadded hp

theorem Ok.modifyRemove (service : Bool) (hrank : rank ≠ crtNoRank) :
    (w.modifyRemove service rank).Ok listed distinct := by
  refine ⟨(h.prim.removed hrank).swimRankDel service rank, fun sec hsec => ?_⟩
  obtain ⟨sec₀, hsec₀, rfl⟩ := mem_map.mp hsec
  refine (h.secs sec₀ hsec₀).removePrimary fun p hp hne => ?_
  show p ∈ (crtSwimRankDel service _ rank).gpMembs.cgmLinearList
  rw [crtSwimRankDel_gpMembs]
  exact h.prim.kept_of_removed hrank hp hne

theorem Ok.rankRemove (service : Bool) (hrank : rank ≠ crtNoRank) :
    (w.crtGroupRankRemove service rank).2.Ok listed distinct := by
  rw [crtGroupRankRemove]
  dsimp only
  split
  · -- a refused removal changes nothing
    rename_i hrc
    rcases crtGroupRankRemoveInternal_spec h.prim.slots hrank with heq | ⟨hzero, _⟩
    · rw [heq]
      exact h
    · exact absurd hzero hrc
  · have hok := h.modifyRemove service hrank
    split
    · exact hok
    · -- a view is not known to SWIM
      refine ⟨h.prim.removed hrank, fun sec hsec => ?_⟩
      have hmapped := hok.secs sec hsec
      rw [GrpWorld.modifyRemove, crtSwimRankDel_gpMembs] at hmapped
      exact hmapped

theorem Ok.primaryModify (envs : ℕ → RankAddEnv) (hranks : ∀ rank ∈ ranks, rank ≠ crtNoRank)
    (uris : Option (ℕ → Bool)) (hfit : ¬ ModOverflows w.prim.gpMembs.cgmLinearList ranks op)
    (hdistinct : distinct → w.AddsNew service (.modify envs ranks uris op)) :
    ∃ rc w', w.crtGroupPrimaryModify service envs ranks uris op = .ok (rc, w') ∧ w'.Ok listed distinct := by
  rw [crtGroupPrimaryModify]
  split
  · exact ⟨_, w, rfl, h⟩
  · split
    · exact ⟨_, w, rfl, h⟩
    · split
      · exact ⟨_, w, rfl, h⟩
      · obtain ⟨toAdd, toRemove, hget, hsub, hremove, hold⟩ := crtGroupModGet_spec hfit
        have hnew : ∀ rank ∈ toAdd.map Prod.fst, rank ≠ crtNoRank ∧
            rank ∉ w.prim.gpMembs.cgmLinearList := by
          intro rank hrank
          obtain ⟨hmem, hno⟩ := mem_filter.mp (hsub.subset hrank)
          exact ⟨hranks rank hmem, of_decide_eq_true hno⟩
        obtain ⟨rc, l, prim, hadd, hl, hadded⟩ := modifyAdd_spec service envs
          (uris.getD fun _ => false) toAdd [] w.prim h.prim.slots fun entry hentry =>
            (hnew entry.1 (mem_map_of_mem hentry)).1
        have hok := h.added hadded fun hd => by
          by_cases hop : op = .remove
          · rw [hremove hop] at hl
            rw [sublist_nil.mp hl]
            exact .nil
          · exact (hdistinct hd hop).sublist (hl.trans hsub)
        rw [hget]
        simp only [bind, Except.bind]
        rw [hadd, nil_append]
        dsimp only
        split
        · -- what is taken back was not in the list, so nobody has mapped it
          obtain ⟨hprim, hkept⟩ := hok.prim.cleanup fun rank hrank =>
            (hnew rank (hl.subset hrank)).1
          refine ⟨rc, _, rfl, hprim, fun sec hsec => (h.secs sec hsec).mono fun p hp => ?_⟩
          refine hkept p (h.prim.kept_of_added hadded hp) fun hmem => ?_
          exact (hnew p (hl.subset hmem)).2 hp
        · refine ⟨0, _, rfl, foldlRecOn toRemove _ hok fun w' hw' rank hrank => ?_⟩
          exact hw'.modifyRemove service (SlotsOk.ne_crtNoRank (h.prim.within (hold rank hrank)))

/-- A call on a secondary group that keeps its mapping and does not end the process. -/
theorem Ok.onSec {i : ℕ} {f : GrpPriv → Except GrpStop (ℤ × GrpPriv)} (hsurvives : Survives
    (w.onSec i f)) (hf : ∀ sec, w.secs[i]? = some sec → KeepsMapped w.prim.gpMembs.cgmLinearList
    (f sec)) :
    ∃ rc w', w.onSec i f = .ok (rc, w') ∧ w'.Ok listed distinct := by
  rw [GrpWorld.onSec] at hsurvives ⊢
  split
  · exact ⟨_, w, rfl, h⟩
  · rename_i sec hsec
    rcases hf sec hsec with hstop | ⟨rc, g', hok, hmapped⟩
    · rw [hsec] at hsurvives
      dsimp only at hsurvives
      rw [hstop] at hsurvives
      exact absurd hsurvives not_false
    · rw [hok]
      refine ⟨rc, _, rfl, h.prim, fun x hx => ?_⟩
      rcases mem_or_eq_of_mem_set hx with hmem | rfl
      · exact h.secs x hmem
      · exact hmapped

end

theorem mapped_create (membs : List ℕ) : Mapped membs .crtGroupSecondaryCreate :=
  ⟨rfl, ⟨.nil, rfl⟩, rfl, .nil, .empty, fun s => by
    exact iff_of_false Bool.false_ne_true not_mem_nil,
    fun s p hs => absurd hs.symm (some_ne_none p)⟩

theorem Ok.onPrim (h : w.Ok listed distinct) {rc : ℤ}
    {result : Except GrpStop (ℤ × GrpPriv)} (hresult : result = .ok (rc, g'))
    (hadded : AddedAll ranks w.prim g') (hnew : distinct → w.NewRanks ranks) :
    ∃ rc w', w.onPrim result = .ok (rc, w') ∧ w'.Ok listed distinct := by
  rw [hresult]
  exact ⟨rc, _, rfl, h.added hadded hnew⟩

/-- Every call that does not overflow and does not end the process leaves the groups
in order. -/
theorem exec_ok (h : w.Ok listed distinct) {op : GrpOp} (hvalid : op.RanksValid) (hfit : ¬ w.Overflows op)
    (henabled : w.Enabled service op) (hnew : distinct → w.AddsNew service op) :
    ∃ rc w', w.exec service op = .ok (rc, w') ∧ w'.Ok listed distinct := by
  have hsurvives := henabled
  rw [Enabled] at hsurvives
  cases op with
  | rankAdd env rank uri =>
    obtain ⟨rc, g', ranks, hok, hadded, hranks⟩ :=
      crtGroupPrimaryAddInternal_spec service env h.prim.slots hvalid uri
    exact h.onPrim hok hadded fun hd => .of_addsOne hranks (hnew hd)
  | selfSet env rank uri =>
    rw [exec]
    split
    · exact ⟨0, w, rfl, h⟩
    · obtain ⟨rc, g', ranks, hok, hadded, hranks⟩ :=
        crtRankSelfSet_spec service env h.prim.slots hvalid uri
      exact h.onPrim hok hadded fun hd => .of_addsOne hranks (hnew hd)
  | rankRemove rank => exact ⟨_, _, rfl, h.rankRemove service hvalid⟩
  | modify envs ranks uris op => exact h.primaryModify envs hvalid uris hfit hnew
  | configLoad file =>
    obtain ⟨rc, l, g', hok, hsub, hadded⟩ :=
      crtGrpConfigPsrLoad_spec service crtNoRank h.prim.slots hvalid
    exact h.onPrim hok hadded fun hd => (hnew hd).sublist hsub
  | psrReload uri file =>
    rw [exec, crtGrpPsrReload] at hsurvives ⊢
    split at hsurvives
    · exact absurd hsurvives not_false
    · rename_i hsize
      rw [if_neg hsize]
      dsimp only
      split
      · exact h.onPrim rfl (.of_same h.prim.slots rfl rfl rfl) fun _ => .nil
      · split_ifs with huri
        · exact h.onPrim rfl (.of_same h.prim.slots rfl rfl rfl) fun _ => .nil
        · obtain ⟨rc, l, g', hok, hsub, hadded⟩ := crtGrpConfigPsrLoad_spec service
            (u32 (w.prim.gpPsrRank + 1) % w.prim.gpSize) h.prim.slots hvalid
          refine h.onPrim hok hadded fun hd => NewRanks.sublist ?_ hsub
          exact hnew hd (Bool.eq_false_iff.mpr huri)
  | uriInsert rank =>
    exact ⟨_, _, rfl, h.added (crtGrpLcUriInsert_addedAll h.prim.slots rank true)
      fun _ => .nil⟩
  | secCreate =>
    refine ⟨_, _, rfl, h.prim, fun sec hsec => ?_⟩
    rcases mem_append.mp hsec with hmem | hnew
    · exact h.secs sec hmem
    · rw [mem_singleton.mp hnew]
      exact mapped_create _
  | secDestroy i =>
    exact ⟨_, _, rfl, h.prim, fun sec hsec => h.secs sec (mem_of_mem_eraseIdx hsec)⟩
  | secRankAdd i env secRank primRank =>
    refine h.onSec hsurvives fun sec hsec => ?_
    exact (h.secs sec (mem_of_getElem? hsec)).rankAdd service env hvalid primRank
  | secRankRemove i rank =>
    refine h.onSec hsurvives fun sec hsec => .inr ⟨_, _, rfl, ?_⟩
    exact (h.secs sec (mem_of_getElem? hsec)).removeInternal rank
  | secModify i envs secRanks primRanks op =>
    refine h.onSec hsurvives fun sec hsec => ?_
    refine (h.secs sec (mem_of_getElem? hsec)).modify service envs hvalid primRanks fun hover => ?_
    exact hfit (by rw [Overflows, hsec]; exact decide_eq_true hover)

theorem ModOverflows.ne_nil {grpMembs modMembs : List ℕ}
    (h : ModOverflows grpMembs modMembs op) : modMembs ≠ [] := by
  rintro rfl
  exact absurd h.2 (Nat.not_lt_zero _)

theorem exec_overflow (h : w.Ok listed distinct) {op : GrpOp} (hover : w.Overflows op) :
    w.exec service op = .error .outOfBounds := by
  cases op with
  | modify envs ranks uris op =>
    have hne := ModOverflows.ne_nil hover
    have hget := crtGroupModGet_overflow hover
    obtain ⟨rfl, _⟩ : ModOverflows _ _ _ := hover
    rw [exec, crtGroupPrimaryModify, h.prim.primary, if_neg (by decide), if_neg hne,
      if_neg fun hop => hop.1 rfl, hget]
    rfl
  | secModify i envs secRanks primRanks op =>
    rw [Overflows, Option.any_eq_true] at hover
    obtain ⟨sec, hsec, hover⟩ := hover
    have hover := of_decide_eq_true hover
    have hne := ModOverflows.ne_nil hover
    have hget := crtGroupModGet_overflow hover
    have hsecondary := (h.secs sec (mem_of_getElem? hsec)).secondary
    obtain ⟨rfl, _⟩ := hover
    rw [exec, onSec, hsec]
    dsimp only
    rw [crtGroupSecondaryModify, hsecondary, if_neg (by decide), if_neg hne,
      if_neg fun hop => hop.1 rfl, if_neg fun hop => hop.1 rfl, hget]
    rfl
  | _ => exact absurd hover not_false

end GrpWorld

open GrpPriv

variable {service : Bool} {prim g : GrpPriv} {w w' : GrpWorld} {op : GrpOp} {P : GrpWorld → Prop}

theorem ok_of_starts (distinct : Prop) (hstart : Starts service prim) :
    GrpWorld.Ok (prim.gpSize = 0) distinct ⟨prim, []⟩ := by
  refine ⟨?_, fun sec hsec => absurd hsec not_mem_nil⟩
  -- an empty group, and the group of a client with itself in it
  have hempty : ∀ view, PrimOk (0 = 0) distinct (GrpPriv.crtGrpPrivCreate true view crtNoRank 0) := fun _ =>
    ⟨rfl, ⟨.nil, rfl⟩, .inl rfl, fun _ => rfl, fun _ => .nil⟩
  have hclient : PrimOk (1 = 0) distinct (GrpPriv.crtGrpPrivCreate true false 0 1) := by
    refine ⟨rfl, ⟨⟨.nil, fun i => ?_⟩, rfl⟩, .inl rfl, fun h => absurd h Nat.one_ne_zero,
      fun _ => nodup_singleton 0⟩
    refine iff_of_false not_mem_nil fun hi => ?_
    have hmem : crtNoRank ∈ range 1 := mem_of_getElem? hi
    exact absurd hmem (by decide)
  rcases hstart with rfl | rfl
  · cases service
    · exact hclient
    · exact hempty false
  · exact hempty true

theorem exec_of_step (prim : GrpPriv) (h : (groupLts service prim).step w op = some w') :
    ∃ rc, w.exec service op = .ok (rc, w') := by
  obtain ⟨⟨rc, w₁⟩, hopt, rfl⟩ := map_eq_some_iff.mp h
  cases hexec : w.exec service op with
  | error stop =>
    rw [hexec] at hopt
    cases hopt
  | ok r =>
    rw [hexec] at hopt
    cases hopt
    exact ⟨rc, rfl⟩

theorem step_of_exec {rc : ℤ} (h : w.exec service op = .ok (rc, w')) :
    (groupLts service prim).step w op = some w' := by
  show (w.exec service op).toOption.map Prod.snd = some w'
  rw [h]
  rfl

theorem ok_of_exec {listed distinct : Prop} {rc : ℤ}
    (hok : w.Ok listed distinct) (henabled : w.Enabled service op) (hvalid : op.RanksValid)
    (hnew : distinct → w.AddsNew service op) (hexec : w.exec service op = .ok (rc, w')) :
    w'.Ok listed distinct := by
  have hfit : ¬ w.Overflows op := by
    intro hover
    rw [exec_overflow hok hover] at hexec
    cases hexec
  obtain ⟨rc', w₁, hexec', hok'⟩ := exec_ok hok hvalid hfit henabled hnew
  rw [hexec] at hexec'
  cases hexec'
  exact hok'

theorem groupRuns_ok (hstart : Starts service prim) :
    (groupRuns service prim).Invariant (GrpWorld.Ok (prim.gpSize = 0) False) where
  init := by
    rintro w rfl
    exact ok_of_starts False hstart
  step := by
    rintro w op w' hok ⟨henabled, hvalid⟩ hstep
    obtain ⟨rc, hexec⟩ := exec_of_step prim hstep
    exact ok_of_exec hok henabled hvalid False.elim hexec

/-- A property of every state in order holds after a call exactly if it does not write past the
array. -/
theorem step_iff (hstart : Starts service prim) (hw : (groupRuns service prim).Reach w)
    (hP : ∀ w', w'.Ok (prim.gpSize = 0) False → P w')
    (henabled : w.Enabled service op) (hvalid : op.RanksValid) :
    (∃ w', (groupLts service prim).step w op = some w' ∧ P w') ↔ ¬ w.Overflows op := by
  have hok := (groupRuns_ok hstart).reach hw
  constructor
  · rintro ⟨w', hstep, _⟩ hover
    obtain ⟨rc, hexec⟩ := exec_of_step prim hstep
    rw [exec_overflow hok hover] at hexec
    cases hexec
  · intro hfit
    obtain ⟨rc, w', hexec, hok'⟩ := exec_ok hok hvalid hfit henabled False.elim
    exact ⟨w', step_of_exec hexec, hP w' hok'⟩

theorem not_step_of_isNone (h : ((groupLts service prim).step w op).isNone = true) :
    ¬ ∃ w', (groupLts service prim).step w op = some w' ∧ P w' := by
  rintro ⟨w', hstep, _⟩
  rw [hstep] at h
  cases h

/-! ### Slots -/

/-- Slots, free indices, size and linear list belong together. -/
structure GrpPriv.SlotsConsistent (g : GrpPriv) : Prop where
  free : ∀ (i : ℕ) (h : i < g.gpMembs.cgmList.length), g.gpMembs.cgmFreeIndices.count i =
    if g.gpMembs.cgmList[i] = crtNoRank then 1 else 0
  size : g.gpSize = (g.gpMembs.cgmList.filter fun rank => rank ≠ crtNoRank).length
  length : g.gpMembs.cgmLinearList.length = g.gpSize
  linear : g.gpMembs.cgmLinearList = g.gpMembs.cgmList.filter fun rank => rank ≠ crtNoRank

theorem GrpPriv.SlotsOk.consistent (h : g.SlotsOk) (hlisted : g.Listed) : g.SlotsConsistent := by
  refine ⟨fun i hi => ?_, h.size, ?_, hlisted⟩
  · rw [h.free.count i, getElem?_eq_getElem hi]
    simp only [some.injEq]
  · rw [hlisted, h.size]

/-- All groups that started empty are consistent: the secondary groups, and the primary
group if `empty`. -/
def GrpWorld.SlotsConsistent (empty : Prop) (w : GrpWorld) : Prop :=
  (empty → w.prim.SlotsConsistent) ∧ ∀ sec ∈ w.secs, sec.SlotsConsistent

theorem GrpWorld.Ok.consistent {empty distinct : Prop} (h : w.Ok empty distinct) : w.SlotsConsistent empty :=
  ⟨fun he => h.prim.slots.consistent (h.prim.list he), fun sec hsec =>
    (h.secs sec hsec).slots.consistent (h.secs sec hsec).listed⟩

/-- **Membership slots** belong together after a call exactly if it is not a `REMOVE` with more
members in its list than the group has. -/
theorem group_slots_consistent (hstart : Starts service prim)
    (hw : (groupRuns service prim).Reach w) :
    w.SlotsConsistent (prim.gpSize = 0) ∧
      ∀ op, w.Enabled service op → op.RanksValid →
        ((∃ w', (groupLts service prim).step w op = some w' ∧
          w'.SlotsConsistent (prim.gpSize = 0)) ↔ ¬ w.Overflows op) :=
  ⟨((groupRuns_ok hstart).reach hw).consistent, fun _ henabled hvalid =>
    step_iff hstart hw (fun _ hok => hok.consistent) henabled hvalid⟩

/-- An addition whose allocations succeed. -/
def easyAdd : RankAddEnv := ⟨true, true, 0⟩

/-- A rank that is there is refused, one is given back, and a mapped member removed. -/
theorem group_slots_of_refused_add : ∃ w, (groupRuns true (.crtPrimaryGrpInit true)).Reach w ∧
    w.prim.gpMembs.cgmLinearList = [0, 2] ∧ w.prim.SlotsConsistent ∧
    ∃ w', (groupLts true (.crtPrimaryGrpInit true)).step w
        (.modify (fun _ => easyAdd) [2, 2] none .remove) = some w' ∧
      w'.SlotsConsistent ((crtPrimaryGrpInit true).gpSize = 0) := by
  obtain ⟨w, hw, hlinear, henabled⟩ : ∃ w, (groupRuns true (.crtPrimaryGrpInit true)).Reach w ∧
      w.prim.gpMembs.cgmLinearList = [0, 2] ∧
      w.Enabled true (.modify (fun _ => easyAdd) [2, 2] none .remove) :=
    Lts.exists_reach_of_exec [.selfSet easyAdd 0 true, .rankAdd easyAdd 1 true, .rankAdd easyAdd 1 true,
      .rankAdd easyAdd 2 true, .rankRemove 1, .secCreate, .secRankAdd 0 easyAdd 7 2] ⟨_, []⟩ rfl
      (by decide +kernel)
  obtain ⟨hconsistent, hop⟩ := group_slots_consistent (.inl rfl) hw
  refine ⟨w, hw, hlinear, hconsistent.1 rfl, (hop _ henabled (by decide)).mpr ?_⟩
  show ¬ ModOverflows w.prim.gpMembs.cgmLinearList _ _
  rw [hlinear]
  decide

/-- A view of one rank is asked to remove it a hundred times. -/
theorem group_remove_repeated : ∃ w, (groupRuns false .crtGroupViewCreate).Reach w ∧
    ∃ op, w.Enabled false op ∧ op.RanksValid ∧
      ¬ ∃ w', (groupLts false .crtGroupViewCreate).step w op = some w' ∧
        w'.SlotsConsistent (crtGroupViewCreate.gpSize = 0) := by
  obtain ⟨w, hreach, henabled, hnone⟩ : ∃ w, (groupRuns false .crtGroupViewCreate).Reach w ∧
      w.Enabled false (.modify (fun _ => easyAdd) (replicate 100 5) none .remove) ∧
      ((groupLts false .crtGroupViewCreate).step w
        (.modify (fun _ => easyAdd) (replicate 100 5) none .remove)).isNone :=
    Lts.exists_reach_of_exec [.rankAdd easyAdd 5 true] ⟨_, []⟩ rfl (by decide +kernel)
  exact ⟨w, hreach, _, henabled, by decide, not_step_of_isNone hnone⟩

/-! ### Mappings -/

/-- The tables are the two directions of a partial bijection into the primary group. -/
structure GrpPriv.MappingOk (membs : List ℕ) (g : GrpPriv) : Prop where
  inverse : ∃ e : ℕ ≃. ℕ, g.gpS2pTable = e ∧ g.gpP2sTable = e.symm
  nodup : g.gpMembs.cgmLinearList.Nodup
  domain : ∀ s, (g.gpS2pTable s).isSome ↔ s ∈ g.gpMembs.cgmLinearList
  image : ∀ s p, g.gpS2pTable s = some p → p ∈ membs
  p2s_s2p : ∀ s p, g.crtGroupRankP2s p = .ok s → g.crtGroupRankS2p true s = .ok p
  s2p_p2s : ∀ s p, p ≠ crtNoRank → g.crtGroupRankS2p true s = .ok p → g.crtGroupRankP2s p = .ok s

theorem crtGroupRankP2s_eq_ok (h : g.gpPrimary = false) {s p : ℕ} :
    g.crtGroupRankP2s p = .ok s ↔ g.gpP2sTable p = some s := by
  rw [crtGroupRankP2s, h, if_neg Bool.false_ne_true]
  split
  · rename_i hnone
    rw [hnone]
    exact iff_of_false (by simp) (by simp)
  · rename_i x hsome
    rw [hsome, Except.ok.injEq, some.injEq]

theorem crtGroupRankS2p_eq_ok (h : g.gpPrimary = false) {s p : ℕ} :
    g.crtGroupRankS2p true s = .ok p ↔ (g.gpS2pTable s).getD crtNoRank = p := by
  rw [crtGroupRankS2p, if_neg (by decide), h, if_neg Bool.false_ne_true, Except.ok.injEq]

theorem GrpPriv.Mapped.mappingOk {membs : List ℕ} (h : Mapped membs g) : g.MappingOk membs := by
  refine ⟨⟨h.inverse.toPEquiv, rfl, rfl⟩, ?_, fun s => ?_, h.image, fun s p hp => ?_,
    fun s p hne hs => ?_⟩
  · rw [h.listed]
    exact h.nodup
  · rw [h.listed]
    exact h.domain s
  · rw [crtGroupRankP2s_eq_ok h.secondary, ← h.inverse] at hp
    rw [crtGroupRankS2p_eq_ok h.secondary, hp]
    rfl
  · rw [crtGroupRankS2p_eq_ok h.secondary] at hs
    rw [crtGroupRankP2s_eq_ok h.secondary, ← h.inverse]
    cases hsome : g.gpS2pTable s with
    | none =>
      rw [hsome] at hs
      exact absurd hs.symm hne
    | some q =>
      rw [hsome] at hs
      exact congrArg some hs

/-- The mappings of all secondary groups. -/
def GrpWorld.MappingsOk (w : GrpWorld) : Prop :=
  ∀ sec ∈ w.secs, sec.MappingOk w.prim.gpMembs.cgmLinearList

theorem GrpWorld.Ok.mappingsOk {listed distinct : Prop} (h : w.Ok listed distinct) : w.MappingsOk :=
  fun sec hsec => (h.secs sec hsec).mappingOk

/-- **Secondary rank mapping.** The tables are inverse to each other after a call exactly if it
is not a `REMOVE` with more members in its list than the group has. -/
theorem group_mappings_inverse (hstart : Starts service prim)
    (hw : (groupRuns service prim).Reach w) :
    w.MappingsOk ∧
      ∀ op, w.Enabled service op → op.RanksValid →
        ((∃ w', (groupLts service prim).step w op = some w' ∧ w'.MappingsOk) ↔ ¬ w.Overflows op) :=
  ⟨((groupRuns_ok hstart).reach hw).mappingsOk, fun _ henabled hvalid =>
    step_iff hstart hw (fun _ hok => hok.mappingsOk) henabled hvalid⟩

/-- Two ranks of a secondary group, one of which goes with its primary rank. -/
theorem group_mappings_after_cascade : ∃ w, (groupRuns true (.crtPrimaryGrpInit true)).Reach w ∧
    w.secs.map (fun sec => sec.gpMembs.cgmLinearList) = [[3]] ∧ w.MappingsOk ∧
    ∃ w', (groupLts true (.crtPrimaryGrpInit true)).step w
        (.secModify 0 (fun _ => easyAdd) [5, 6] [1, 1] .replace) = some w' ∧ w'.MappingsOk := by
  obtain ⟨w, hw, hlinear, henabled⟩ : ∃ w, (groupRuns true (.crtPrimaryGrpInit true)).Reach w ∧
      w.secs.map (fun sec => sec.gpMembs.cgmLinearList) = [[3]] ∧
      w.Enabled true (.secModify 0 (fun _ => easyAdd) [5, 6] [1, 1] .replace) :=
    Lts.exists_reach_of_exec [.selfSet easyAdd 0 true, .rankAdd easyAdd 1 true, .rankAdd easyAdd 2 true,
      .secCreate, .secRankAdd 0 easyAdd 3 1, .secRankAdd 0 easyAdd 4 2, .rankRemove 2] ⟨_, []⟩ rfl
      (by decide +kernel)
  obtain ⟨hmappings, hop⟩ := group_mappings_inverse (.inl rfl) hw
  refine ⟨w, hw, hlinear, hmappings, (hop _ henabled (by decide)).mpr ?_⟩
  rw [GrpWorld.Overflows, Option.any_eq_true]
  rintro ⟨sec, _, hover⟩
  cases (of_decide_eq_true hover).1

/-- A secondary group of one rank is asked to remove that rank a hundred times. -/
theorem group_secondary_remove_repeated : ∃ w, (groupRuns true (.crtPrimaryGrpInit true)).Reach w ∧
    ∃ op, w.Enabled true op ∧ op.RanksValid ∧
      ¬ ∃ w', (groupLts true (.crtPrimaryGrpInit true)).step w op = some w' ∧ w'.MappingsOk := by
  obtain ⟨w, hreach, henabled, hnone⟩ : ∃ w, (groupRuns true (.crtPrimaryGrpInit true)).Reach w ∧
      w.Enabled true (.secModify 0 (fun _ => easyAdd) (replicate 100 5) [] .remove) ∧
      ((groupLts true (.crtPrimaryGrpInit true)).step w
        (.secModify 0 (fun _ => easyAdd) (replicate 100 5) [] .remove)).isNone :=
    Lts.exists_reach_of_exec [.selfSet easyAdd 0 true, .secCreate, .secRankAdd 0 easyAdd 5 0] ⟨_, []⟩ rfl
      (by decide +kernel)
  exact ⟨w, hreach, _, henabled, by decide, not_step_of_isNone hnone⟩

end Cart
