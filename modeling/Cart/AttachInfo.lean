/-
The attach info file (`crt_group.c`).

A service saves the members of its primary group with their URIs, and a client loads them
into a view.  The file is read with `fscanf` (`Cart.Scanf`), into the group of
`Cart.GroupCache`; the loop over the lines stops only at the end of the file, or when an
addition fails.

Main results: `attach_info_terminates_iff`, `attach_info_endless`.
-/
import Cart.GroupAddress
import Cart.GroupId
import Cart.Scanf

open List

namespace Cart

variable {ps : List (ℤ × List Char)} {ws : List (List Char)} {g : PsrGrpPriv} {service : Bool}
  {psrRank : ℕ} {env : AttachEnv}

open Scanf
open Faults (exists_of_bind_eq_ok)

/-! ### The file -/

/-- A C string ends at the first null character. -/
def cString (w : List Char) : List Char := w.takeWhile fun c => c.toNat != 0

/-- A `d_rank_t`, or a size, that is printed with `%d`. -/
def asInt (rank : ℕ) : ℤ := if rank < 2 ^ 31 then rank else rank - 2 ^ 32

/-- What `%d` stores into a `d_rank_t`.  For a number that is not an `int`, C99 does
not say; `undef` does. -/
def storeRank (undef : ℤ → ℕ) (z : ℤ) : ℕ :=
  if -2 ^ 31 ≤ z ∧ z < 2 ^ 31 then (z % 2 ^ 32).toNat else undef z

/-- The line for a member. -/
def attachLine (p : ℕ × Uri) : List Char := printInt (asInt p.1) ++ ' ' :: (p.2 ++ ['\n'])

/-- The text of a file. -/
def attachInfo (grpid : List Char) (size : ℕ) (kind : List Char) (lines : List (ℕ × Uri)) :
    List Char :=
  "name".toList ++ ' ' :: (grpid ++ '\n' :: ("size".toList ++ ' ' :: (printInt (asInt size) ++
    '\n' :: (kind ++ '\n' :: lines.flatMap attachLine))))

/-- A service process: its address, the code of asking for it, and whether contexts share it. -/
structure AttachSelf where
  cgAddr : Uri
  uriRc : ℤ
  shareNa : Bool

/-- For tag 0, in a service. The first context has the address of the process. -/
def AttachSelf.crtRankUriGet (p : AttachSelf) (g : LcGrpPriv) (rank : ℕ) : Except ℤ Uri :=
  if g.grp.gpPrimary = false then .error (-derInval)
  else if rank = g.grp.gpSelf then
    if p.uriRc ≠ 0 then .error p.uriRc else .ok p.cgAddr
  else
    match (g.crtGrpLcLookup p.shareNa 0 rank 0).1 with
    | none => .error (-derOog)
    | some uri => .ok uri

/-- In a service; a group of one is taken to be the process. -/
def AttachSelf.crtGroupConfigSave (p : AttachSelf) (grpid : List Char) (g : LcGrpPriv)
    (forAll : Bool) : Except ℤ (List Char) :=
  let kind := (if forAll then "all" else "self").toList
  if g.grp.gpPrimary = false then .error (-derInval)
  else if forAll = false ∨ g.grp.gpSize = 1 then
    .ok (attachInfo grpid g.grp.gpSize kind [(g.grp.gpSelf, p.cgAddr)])
  else do
    let lines ← (g.grp.gpMembs.cgmLinearList.take g.grp.gpSize).mapM fun rank => do
      let uri ← p.crtRankUriGet g rank
      return (rank, uri)
    return attachInfo grpid g.grp.gpSize kind lines

/-! ### Loading -/

/-- `struct crt_grp_priv` with the address of the PSR. -/
structure PsrGrpPriv where
  lc : LcGrpPriv
  gpPsrPhyAddr : Option Uri

/-- `dup` tells whether the address can be copied. -/
def PsrGrpPriv.crtGrpPsrSet (g : PsrGrpPriv) (dup : Bool) (rank : ℕ) (addr : Uri) : PsrGrpPriv where
  lc := { g.lc with grp := { g.lc.grp with gpPsrRank := rank } }
  gpPsrPhyAddr := if dup then some (dStrndup addr) else none

/-- What loading a file meets; `rank` is what C99 leaves open before it is assigned. -/
structure AttachEnv where
  openRc : ℤ
  errnoRc : ℤ
  addrAllocated : Bool
  rank : ℕ
  undef : ℤ → ℕ
  membs : ℕ → MembsEnv
  lc : ℕ → ℕ → ℕ → LcInsertEnv
  psrDup : ℕ → Bool
  psrDupLast : Bool

/-- The string in `grpname` after it may have been assigned. -/
def grpnameOf : List Value → List Char
  | .word w :: _ => cString w
  | _ => []

/-- The part of `crt_grp_config_psr_load` before the lines: an error, or the text
that is left. -/
def attachHeader (errnoRc : ℤ) (grpid file : List Char) : Except ℤ (List Char) :=
  let name := fscanf [.skipWord, .word crtGroupIdMaxLen] file
  if name.eof then .error errnoRc
  else if (grpnameOf name.assigned).take crtGroupIdMaxLen ≠ grpid.take crtGroupIdMaxLen then
    .error (-derInval)
  else
    let size := fscanf [.skipWord, .int] name.rest
    if size.eof then .error errnoRc
    else
      let allOrSelf := fscanf [.word 4] size.rest
      if allOrSelf.eof then .error errnoRc else .ok allOrSelf.rest

/-- The variables of the loop, and the additions that succeeded. -/
structure AttachLoad where
  rc : ℤ
  rank : ℕ
  addrStr : Uri
  grp : PsrGrpPriv
  added : List (ℕ × Uri)

/-- What a call of `fscanf` leaves in `rank` and `addr_str`. -/
def AttachLoad.assign (undef : ℤ → ℕ) (s : AttachLoad) : List Value → AttachLoad
  | [] => s
  | .int z :: vs => { s with rank := storeRank undef z }.assign undef vs
  | .word w :: vs => { s with addrStr := cString w }.assign undef vs

/-- Adds a line to the group, and tells whether the loop goes on. -/
def AttachLoad.addLine (service : Bool) (env : AttachEnv) (psrRank : ℕ) (s : AttachLoad) :
    Except GrpStop (Bool × AttachLoad) := do
  let n := s.added.length
  let (rc, lc) ←
    s.grp.lc.crtGroupPrimaryAddInternal service (env.membs n) (env.lc n) s.rank 0 (some s.addrStr)
  let s := { s with rc := rc, grp := { s.grp with lc := lc } }
  if rc ≠ 0 then return (false, s)
  let grp := if s.rank = psrRank then s.grp.crtGrpPsrSet (env.psrDup n) s.rank s.addrStr else s.grp
  return (true, { s with grp := grp, added := s.added ++ [(s.rank, s.addrStr)] })

/-- The format of a line. -/
def lineFmt : List Directive := [.int, .space, .word crtAddrStrMaxLen]

/-- What the loop does after an addition: it stops, or goes on with the next line. -/
def afterLine (next : AttachLoad → Option (Except GrpStop AttachLoad)) :
    Except GrpStop (Bool × AttachLoad) → Option (Except GrpStop AttachLoad)
  | .error stop => some (.error stop)
  | .ok (false, s) => some (.ok s)
  | .ok (true, s) => next s

/-- The loop of `crt_grp_config_psr_load`, with a bound for the calls of `fscanf`. -/
def lineLoop (service : Bool) (env : AttachEnv) (psrRank : ℕ) :
    ℕ → List Char → AttachLoad → Option (Except GrpStop AttachLoad)
  | 0, _, _ => none
  | fuel + 1, t, s =>
    let r := fscanf lineFmt t
    if r.eof then some (.ok { s with rc := 0 })
    else
      afterLine (lineLoop service env psrRank fuel r.rest)
        ((s.assign env.undef r.assigned).addLine service env psrRank)

namespace PsrGrpPriv

variable (fuel : ℕ) (service : Bool) (g : PsrGrpPriv) (env : AttachEnv)

/-- The state before the loop. -/
def unread (rc : ℤ) : AttachLoad := ⟨rc, env.rank, [], g, []⟩

def crtGrpConfigPsrLoad (grpid file : List Char) (g : PsrGrpPriv) (psrRank : ℕ) :
    Option (Except GrpStop AttachLoad) :=
  if env.openRc ≠ 0 then some (.ok (g.unread env env.openRc))
  else
    match attachHeader env.errnoRc grpid file with
    | .error rc => some (.ok (g.unread env rc))
    | .ok t =>
      if env.addrAllocated = false then some (.ok (g.unread env (-derNomem)))
      else
        (lineLoop service env psrRank fuel t (g.unread env (-derInval))).map fun r =>
          r.map fun s =>
            if psrRank ≠ crtNoRank then
              { s with grp := s.grp.crtGrpPsrSet env.psrDupLast s.rank s.addrStr }
            else s

/-- The rank that `crt_grp_psr_reload` tries. -/
def candidate : ℕ := u32 (g.lc.grp.gpPsrRank + 1) % g.lc.grp.gpSize

/-- On a primary group only one candidate is looked at. -/
def crtGrpPsrReload (shareNa : Bool) (env : AttachEnv) (grpid file : List Char) (g : PsrGrpPriv) :
    Option (Except GrpStop (ℤ × PsrGrpPriv)) :=
  if g.lc.grp.gpSize = 0 then some (.error .divByZero)
  else if g.candidate = g.lc.grp.gpPsrRank then some (.ok (-derProto, g))
  else
    match (g.lc.crtGrpLcLookup shareNa 0 g.candidate 0).1 with
    | some uri => some (.ok (0, g.crtGrpPsrSet env.psrDupLast g.candidate uri))
    | none =>
      (g.crtGrpConfigPsrLoad fuel service env grpid file g.candidate).map fun r =>
        r.map fun s => (s.rc, s.grp)

end PsrGrpPriv

/-! ### The lines of a file -/

/-- The words after the header, if it is accepted. -/
def lineWords (grpid file : List Char) : List (List Char) :=
  match attachHeader 0 grpid file with
  | .error _ => []
  | .ok t => words t

/-- The line that two words make. -/
def lineOf (undef : ℤ → ℕ) (p : ℤ × List Char) : ℕ × Uri := (storeRank undef p.1, cString p.2)

/-- The loop over lines that have been read. -/
def loadLines (service : Bool) (env : AttachEnv) (psrRank : ℕ) :
    List (ℕ × Uri) → AttachLoad → Except GrpStop AttachLoad
  | [], s => .ok { s with rc := 0 }
  | (rank, uri) :: lines, s => do
    let r ← { s with rank := rank, addrStr := uri }.addLine service env psrRank
    if r.1 then loadLines service env psrRank lines r.2 else return r.2

section

/-- On words that are numbers and addresses in turn, the loop reads a line each
time. -/
theorem lineLoop_of_paired
    (h : Scanf.Paired crtAddrStrMaxLen ws ps) : ∀ (t : List Char) (s : AttachLoad) (fuel : ℕ),
      words t = ws → ps.length < fuel → lineLoop service env psrRank fuel t s =
        some (loadLines service env psrRank (ps.map (lineOf env.undef)) s) := by
  induction h with
  | nil =>
    intro t s fuel ht hfuel
    obtain ⟨n, rfl⟩ := Nat.exists_eq_succ_of_ne_zero hfuel.ne'
    rw [lineLoop, lineFmt, fscanf_pair_blank _ ht]
    rfl
  | @cons w v z ws ps hz hv hps ih =>
    intro t s fuel ht hfuel
    obtain ⟨n, rfl⟩ := Nat.exists_eq_succ_of_ne_zero (Nat.ne_zero_of_lt hfuel)
    obtain ⟨rest, hscan, hrest⟩ := fscanf_pair_of_words crtAddrStrMaxLen ht hz hv
    rw [lineLoop, lineFmt, hscan]
    show afterLine _ (({ s with
      rank := storeRank env.undef z, addrStr := cString v } : AttachLoad).addLine service env
        psrRank) = _
    rw [map_cons, lineOf, loadLines]
    cases ({ s with
        rank := storeRank env.undef z, addrStr := cString v } : AttachLoad).addLine service env
          psrRank with
    | error stop => rfl
    | ok r =>
      obtain ⟨more, s'⟩ := r
      cases more with
      | false => rfl
      | true => exact ih rest s' n hrest (Nat.lt_of_succ_lt_succ hfuel)

theorem addLine_cases {s s' : AttachLoad} {more : Bool}
    (h : s.addLine service env psrRank = .ok (more, s')) :
    ∃ rc lc, s.grp.lc.crtGroupPrimaryAddInternal service (env.membs s.added.length)
        (env.lc s.added.length) s.rank 0 (some s.addrStr) = .ok (rc, lc) ∧
      (more = false ∧ rc ≠ 0 ∧ s' = { s with rc := rc, grp := { s.grp with lc := lc } } ∨
        more = true ∧ rc = 0 ∧ s' = { s with
          rc := 0
          grp := if s.rank = psrRank then
            PsrGrpPriv.crtGrpPsrSet { s.grp with lc := lc } (env.psrDup s.added.length) s.rank
              s.addrStr
            else { s.grp with lc := lc }
          added := s.added ++ [(s.rank, s.addrStr)] }) := by
  rw [AttachLoad.addLine] at h
  obtain ⟨r, hadd, hrest⟩ := exists_of_bind_eq_ok h
  refine ⟨r.1, r.2, hadd, ?_⟩
  dsimp only at hrest
  by_cases hrc : r.1 = 0
  · rw [if_neg (not_not.mpr hrc)] at hrest
    cases hrest
    exact .inr ⟨rfl, hrc, by rw [hrc]⟩
  · rw [if_pos hrc] at hrest
    cases hrest
    exact .inl ⟨rfl, hrc, rfl⟩

theorem added_of_loadLines {lines : List (ℕ × Uri)} : ∀ {s s' : AttachLoad},
    loadLines service env psrRank lines s = .ok s' →
      ∀ p ∈ s'.added, p ∈ s.added ∨ p ∈ lines := by
  induction lines with
  | nil =>
    intro s s' h p hp
    cases h
    exact .inl hp
  | cons line lines ih =>
    intro s s' h p hp
    rw [loadLines] at h
    obtain ⟨⟨more, s₁⟩, hline, hrest⟩ := exists_of_bind_eq_ok h
    obtain ⟨rc, lc, _, hcase⟩ := addLine_cases hline
    rcases hcase with ⟨rfl, _, rfl⟩ | ⟨rfl, _, rfl⟩
    · cases hrest
      exact .inl hp
    · rcases ih hrest p hp with hmem | hmem
      · rcases mem_append.mp hmem with hmem | hmem
        · exact .inl hmem
        · rw [mem_singleton.mp hmem]
          exact .inr mem_cons_self
      · exact .inr (mem_cons_of_mem _ hmem)

end

/-! ### Views -/

/-- Nothing fails. -/
structure AttachEnv.Calm (env : AttachEnv) : Prop where
  openRc : env.openRc = 0
  addrAllocated : env.addrAllocated = true
  membs : ∀ i, (env.membs i).realloc = true
  lc : ∀ i j ctx, (env.lc i j ctx).Calm

/-- A view of a primary group. -/
structure LcGrpPriv.IsView (g : LcGrpPriv) : Prop where
  primary : g.grp.gpPrimary = true
  view : g.grp.gpView = true

/-- Making room for a rank, in a list that is made longer if it is full. -/
def CrtGrpMembs.opened (m : CrtGrpMembs) : CrtGrpMembs :=
  if m.cgmFreeIndices = [] then m.grow m.cgmList.length rankListReallocSize else m

/-- A view with one rank more. -/
def GrpPriv.joined (g : GrpPriv) (rank : ℕ) : GrpPriv :=
  let m := g.gpMembs.opened
  { g with
    gpMembs := { m with
      cgmFreeIndices := m.cgmFreeIndices.tail
      cgmList := m.cgmList.set (m.cgmFreeIndices.headD 0) rank }
    gpSize := g.gpSize + 1 }.grpRegenLinearList

theorem GrpPriv.grpAddToMembsList_view {g : GrpPriv} (h : (g.gpPrimary && !g.gpView) = false)
    (service : Bool) (env : CrtSwimMembs.RankAddEnv) (rank : ℕ) :
    g.grpAddToMembsList service env rank = .ok (0, g.joined rank) := by
  have hat : ∀ membs index, g.grpAddAt service env membs index rank = (0, { g with
      gpMembs := { membs with cgmList := membs.cgmList.set index rank }
      gpSize := g.gpSize + 1 }.grpRegenLinearList) := by
    intro membs index
    rw [grpAddAt, if_neg (by rw [h]; decide)]
  -- the first free index of a list that has one
  have htake : ∀ (m : CrtGrpMembs), m.cgmFreeIndices ≠ [] → m.grpGetFreeIndex =
      some (m.cgmFreeIndices.headD 0, { m with cgmFreeIndices := m.cgmFreeIndices.tail }) := by
    intro m hm
    cases hfree : m.cgmFreeIndices with
    | nil => exact absurd hfree hm
    | cons index rest =>
      rw [CrtGrpMembs.grpGetFreeIndex, hfree]
      rfl
  rw [grpAddToMembsList, joined, CrtGrpMembs.opened]
  by_cases hfree : g.gpMembs.cgmFreeIndices = []
  · have hnone : g.gpMembs.grpGetFreeIndex = none := by
      rw [CrtGrpMembs.grpGetFreeIndex, hfree]
    have hsome : (g.gpMembs.grow g.gpMembs.cgmList.length rankListReallocSize).cgmFreeIndices ≠
        [] := by
      rw [grow_eq, hfree]
      exact cons_ne_nil _ _
    rw [hnone, if_pos hfree]
    rw [htake _ hsome]
    dsimp only
    rw [hat]
  · rw [htake _ hfree, if_neg hfree]
    dsimp only
    rw [hat]

/-- A view with one member more. -/
def LcGrpPriv.withMember (g : LcGrpPriv) (rank : ℕ) (uri : Uri) : LcGrpPriv :=
  { g.insertUri rank 0 (some uri) with grp := (g.insertUri rank 0 (some uri)).grp.joined rank }

theorem LcGrpPriv.IsView.add {g : LcGrpPriv} (h : g.IsView) (hcalm : env.Calm)
    (service : Bool) (i rank : ℕ) (uri : Uri) :
    g.crtGroupPrimaryAddInternal service (env.membs i) (env.lc i) rank 0 (some uri) =
      .ok (0, g.withMember rank uri) := by
  have hinsert : primaryInsertLoop (env.lc i) rank 0 (some uri) crtSrvContextNum 0 g =
      (0, g.insertUri rank 0 (some uri)) := by
    rcases primaryInsertLoop_spec (env.lc i) rank (some uri) (by decide : crtSrvContextNum ≠ 0) 0 g
      with heq | ⟨⟨j, ctx, hnot⟩, _⟩
    · exact heq
    · exact absurd (hcalm.lc i j ctx) hnot
  have hview : ((g.insertUri rank 0 (some uri)).grp.gpPrimary &&
      !(g.insertUri rank 0 (some uri)).grp.gpView) = false := by
    rw [grp_insertUri]
    show (g.grp.gpPrimary && !g.grp.gpView) = false
    rw [h.view, h.primary]
    rfl
  rw [crtGroupPrimaryAddInternal, if_neg (by rw [h.primary]; decide), hinsert]
  dsimp only
  rw [if_neg (not_not.mpr rfl), if_pos rfl, grpAddToMembsList,
    if_neg fun hc => by rw [hcalm.membs i] at hc; exact Bool.false_ne_true hc.2.symm,
    GrpPriv.grpAddToMembsList_view hview]
  rfl

theorem LcGrpPriv.IsView.withMember {g : LcGrpPriv} (h : g.IsView) (rank : ℕ) (uri : Uri) :
    (g.withMember rank uri).IsView := by
  have hgrp := g.grp_insertUri rank 0 (some uri)
  refine ⟨?_, ?_⟩
  · show (g.insertUri rank 0 (some uri)).grp.gpPrimary = true
    rw [hgrp]
    exact h.primary
  · show (g.insertUri rank 0 (some uri)).grp.gpView = true
    rw [hgrp]
    exact h.view

section

theorem grp_assign (undef : ℤ → ℕ) (vs : List Value) :
    ∀ s : AttachLoad, (s.assign undef vs).grp = s.grp := by
  induction vs with
  | nil => exact fun s => rfl
  | cons v vs ih =>
    intro s
    cases v with
    | int z | word w => exact ih _

theorem addLine_view (service : Bool) (psrRank : ℕ) {s : AttachLoad} (h : s.grp.lc.IsView)
    (hcalm : env.Calm) : ∃ s' psr, s.addLine service env psrRank = .ok (true, s') ∧ s'.rc = 0 ∧
      s'.grp.lc = { s.grp.lc.withMember s.rank s.addrStr with
        grp := { (s.grp.lc.withMember s.rank s.addrStr).grp with gpPsrRank := psr } } := by
  rw [AttachLoad.addLine, h.add hcalm service s.added.length s.rank s.addrStr]
  by_cases hpsr : s.rank = psrRank
  · refine ⟨_, s.rank, rfl, rfl, ?_⟩
    rw [if_pos hpsr]
    rfl
  · refine ⟨_, (s.grp.lc.withMember s.rank s.addrStr).grp.gpPsrRank, rfl, rfl, ?_⟩
    rw [if_neg hpsr]

theorem isView_of_addLine {s s' : AttachLoad} {psr : ℕ} (h : s.grp.lc.IsView)
    (heq : s'.grp.lc = { s.grp.lc.withMember s.rank s.addrStr with
      grp := { (s.grp.lc.withMember s.rank s.addrStr).grp with gpPsrRank := psr } }) :
    s'.grp.lc.IsView := by
  have hview := h.withMember s.rank s.addrStr
  rw [heq]
  exact ⟨hview.primary, hview.view⟩

/-- In a view there is an addition for every two words at least. -/
theorem paired_of_lineLoop (hcalm : env.Calm) {fuel : ℕ} :
    ∀ {t : List Char} {s : AttachLoad} {r : Except GrpStop AttachLoad}, s.grp.lc.IsView →
      lineLoop service env psrRank fuel t s = some r →
      (words t).length + 2 ≤ 2 * fuel ∧
        ((words t).length + 2 = 2 * fuel → ∃ ps, Scanf.Paired crtAddrStrMaxLen (words t) ps) := by
  induction fuel with
  | zero =>
    intro t s r _ h
    cases h
  | succ fuel ih =>
    intro t s r hview h
    by_cases hblank : words t = []
    · rw [hblank, length_nil]
      exact ⟨by omega, fun _ => ⟨[], .nil⟩⟩
    obtain ⟨assigned, rest, hscan, hcase⟩ := fscanf_pair crtAddrStrMaxLen hblank
    rw [lineLoop, lineFmt, hscan] at h
    have hview' : (s.assign env.undef assigned).grp.lc.IsView := by
      rw [grp_assign]
      exact hview
    obtain ⟨s', psr, hadd, _, heq⟩ := addLine_view service psrRank hview' hcalm
    have hview'' := isView_of_addLine hview' heq
    dsimp only at h
    rw [if_neg Bool.false_ne_true, hadd] at h
    obtain ⟨hle, hpaired⟩ := ih hview'' h
    rcases hcase with ⟨w, v, z, hwords, hz, hv, _⟩ | hless
    · rw [hwords, length_cons, length_cons]
      refine ⟨by omega, fun heq => ?_⟩
      obtain ⟨ps, hps⟩ := hpaired (by omega)
      exact ⟨_, .cons hz hv hps⟩
    · exact ⟨by omega, fun heq => by omega⟩

end

/-! ### Termination -/

/-- The two words at a place where a line should be. -/
def Occurs (undef : ℤ → ℕ) (ws : List (List Char)) (p : ℕ × Uri) : Prop :=
  ∃ i w v z, ws[2 * i]? = some w ∧ ws[2 * i + 1]? = some v ∧ numeral w = some z ∧
    p = lineOf undef (z, v)

theorem occurs_of_paired (undef : ℤ → ℕ)
    (h : Scanf.Paired crtAddrStrMaxLen ws ps) : ∀ p ∈ ps.map (lineOf undef), Occurs undef ws p := by
  induction h with
  | nil =>
    intro p hp
    cases hp
  | @cons w v z ws ps hz hv hps ih =>
    intro p hp
    rcases mem_cons.mp hp with rfl | hmem
    · exact ⟨0, w, v, z, rfl, rfl, hz, rfl⟩
    · obtain ⟨i, w', v', z', hw', hv', hz', rfl⟩ := ih p hmem
      exact ⟨i + 1, w', v', z', hw', hv', hz', rfl⟩

/-- Loading makes at most one addition for every two words of the lines, and what it
adds is there. -/
def EndsInTime (service : Bool) (env : AttachEnv) (grpid file : List Char) (g : PsrGrpPriv)
    (psrRank : ℕ) : Prop :=
  ∃ r, g.crtGrpConfigPsrLoad ((lineWords grpid file).length / 2 + 1) service env grpid file
      psrRank = some r ∧
    ∀ s, r = .ok s → ∀ p ∈ s.added, Occurs env.undef (lineWords grpid file) p

/-- The words of the lines are numbers and addresses in turn. -/
def LinesWellFormed (grpid file : List Char) : Prop :=
  ∃ ps, Scanf.Paired crtAddrStrMaxLen (lineWords grpid file) ps

/-- The error for reading past the end has no influence on what is accepted. -/
theorem attachHeader_cases (errnoRc : ℤ) (grpid file : List Char) :
    (∃ rc, attachHeader errnoRc grpid file = .error rc) ∧ lineWords grpid file = [] ∨
      ∃ t, attachHeader errnoRc grpid file = .ok t ∧ lineWords grpid file = words t := by
  unfold lineWords attachHeader
  generalize fscanf [.skipWord, .word crtGroupIdMaxLen] file = name
  by_cases hname : name.eof = true
  · rw [if_pos hname, if_pos hname]
    exact .inl ⟨⟨_, rfl⟩, rfl⟩
  rw [if_neg hname, if_neg hname]
  by_cases hid : (grpnameOf name.assigned).take crtGroupIdMaxLen ≠ grpid.take crtGroupIdMaxLen
  · rw [if_pos hid, if_pos hid]
    exact .inl ⟨⟨_, rfl⟩, rfl⟩
  rw [if_neg hid, if_neg hid]
  generalize fscanf [.skipWord, .int] name.rest = size
  by_cases hsize : size.eof = true
  · rw [if_pos hsize, if_pos hsize]
    exact .inl ⟨⟨_, rfl⟩, rfl⟩
  rw [if_neg hsize, if_neg hsize]
  generalize fscanf [.word 4] size.rest = kind
  by_cases hkind : kind.eof = true
  · rw [if_pos hkind, if_pos hkind]
    exact .inl ⟨⟨_, rfl⟩, rfl⟩
  · rw [if_neg hkind, if_neg hkind]
    exact .inr ⟨_, rfl, rfl⟩

theorem crtGrpConfigPsrLoad_eq {fuel : ℕ} {grpid file t : List Char} (hopen : env.openRc = 0)
    (haddr : env.addrAllocated = true) (ht : attachHeader env.errnoRc grpid file = .ok t) :
    g.crtGrpConfigPsrLoad fuel service env grpid file psrRank =
      (lineLoop service env psrRank fuel t (g.unread env (-derInval))).map fun r => r.map fun s =>
        if psrRank ≠ crtNoRank then
          { s with grp := s.grp.crtGrpPsrSet env.psrDupLast s.rank s.addrStr }
        else s := by
  rw [PsrGrpPriv.crtGrpConfigPsrLoad, if_neg (not_not.mpr hopen), ht]
  dsimp only
  rw [if_neg (by rw [haddr]; decide)]

/-- A load that does not get to the lines ends at once. -/
theorem endsInTime_of_error {grpid file : List Char} (rc : ℤ)
    (h : ∀ fuel, g.crtGrpConfigPsrLoad fuel service env grpid file psrRank =
      some (.ok (g.unread env rc))) : EndsInTime service env grpid file g psrRank := by
  refine ⟨_, h _, ?_⟩
  rintro s hs p hp
  cases hs
  cases hp

/-- **Loading an attach info file ends** if its words are numbers and addresses in turn, and
adds only what is in the file; for a view this is necessary. -/
theorem attach_info_terminates_iff (grpid file : List Char) (service : Bool) (env : AttachEnv)
    (g : PsrGrpPriv) (psrRank : ℕ) :
    (LinesWellFormed grpid file → EndsInTime service env grpid file g psrRank) ∧
      (g.lc.IsView → env.Calm →
        (EndsInTime service env grpid file g psrRank ↔ LinesWellFormed grpid file)) := by
  have hends : LinesWellFormed grpid file → EndsInTime service env grpid file g psrRank := by
    rintro ⟨ps, hps⟩
    by_cases hopen : env.openRc = 0
    swap
    · exact endsInTime_of_error env.openRc fun fuel => if_pos hopen
    rcases attachHeader_cases env.errnoRc grpid file with ⟨⟨rc, hrc⟩, _⟩ | ⟨t, ht, hwords⟩
    · refine endsInTime_of_error rc fun fuel => (if_neg (not_not.mpr hopen)).trans ?_
      rw [hrc]
    cases haddr : env.addrAllocated with
    | false =>
      refine endsInTime_of_error (-derNomem) fun fuel => (if_neg (not_not.mpr hopen)).trans ?_
      rw [ht]
      exact if_pos haddr
    | true =>
      have hlength := hps.length_eq
      rw [EndsInTime, crtGrpConfigPsrLoad_eq hopen haddr ht,
        lineLoop_of_paired hps t _ _ hwords.symm (by omega)]
      refine ⟨_, rfl, ?_⟩
      intro s hs p hp
      -- setting the PSR at the end adds nothing
      obtain ⟨s', hload, hadded⟩ : ∃ s', loadLines service env psrRank
          (ps.map (lineOf env.undef)) (g.unread env (-derInval)) = .ok s' ∧ s'.added = s.added := by
        cases hload : loadLines service env psrRank (ps.map (lineOf env.undef))
          (g.unread env (-derInval)) with
        | error stop =>
          rw [hload] at hs
          cases hs
        | ok s' =>
          rw [hload] at hs
          cases hs
          refine ⟨s', rfl, ?_⟩
          split <;> rfl
      rw [← hadded] at hp
      rcases added_of_loadLines hload p hp with hmem | hmem
      · cases hmem
      · exact occurs_of_paired env.undef hps p hmem
  refine ⟨hends, fun hview hcalm => ⟨?_, hends⟩⟩
  rintro ⟨r, hload, _⟩
  rcases attachHeader_cases env.errnoRc grpid file with ⟨_, hnil⟩ | ⟨t, ht, hwords⟩
  · rw [LinesWellFormed, hnil]
    exact ⟨[], .nil⟩
  rw [crtGrpConfigPsrLoad_eq hcalm.openRc hcalm.addrAllocated ht] at hload
  obtain ⟨r', hloop, _⟩ := Option.map_eq_some_iff.mp hload
  obtain ⟨hle, hpaired⟩ := paired_of_lineLoop hcalm (s := g.unread env (-derInval)) hview hloop
  rw [← hwords] at hle hpaired
  exact hpaired (by omega)

/-- Nothing fails, and `rank` is zero before it is assigned. -/
def easyAttach : AttachEnv where
  openRc := 0
  errnoRc := -derNonexist
  addrAllocated := true
  rank := 0
  undef := fun _ => 0
  membs := fun _ => easyMembs
  lc := fun _ _ _ => easyInsert
  psrDup := fun _ => true
  psrDupLast := true

theorem easyAttach_calm : easyAttach.Calm :=
  ⟨rfl, rfl, fun _ => rfl, fun _ _ _ => ⟨rfl, rfl, rfl⟩⟩

/-- A view that has just been made. -/
def emptyView : PsrGrpPriv := ⟨LcGrpPriv.ofGrp .crtGroupViewCreate, none⟩

theorem emptyView_isView : emptyView.lc.IsView := ⟨rfl, rfl⟩

/-- A file with two lines. -/
theorem attach_info_terminates_two :
    EndsInTime false easyAttach "g".toList "name g\nsize 2\nall\n0 tcp://a\n1 tcp://b\n".toList
      emptyView crtNoRank := by
  have hwords : lineWords "g".toList "name g\nsize 2\nall\n0 tcp://a\n1 tcp://b\n".toList =
      ["0".toList, "tcp://a".toList, "1".toList, "tcp://b".toList] := by decide
  refine ((attach_info_terminates_iff _ _ false easyAttach emptyView crtNoRank).2 emptyView_isView
    easyAttach_calm).mpr ⟨[(0, "tcp://a".toList), (1, "tcp://b".toList)], ?_⟩
  rw [hwords]
  exact .cons (by decide) (by decide) (.cons (by decide) (by decide) .nil)

section

/-- Where `fscanf` consumes nothing, the loop adds the same line again and again. -/
theorem lineLoop_stuck (hcalm : env.Calm) {u : List Char}
    (hstuck : fscanf lineFmt u = ⟨false, [], u⟩) (fuel : ℕ) :
    ∀ (t : List Char) (s : AttachLoad), fscanf lineFmt t = ⟨false, [], u⟩ → s.grp.lc.IsView →
      lineLoop service env psrRank fuel t s = none := by
  induction fuel with
  | zero => exact fun t s _ _ => rfl
  | succ fuel ih =>
    intro t s ht hview
    obtain ⟨s', psr, hadd, _, heq⟩ := addLine_view service psrRank hview hcalm
    have hview' := isView_of_addLine hview heq
    rw [lineLoop, ht]
    show afterLine _ (s.addLine service env psrRank) = none
    rw [hadd]
    exact ih u s' hstuck hview'

end

/-- Loading a file with a comment after the header never ends. -/
theorem attach_info_endless :
    ¬ ∃ fuel r, emptyView.crtGrpConfigPsrLoad fuel false easyAttach "g".toList
      "name g\nsize 1\nall\n# members\n".toList crtNoRank = some r := by
  rintro ⟨fuel, r, hload⟩
  have hheader : attachHeader easyAttach.errnoRc "g".toList
      "name g\nsize 1\nall\n# members\n".toList = .ok "\n# members\n".toList := by decide
  have hfirst : fscanf lineFmt "\n# members\n".toList = ⟨false, [], "# members\n".toList⟩ := by
    decide
  have hstuck : fscanf lineFmt "# members\n".toList = ⟨false, [], "# members\n".toList⟩ := by
    decide
  rw [crtGrpConfigPsrLoad_eq rfl rfl hheader,
    lineLoop_stuck easyAttach_calm hstuck fuel _ _ hfirst emptyView_isView] at hload
  cases hload

end Cart
