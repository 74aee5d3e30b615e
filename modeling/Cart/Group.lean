/-
Group membership (`crt_group.c`).

A group keeps its ranks in an array of slots, `cgm_list`, with a list of the indices of the
free ones, and a linear list that is made again after every change.  A primary group also
knows the URIs of its ranks and, unless it is a view, tracks them with SWIM; a secondary group
has two tables between its own ranks and those of its primary group.  The two are kept
together (`GrpWorld`), since a removal from the one reaches the other.  The functions that can
bring the process down return `Except GrpStop`.
-/
import Cart.FreeSlots
import Cart.SwimAdapter

namespace Cart

open CrtSwimMembs Function

/-- A failed `D_ASSERT`, a division by zero, or a write past the end of an array. -/
inductive GrpStop where
  | assertFail
  | divByZero
  | outOfBounds
  deriving DecidableEq, Repr

structure CrtGrpMembs where
  cgmFreeIndices : List ℕ
  cgmList : List ℕ
  cgmLinearList : List ℕ

/-- `struct crt_grp_priv`, as far as the membership goes.  `gpUriLookupCache` tells
which ranks have an entry. -/
structure GrpPriv where
  gpPrimary : Bool
  gpView : Bool
  gpMembs : CrtGrpMembs
  gpSize : ℕ
  gpSelf : ℕ
  gpPsrRank : ℕ
  gpMembsSwim : CrtSwimMembs
  gpUriLookupCache : ℕ → Bool
  gpP2sTable : ℕ → Option ℕ
  gpS2pTable : ℕ → Option ℕ

def rankListReallocSize : ℕ := 32

/-- `crt_group_mod_op_t`. -/
inductive GroupModOp where
  | replace
  | add
  | remove
  deriving DecidableEq, Repr

/-! ### Slots -/

namespace CrtGrpMembs

/-- `d_rank_list_alloc` fills its list with `0, 1, …`. -/
def grpPrivInitMembs (size : ℕ) : CrtGrpMembs := ⟨[], List.range size, []⟩

/-- `none` is `-DER_NOSPACE`. -/
def grpGetFreeIndex (m : CrtGrpMembs) : Option (ℕ × CrtGrpMembs) :=
  match m.cgmFreeIndices with
  | [] => none
  | index :: rest => some (index, { m with cgmFreeIndices := rest })

/-- No caller looks at its result, and here its allocation succeeds. -/
def grpAddFreeIndex (m : CrtGrpMembs) (index : ℕ) (tail : Bool) : CrtGrpMembs :=
  { m with cgmFreeIndices :=
      if tail then m.cgmFreeIndices ++ [index] else index :: m.cgmFreeIndices }

/-- The loop of `grp_add_to_membs_list` over `n` new slots from index `i` on. -/
def grow (m : CrtGrpMembs) : ℕ → ℕ → CrtGrpMembs
  | _, 0 => m
  | i, n + 1 =>
    ({ m with cgmList := m.cgmList ++ [crtNoRank] }.grpAddFreeIndex i true).grow (i + 1) n

end CrtGrpMembs

/-- The loop of `grp_regen_linear_list`, with what it has written so far. -/
def regenLoop (gpSize : ℕ) : List ℕ → List ℕ → List ℕ
  | [], linear => linear
  | rank :: slots, linear =>
    if rank ≠ crtNoRank then
      if linear.length + 1 = gpSize then linear ++ [rank]
      else regenLoop gpSize slots (linear ++ [rank])
    else regenLoop gpSize slots linear

/-- New elements are not initialised, `0` stands for them. -/
def dReallocArray (ranks : List ℕ) (count : ℕ) : List ℕ :=
  ranks.take count ++ List.replicate (count - ranks.length) 0

namespace GrpPriv

variable (service : Bool) (env : RankAddEnv) (g : GrpPriv) (rank : ℕ) (uri : Bool)

/-- No caller looks at its result either; `-DER_NOMEM` would leave the old list. -/
def grpRegenLinearList : GrpPriv :=
  let old := dReallocArray g.gpMembs.cgmLinearList g.gpSize
  let new := regenLoop g.gpSize g.gpMembs.cgmList []
  { g with gpMembs := { g.gpMembs with cgmLinearList := new ++ old.drop new.length } }

def crtSwimRankAdd (service : Bool) (env : RankAddEnv) (g : GrpPriv) (rank : ℕ) :
    ℤ × CrtSwimMembs :=
  if service then g.gpMembsSwim.crtSwimRankAdd env g.gpSelf rank else (0, g.gpMembsSwim)

def crtSwimRankDel (service : Bool) (g : GrpPriv) (rank : ℕ) : GrpPriv :=
  if service then { g with gpMembsSwim := (g.gpMembsSwim.crtSwimRankDel rank).2 } else g

/-- The rest of `grp_add_to_membs_list`, when it has taken `index` and left `membs`. -/
def grpAddAt (membs : CrtGrpMembs) (index rank : ℕ) : ℤ × GrpPriv :=
  let added := { g with
    gpMembs := { membs with cgmList := membs.cgmList.set index rank }
    gpSize := g.gpSize + 1 }
  -- views and secondary groups are not known to SWIM
  if g.gpPrimary && !g.gpView then
    let (rc, swim) := g.crtSwimRankAdd service env rank
    if rc ≠ 0 then
      (rc, { g with
        gpMembs := membs.grpAddFreeIndex index false
        gpMembsSwim := swim }.grpRegenLinearList)
    else (0, { added with gpMembsSwim := swim }.grpRegenLinearList)
  else (0, added.grpRegenLinearList)

def grpAddToMembsList : Except GrpStop (ℤ × GrpPriv) :=
  match g.gpMembs.grpGetFreeIndex with
  | some (index, membs) => .ok (g.grpAddAt service env membs index rank)
  | none =>
    match (g.gpMembs.grow g.gpMembs.cgmList.length rankListReallocSize).grpGetFreeIndex with
    | some (index, membs) => .ok (g.grpAddAt service env membs index rank)
    | none => .error .assertFail

/-- The loop of `crt_group_rank_remove_internal` over the slots. -/
def removeSlot : GrpPriv :=
  match g.gpMembs.cgmList.idxOf? rank with
  | none => g
  | some i =>
    { g with
      gpMembs := { g.gpMembs with cgmList := g.gpMembs.cgmList.set i crtNoRank }.grpAddFreeIndex i false
      gpSize := g.gpSize - 1 }.grpRegenLinearList

def crtGroupRankRemoveInternal : ℤ × GrpPriv :=
  if g.gpPrimary then
    if g.gpUriLookupCache rank then
      (0, { g with gpUriLookupCache := update g.gpUriLookupCache rank false }.removeSlot rank)
    else (-derOog, g)
  else
    match g.gpS2pTable rank with
    | none => (-derOog, g)
    | some primRank =>
      (0, { g with
        gpS2pTable := update g.gpS2pTable rank none
        gpP2sTable := update g.gpP2sTable primRank none }.removeSlot rank)

/-! ### Primary groups -/

/-- `crt_grp_lc_uri_insert`, and `grp_lc_uri_insert_internal_locked`; the URI can be
`NULL`. -/
def crtGrpLcUriInsert : GrpPriv :=
  if uri then { g with gpUriLookupCache := update g.gpUriLookupCache rank true } else g

/-- For tag 0. -/
def crtGroupPrimaryAddInternal : Except GrpStop (ℤ × GrpPriv) :=
  if g.gpPrimary = false then .ok (-derInval, g)
  else (g.crtGrpLcUriInsert rank uri).grpAddToMembsList service env rank

/-- `uri` tells whether there is a context. -/
def crtRankSelfSet : Except GrpStop (ℤ × GrpPriv) :=
  if service = false then .ok (0, g)
  else if g.gpSelf ≠ crtNoRank then .ok (-derInval, g)
  else do
    let (rc, g) ← { g with gpSelf := rank }.grpAddToMembsList service env rank
    if rc ≠ 0 then .ok (rc, g) else .ok (0, g.crtGrpLcUriInsert rank uri)

/-- The loop of `crt_grp_config_psr_load` over the lines of the file.  It keeps the
last rank that was read. -/
def psrLoadLoop (service : Bool) (psrRank : ℕ) :
    List (RankAddEnv × ℕ) → ℕ → GrpPriv → Except GrpStop (ℤ × ℕ × GrpPriv)
  | [], last, g => .ok (0, last, g)
  | (env, rank) :: lines, _, g => do
    let (rc, g) ← g.crtGroupPrimaryAddInternal service env rank true
    if rc ≠ 0 then .ok (rc, rank, g)
    else
      let g := if rank = psrRank then { g with gpPsrRank := rank } else g
      psrLoadLoop service psrRank lines rank g

/-- `file` has the error of reading it, or its lines. -/
def crtGrpConfigPsrLoad (psrRank : ℕ) (file : Except ℤ (List (RankAddEnv × ℕ))) :
    Except GrpStop (ℤ × GrpPriv) :=
  match file with
  | .error rc => .ok (rc, g)
  | .ok lines => do
    let (rc, last, g) ← psrLoadLoop service psrRank lines 0 g
    .ok (rc, if psrRank ≠ crtNoRank then { g with gpPsrRank := last } else g)

/-- `uri` is what `crt_grp_lc_lookup` finds for the candidate. -/
def crtGrpPsrReload (file : Except ℤ (List (RankAddEnv × ℕ))) : Except GrpStop (ℤ × GrpPriv) :=
  if g.gpSize = 0 then .error .divByZero
  else
    let psrRank := u32 (g.gpPsrRank + 1) % g.gpSize
    if psrRank = g.gpPsrRank then .ok (-derProto, g)
    else if uri then .ok (0, { g with gpPsrRank := psrRank })
    else g.crtGrpConfigPsrLoad service psrRank file

/-! ### Secondary groups -/

/-- The two insertions of `crt_group_secondary_rank_add_internal`. -/
def mapRank (secRank primRank : ℕ) : GrpPriv :=
  { g with
    gpS2pTable := update g.gpS2pTable secRank (some primRank)
    gpP2sTable := update g.gpP2sTable primRank (some secRank) }

def crtGroupSecondaryRankAddInternal (prim : GrpPriv) (secRank primRank : ℕ) :
    Except GrpStop (ℤ × GrpPriv) :=
  if primRank ∉ prim.gpMembs.cgmLinearList then .ok (-derOog, g)
  else if prim.gpSelf = crtNoRank then .error .assertFail
  else
    let g := if primRank = prim.gpSelf then { g with gpSelf := secRank } else g
    if (g.gpS2pTable secRank).isSome then .ok (-derExist, g)
    -- the entry in the first table is taken back
    else if (g.gpP2sTable primRank).isSome then .ok (-derExist, g)
    else do
      let (rc, g) ← (g.mapRank secRank primRank).grpAddToMembsList service env secRank
      if rc ≠ 0 then
        let s2p := update (update g.gpS2pTable secRank none) primRank none
        .ok (rc, { g with gpS2pTable := s2p })
      else .ok (0, g)

def crtGroupSecondaryRankAdd (prim : GrpPriv) (secRank primRank : ℕ) :
    Except GrpStop (ℤ × GrpPriv) :=
  if g.gpPrimary then .ok (-derInval, g)
  else g.crtGroupSecondaryRankAddInternal service env prim secRank primRank

end GrpPriv

/-! ### Modifications -/

/-- The ranks to add, with their positions, and those to remove. -/
def crtGroupModGet (grpMembs modMembs : List ℕ) (op : GroupModOp) :
    Except GrpStop (List (ℕ × ℕ) × List ℕ) :=
  let toAdd := modMembs.zipIdx.filter fun entry => entry.1 ∉ grpMembs
  match op with
  | .replace => .ok (toAdd, grpMembs.filter fun rank => rank ∉ modMembs)
  | .add => .ok (toAdd, [])
  | .remove =>
    let toRemove := modMembs.filter fun rank => rank ∈ grpMembs
    if grpMembs.length < toRemove.length then .error .outOfBounds else .ok ([], toRemove)

/-- A primary group with its secondary groups. -/
structure GrpWorld where
  prim : GrpPriv
  secs : List GrpPriv

namespace GrpPriv

/-- The removals after a modification that failed. -/
def cleanup (g : GrpPriv) (added : List ℕ) : GrpPriv :=
  added.foldl (fun g rank => (g.crtGroupRankRemoveInternal rank).2) g

/-- The additions of `crt_group_primary_modify`, with the ranks added so far. -/
def modifyAdd (service : Bool) (envs : ℕ → RankAddEnv) (uris : ℕ → Bool) :
    List (ℕ × ℕ) → List ℕ → GrpPriv → Except GrpStop (ℤ × List ℕ × GrpPriv)
  | [], added, g => .ok (0, added, g)
  | (rank, i) :: toAdd, added, g => do
    let (rc, g) ← g.grpAddToMembsList service (envs i) rank
    if rc ≠ 0 then .ok (rc, added, g)
    else modifyAdd service envs uris toAdd (added ++ [rank]) (g.crtGrpLcUriInsert rank (uris i))

/-- The additions of `crt_group_secondary_modify`. -/
def secondaryModifyAdd (service : Bool) (envs : ℕ → RankAddEnv) (prim : GrpPriv)
    (primRanks : List ℕ) :
    List (ℕ × ℕ) → List ℕ → GrpPriv → Except GrpStop (ℤ × List ℕ × GrpPriv)
  | [], added, g => .ok (0, added, g)
  | (rank, i) :: toAdd, added, g => do
    let (rc, g) ← g.crtGroupSecondaryRankAddInternal service (envs i) prim rank (primRanks.getD i 0)
    if rc ≠ 0 then .ok (rc, added, g)
    else secondaryModifyAdd service envs prim primRanks toAdd (added ++ [rank]) g

def crtGroupSecondaryModify (service : Bool) (envs : ℕ → RankAddEnv)
    (g prim : GrpPriv) (secRanks primRanks : List ℕ) (op : GroupModOp) :
    Except GrpStop (ℤ × GrpPriv) :=
  if g.gpPrimary then .ok (-derInval, g)
  else if secRanks = [] then .ok (-derInval, g)
  else if op ≠ .remove ∧ primRanks = [] then .ok (-derInval, g)
  else if op ≠ .remove ∧ secRanks.length ≠ primRanks.length then .ok (-derInval, g)
  else do
    let (toAdd, toRemove) ← crtGroupModGet g.gpMembs.cgmLinearList secRanks op
    let (rc, added, g) ← secondaryModifyAdd service envs prim primRanks toAdd [] g
    if rc ≠ 0 then .ok (rc, g.cleanup added) else .ok (0, g.cleanup toRemove)

/-- One round of `crt_grp_remove_from_secondaries`. -/
def removePrimary (rank : ℕ) (sec : GrpPriv) : GrpPriv :=
  match sec.gpP2sTable rank with
  | none => sec
  | some secRank => (sec.crtGroupRankRemoveInternal secRank).2

end GrpPriv

namespace GrpWorld

variable (service : Bool) (w : GrpWorld) (rank : ℕ)

def crtGrpRemoveFromSecondaries : GrpWorld :=
  { w with secs := w.secs.map (GrpPriv.removePrimary rank) }

/-- On the primary group. -/
def crtGroupRankRemove : ℤ × GrpWorld :=
  let (rc, prim) := w.prim.crtGroupRankRemoveInternal rank
  let w := { w with prim := prim }
  if rc ≠ 0 then (rc, w)
  else
    let w := w.crtGrpRemoveFromSecondaries rank
    (0, if prim.gpPrimary && !prim.gpView then { w with prim := prim.crtSwimRankDel service rank }
      else w)

/-- One removal of `crt_group_primary_modify`. -/
def modifyRemove : GrpWorld :=
  let w := { w with prim := (w.prim.crtGroupRankRemoveInternal rank).2 }
  let w := w.crtGrpRemoveFromSecondaries rank
  { w with prim := w.prim.crtSwimRankDel service rank }

/-- The array of URIs can be `NULL`. -/
def crtGroupPrimaryModify (envs : ℕ → RankAddEnv) (w : GrpWorld) (ranks : List ℕ)
    (uris : Option (ℕ → Bool)) (op : GroupModOp) : Except GrpStop (ℤ × GrpWorld) :=
  if w.prim.gpPrimary = false then .ok (-derInval, w)
  else if ranks = [] then .ok (-derInval, w)
  else if op ≠ .remove ∧ uris.isNone then .ok (-derInval, w)
  else do
    let (toAdd, toRemove) ← crtGroupModGet w.prim.gpMembs.cgmLinearList ranks op
    let (rc, added, prim) ←
      w.prim.modifyAdd service envs (uris.getD fun _ => false) toAdd []
    if rc ≠ 0 then .ok (rc, { w with prim := prim.cleanup added })
    else .ok (0, toRemove.foldl (modifyRemove service) { w with prim := prim })

end GrpWorld

end Cart
