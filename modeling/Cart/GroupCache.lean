/-
The addresses of a group, its version, and memory that runs out (`crt_group.c`).

A primary group has a cache of URIs, with a record for a rank, and one of addresses, with an
item for a rank and a context; a lookup finds a URI only where there is an item.  Both are
filled by additions and by replies to URI requests.  This is the code, over `Cart.Group`
(`LcGrpPriv.grp`), with allocations that may fail where the code looks at their results.
-/
import Cart.Group

namespace Cart

open CrtSwimMembs (RankAddEnv)

def crtSrvContextNum : ℕ := 256

def crtAddrStrMaxLen : ℕ := 128

/-- The characters of a URI. -/
abbrev Uri := List Char

/-- Of a URI. -/
def dStrndup (uri : Uri) : Uri := uri.take crtAddrStrMaxLen

/-- `struct crt_grp_priv` with its caches: the records of URIs, and the items for a context and
a rank. -/
structure LcGrpPriv where
  grp : GrpPriv
  uiUri : ℕ → ℕ → Option Uri
  gpLookupCache : ℕ → ℕ → Option (ℕ → Option ℕ)
  gpMembsVer : ℕ

/-- What an insertion into the caches meets. -/
structure LcInsertEnv where
  li : ℤ
  ui : ℤ
  dup : Bool

/-- What an addition to the membership list meets. -/
structure MembsEnv where
  realloc : Bool
  swim : RankAddEnv

/-- What an addition to a secondary group meets. -/
structure MapEnv where
  rmS2p : Bool
  rmP2s : Bool
  membs : MembsEnv

/-- What a modification of a primary group meets. -/
structure PrimaryModifyEnv where
  modGet : Bool
  membs : ℕ → MembsEnv
  lc : ℕ → ℕ → LcInsertEnv

/-- What a modification of a secondary group meets. -/
structure SecondaryModifyEnv where
  modGet : Bool
  map : ℕ → MapEnv

namespace LcGrpPriv

/-! ### The caches -/

variable (shareNa service : Bool) (g : LcGrpPriv) (ctx rank tag : ℕ)

/-- For an item of the rank. -/
def grpLiUriGet : Option Uri :=
  if g.grp.gpUriLookupCache rank then g.uiUri rank tag else none

/-- Writes a URI into the record of a rank, which is made if it is not there. -/
def writeUri (uri : Uri) : LcGrpPriv :=
  { g with
    grp := { g.grp with gpUriLookupCache := Function.update g.grp.gpUriLookupCache rank true }
    uiUri := Function.update g.uiUri rank (Function.update (g.grpLiUriGet rank) tag (some uri)) }

def grpLiUriSet (env : LcInsertEnv) (g : LcGrpPriv) (rank tag : ℕ) (uri : Uri) : ℤ × LcGrpPriv :=
  if g.grp.gpUriLookupCache rank = false then
    if env.ui ≠ 0 then (env.ui, g)
    -- the record that has been made is deleted again
    else if env.dup = false then (-derNomem, g)
    else (0, g.writeUri rank tag (dStrndup uri))
  else if (g.grpLiUriGet rank tag).isSome then (0, g)
  else if env.dup = false then (-derNomem, g)
  else (0, g.writeUri rank tag (dStrndup uri))

/-- Writes the item for a rank in the cache of a context, or takes it out. -/
def setItem (item : Option (ℕ → Option ℕ)) : LcGrpPriv :=
  { g with gpLookupCache := fun c r => if c = ctx ∧ r = rank then item else g.gpLookupCache c r }

/-- Puts a new item for a rank into the cache of a context. -/
def newItem : LcGrpPriv :=
  g.setItem ctx rank (some fun _ => none)

def grpLcUriInsertInternalLocked (env : LcInsertEnv) (g : LcGrpPriv) (ctx rank tag : ℕ)
    (uri : Option Uri) : ℤ × LcGrpPriv :=
  match g.gpLookupCache ctx rank, uri with
  | none, none => if env.li ≠ 0 then (env.li, g) else (0, g.newItem ctx rank)
  | none, some uri =>
    if env.li ≠ 0 then (env.li, g)
    else
      let (rc, g) := g.grpLiUriSet env rank tag uri
      if rc ≠ 0 then (rc, g) else (0, g.newItem ctx rank)
  | some _, none => (0, g)
  | some _, some uri =>
    if (g.grpLiUriGet rank tag).isNone then
      let (rc, g) := g.grpLiUriSet env rank tag uri
      if rc ≠ 0 then (-derNomem, g) else (0, g)
    else (0, g)

/-- The loop over `n` contexts from `ctx` on. -/
def uriInsertLoop (env : ℕ → LcInsertEnv) (rank tag : ℕ) (uri : Option Uri) :
    ℕ → ℕ → LcGrpPriv → ℤ × LcGrpPriv
  | 0, _, g => (0, g)
  | n + 1, ctx, g =>
    let (rc, g) := g.grpLcUriInsertInternalLocked (env ctx) ctx rank tag uri
    if rc ≠ 0 then (rc, g) else uriInsertLoop env rank tag uri n (ctx + 1) g

/-- On a primary group; the context that it is given does not matter. -/
def crtGrpLcUriInsert (env : ℕ → LcInsertEnv) (g : LcGrpPriv) (rank tag : ℕ) (uri : Option Uri) :
    ℤ × LcGrpPriv :=
  if tag ≥ crtSrvContextNum then (-derInval, g)
  else uriInsertLoop env rank tag uri crtSrvContextNum 0 g

/-- On a primary group. -/
def crtGrpLcUriRemove : LcGrpPriv := g.setItem ctx rank none

/-- On a primary group, where addresses can be freed. -/
def crtGrpLcAddrInsert (addr : ℕ) : Except GrpStop LcGrpPriv :=
  let tag := if shareNa then 0 else tag
  match g.gpLookupCache ctx rank with
  | none => .error .assertFail
  | some liTagAddr =>
    .ok (if (liTagAddr tag).isNone then
        g.setItem ctx rank (some (Function.update liTagAddr tag (some addr)))
      else g)

/-- On a primary group: the URI and the address. -/
def crtGrpLcLookup : Option Uri × Option ℕ :=
  let tag := if shareNa then 0 else tag
  match g.gpLookupCache ctx rank with
  | none => (none, none)
  | some liTagAddr => (g.grpLiUriGet rank tag, liTagAddr tag)

/-! ### The membership -/

def grpAddToMembsList (service : Bool) (env : MembsEnv) (g : LcGrpPriv) (rank : ℕ) :
    Except GrpStop (ℤ × LcGrpPriv) :=
  if g.grp.gpMembs.cgmFreeIndices = [] ∧ env.realloc = false then .ok (-derNomem, g)
  else do
    let (rc, grp) ← g.grp.grpAddToMembsList service env.swim rank
    .ok (rc, { g with grp := grp })

/-- On a primary group the items go first. -/
def crtGroupRankRemoveInternal (g : LcGrpPriv) (rank : ℕ) : ℤ × LcGrpPriv :=
  let (rc, grp) := g.grp.crtGroupRankRemoveInternal rank
  let g' := { g with grp := grp }
  if g.grp.gpPrimary ∧ rc = 0 then
    (rc, (List.range crtSrvContextNum).foldl (fun g ctx => g.crtGrpLcUriRemove ctx rank) g')
  else (rc, g')

/-- The removals after a modification that failed. -/
def cleanup (added : List ℕ) : LcGrpPriv :=
  added.foldl (fun g rank => (g.crtGroupRankRemoveInternal rank).2) g

/-! ### Primary groups -/

/-- The loop of `crt_group_primary_add_internal` over `n` contexts from `i` on. -/
def primaryInsertLoop (env : ℕ → ℕ → LcInsertEnv) (rank tag : ℕ) (uri : Option Uri) :
    ℕ → ℕ → LcGrpPriv → ℤ × LcGrpPriv
  | 0, _, g => (0, g)
  | n + 1, i, g =>
    let (rc, g) := g.crtGrpLcUriInsert (env i) rank tag uri
    if rc ≠ 0 then (rc, g) else primaryInsertLoop env rank tag uri n (i + 1) g

def crtGroupPrimaryAddInternal (env : MembsEnv) (lc : ℕ → ℕ → LcInsertEnv) (g : LcGrpPriv)
    (rank tag : ℕ) (uri : Option Uri) : Except GrpStop (ℤ × LcGrpPriv) :=
  if g.grp.gpPrimary = false then .ok (-derInval, g)
  else
    let (rc, g) := primaryInsertLoop lc rank tag uri crtSrvContextNum 0 g
    if rc ≠ 0 then .ok (rc, g)
    else if tag = 0 then g.grpAddToMembsList service env rank
    else .ok (rc, g)

def crtGroupPrimaryRankAdd (env : MembsEnv) (lc : ℕ → ℕ → LcInsertEnv) (g : LcGrpPriv)
    (primRank : ℕ) (uri : Option Uri) : Except GrpStop (ℤ × LcGrpPriv) :=
  if g.grp.gpPrimary = false then .ok (-derInval, g)
  else g.crtGroupPrimaryAddInternal service env lc primRank 0 uri

/-- The additions of `crt_group_primary_modify`, with the ranks added so far. -/
def modifyAdd (service : Bool) (env : PrimaryModifyEnv) (uris : ℕ → Option Uri) :
    List (ℕ × ℕ) → List ℕ → LcGrpPriv → Except GrpStop (ℤ × List ℕ × LcGrpPriv)
  | [], added, g => .ok (0, added, g)
  | (rank, i) :: toAdd, added, g => do
    let (rc, g) ← g.grpAddToMembsList service (env.membs i) rank
    if rc ≠ 0 then .ok (rc, added, g)
    else
      let (rc, g) := uriInsertLoop (env.lc i) rank 0 (uris i) crtSrvContextNum 0 g
      if rc ≠ 0 then .ok (rc, added, g)
      else modifyAdd service env uris toAdd (added ++ [rank]) g

/-! ### Secondary groups -/

def crtGroupSecondaryRankAddInternal (env : MapEnv) (g : LcGrpPriv) (prim : GrpPriv)
    (secRank primRank : ℕ) : Except GrpStop (ℤ × LcGrpPriv) :=
  if primRank ∉ prim.gpMembs.cgmLinearList then .ok (-derOog, g)
  else if prim.gpSelf = crtNoRank then .error .assertFail
  else
    let g := if primRank = prim.gpSelf then { g with grp := { g.grp with gpSelf := secRank } } else g
    if (g.grp.gpS2pTable secRank).isSome then .ok (-derExist, g)
    else if env.rmS2p = false then .ok (-derNomem, g)
    else if env.rmP2s = false then .ok (-derNomem, g)
    -- the entry in the first table is taken back
    else if (g.grp.gpP2sTable primRank).isSome then .ok (-derExist, g)
    else do
      let (rc, g) ←
        { g with grp := g.grp.mapRank secRank primRank }.grpAddToMembsList service env.membs secRank
      if rc ≠ 0 then
        let s2p := Function.update (Function.update g.grp.gpS2pTable secRank none) primRank none
        .ok (rc, { g with grp := { g.grp with gpS2pTable := s2p } })
      else .ok (0, g)

def crtGroupSecondaryRankAdd (env : MapEnv) (g : LcGrpPriv) (prim : GrpPriv)
    (secRank primRank : ℕ) : Except GrpStop (ℤ × LcGrpPriv) :=
  if g.grp.gpPrimary then .ok (-derInval, g)
  else g.crtGroupSecondaryRankAddInternal service env prim secRank primRank

/-- The additions of `crt_group_secondary_modify`. -/
def secondaryModifyAdd (service : Bool) (env : SecondaryModifyEnv) (prim : GrpPriv)
    (primRanks : List ℕ) :
    List (ℕ × ℕ) → List ℕ → LcGrpPriv → Except GrpStop (ℤ × List ℕ × LcGrpPriv)
  | [], added, g => .ok (0, added, g)
  | (rank, i) :: toAdd, added, g => do
    let (rc, g) ←
      g.crtGroupSecondaryRankAddInternal service (env.map i) prim rank (primRanks.getD i 0)
    if rc ≠ 0 then .ok (rc, added, g)
    else secondaryModifyAdd service env prim primRanks toAdd (added ++ [rank]) g

/-- `none` is an `op` that is out of range. -/
def crtGroupSecondaryModify (env : SecondaryModifyEnv) (g : LcGrpPriv) (prim : GrpPriv)
    (secRanks primRanks : List ℕ) (op : Option GroupModOp) (version : ℕ) :
    Except GrpStop (ℤ × LcGrpPriv) :=
  if g.grp.gpPrimary then .ok (-derInval, g)
  else
    match op with
    | none => .ok (-derInval, g)
    | some op =>
      if secRanks = [] then .ok (-derInval, g)
      else if op ≠ .remove ∧ primRanks = [] then .ok (-derInval, g)
      else if op ≠ .remove ∧ secRanks.length ≠ primRanks.length then .ok (-derInval, g)
      else if env.modGet = false then .ok (-derNomem, g)
      else do
        let (toAdd, toRemove) ← crtGroupModGet g.grp.gpMembs.cgmLinearList secRanks op
        let (rc, added, g) ← secondaryModifyAdd service env prim primRanks toAdd [] g
        if rc ≠ 0 then .ok (rc, g.cleanup added)
        else .ok (0, { g.cleanup toRemove with gpMembsVer := version })

/-- One round of `crt_grp_remove_from_secondaries`. -/
def removePrimary (sec : LcGrpPriv) : LcGrpPriv :=
  match sec.grp.gpP2sTable rank with
  | none => sec
  | some secRank => (sec.crtGroupRankRemoveInternal secRank).2

end LcGrpPriv

/-! ### A primary group with its secondary groups -/

/-- A primary group with its secondary groups. -/
structure LcGrpWorld where
  prim : LcGrpPriv
  secs : List LcGrpPriv

namespace LcGrpWorld

variable (service : Bool) (w : LcGrpWorld) (rank : ℕ)

def crtGrpRemoveFromSecondaries : LcGrpWorld :=
  { w with secs := w.secs.map (LcGrpPriv.removePrimary rank) }

/-- For the primary group. -/
def crtSwimRankDel (service : Bool) (w : LcGrpWorld) (rank : ℕ) : LcGrpWorld :=
  { w with prim := { w.prim with grp := w.prim.grp.crtSwimRankDel service rank } }

/-- On the primary group. -/
def crtGroupRankRemove : ℤ × LcGrpWorld :=
  let (rc, prim) := w.prim.crtGroupRankRemoveInternal rank
  let w := { w with prim := prim }
  if rc ≠ 0 then (rc, w)
  else
    let w := w.crtGrpRemoveFromSecondaries rank
    (0, if prim.grp.gpPrimary && !prim.grp.gpView then w.crtSwimRankDel service rank else w)

/-- One removal of `crt_group_primary_modify`. -/
def modifyRemove : LcGrpWorld :=
  let w := { w with prim := (w.prim.crtGroupRankRemoveInternal rank).2 }
  (w.crtGrpRemoveFromSecondaries rank).crtSwimRankDel service rank

/-- `none` is an `op` that is out of range, and the array of URIs can be `NULL`. -/
def crtGroupPrimaryModify (env : PrimaryModifyEnv) (w : LcGrpWorld) (ranks : List ℕ)
    (uris : Option (ℕ → Option Uri)) (op : Option GroupModOp) (version : ℕ) :
    Except GrpStop (ℤ × LcGrpWorld) :=
  if w.prim.grp.gpPrimary = false then .ok (-derInval, w)
  else
    match op with
    | none => .ok (-derInval, w)
    | some op =>
      if ranks = [] then .ok (-derInval, w)
      else if op ≠ .remove ∧ uris.isNone then .ok (-derInval, w)
      else if env.modGet = false then .ok (-derNomem, w)
      else do
        let (toAdd, toRemove) ← crtGroupModGet w.prim.grp.gpMembs.cgmLinearList ranks op
        let (rc, added, prim) ←
          w.prim.modifyAdd service env (uris.getD fun _ => none) toAdd []
        if rc ≠ 0 then .ok (rc, { w with prim := prim.cleanup added })
        else
          let w := toRemove.foldl (modifyRemove service) { w with prim := prim }
          .ok (0, { w with prim := { w.prim with gpMembsVer := version } })

end LcGrpWorld

end Cart
