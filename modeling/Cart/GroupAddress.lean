/-
The address of a rank that has been added.

A URI stays in the cache until its rank is removed, and an insertion does not write over it.
So a rank gets the URI that is already there: a reply that came after an earlier removal has
put it there.  Also no more than `CRT_ADDR_STR_MAX_LEN` characters are copied.

Main results: `primary_rank_address`, `primary_rank_address_stale`.
-/
import Cart.GroupCacheSpec
import Cart.GroupRun

open Option

namespace Cart

open Faults

/-- Memory that does not run out. -/
def easyMembs : MembsEnv := ⟨true, easyAdd⟩

/-- Memory that does not run out. -/
def easyInsert : LcInsertEnv := ⟨0, 0, true⟩

theorem easy_calm : easyMembs.realloc = true ∧ ∀ _ _ : ℕ, easyInsert.Calm :=
  ⟨rfl, fun _ _ => ⟨rfl, rfl, rfl⟩⟩

theorem exists_easy_rankAdd (g : LcGrpPriv) (rank : ℕ) (uri : Uri) {b : GrpPriv}
    (hb : g.grp.crtGroupPrimaryAddInternal false easyAdd rank true = .ok (0, b)) :
    ∃ g', g.crtGroupPrimaryRankAdd false easyMembs (fun _ _ => easyInsert) rank (some uri) =
      .ok (0, g') ∧ g'.grp = b :=
  (LcGrpPriv.crtGroupPrimaryRankAdd_follows false easyMembs _ g rank _).exists_of_faultless easy_calm hb

namespace LcGrpPriv

variable {g g' : LcGrpPriv} {rank : ℕ} {uri : Option Uri} {service : Bool}

/-- The group has just been made. -/
def ofGrp (grp : GrpPriv) : LcGrpPriv := ⟨grp, fun _ _ => none, fun _ _ => none, 0⟩

/-! ### An addition -/

/-- The cache has the URI already, or has none for the rank and can take all of it. -/
def UriFits (g : LcGrpPriv) (rank : ℕ) (uri : Option Uri) : Prop :=
  match g.grpLiUriGet rank 0 with
  | some old => uri = some old
  | none => ∀ u ∈ uri, u.length ≤ crtAddrStrMaxLen

theorem dStrndup_eq_iff (u : Uri) : dStrndup u = u ↔ u.length ≤ crtAddrStrMaxLen :=
  List.take_eq_self_iff u

/-- The URI that the cache has after an insertion is the one that was inserted. -/
theorem uriFits_iff (g : LcGrpPriv) (rank : ℕ) (uri : Option Uri) :
    (g.grpLiUriGet rank 0).or (uri.map dStrndup) = uri ↔ g.UriFits rank uri := by
  rw [UriFits]
  cases g.grpLiUriGet rank 0 with
  | some old =>
    rw [some_or]
    exact eq_comm
  | none =>
    rw [none_or]
    cases uri with
    | none => exact iff_of_true rfl fun u hu => absurd hu (not_mem_none u)
    | some u =>
      rw [map_some, some.injEq, dStrndup_eq_iff]
      exact ⟨fun h v hv => some.inj hv ▸ h, fun h => h u rfl⟩

/-- After an addition the caches are those after the insertion of its URI. -/
theorem caches_of_rankAdd {env : MembsEnv} {lc : ℕ → ℕ → LcInsertEnv}
    (h : g.crtGroupPrimaryRankAdd service env lc rank uri = .ok (0, g')) :
    g'.gpLookupCache = (g.insertUri rank 0 uri).gpLookupCache ∧
      ∀ r t, g'.grpLiUriGet r t = (g.insertUri rank 0 uri).grpLiUriGet r t := by
  have hrefused : ∀ {rc : ℤ} {g₁ : LcGrpPriv}, rc ≠ 0 →
      (Except.ok (rc, g₁) : Except GrpStop (ℤ × LcGrpPriv)) ≠ .ok (0, g') := by
    intro rc g₁ hrc heq
    cases heq
    exact hrc rfl
  rw [crtGroupPrimaryRankAdd, crtGroupPrimaryAddInternal] at h
  split at h
  · exact absurd h (hrefused (by decide))
  · rcases primaryInsertLoop_spec lc rank uri (by decide : crtSrvContextNum ≠ 0) 0 g with
      hok | ⟨_, rc, g₁, hrc, hfail⟩
    · rw [hok] at h
      have hframe := grpAddToMembsList_frame h
      have hsame := GrpPriv.sameBut_grpAddToMembsList ((grpAddToMembsList_follows service env _ rank).ok h)
      refine ⟨by rw [hframe], fun r t => ?_⟩
      rw [grpLiUriGet, hsame.cache, hframe]
      rfl
    · rw [hfail] at h
      dsimp only at h
      rw [if_pos hrc] at h
      exact absurd h (hrefused hrc)

end LcGrpPriv

open LcGrpPriv

/-- **Address of an added rank.** A lookup finds the URI exactly if the cache had it already, or
had none and it is not too long. -/
theorem primary_rank_address {g g' : LcGrpPriv} {rank : ℕ} {uri : Option Uri} {service : Bool}
    (shareNa : Bool) {env : MembsEnv} {lc : ℕ → ℕ → LcInsertEnv}
    (h : g.crtGroupPrimaryRankAdd service env lc rank uri = .ok (0, g')) :
    (∀ ctx < crtSrvContextNum, (g'.crtGrpLcLookup shareNa ctx rank 0).1 = uri) ↔
      g.UriFits rank uri := by
  obtain ⟨hlookup, hget⟩ := caches_of_rankAdd h
  have hfound : ∀ ctx < crtSrvContextNum, (g'.crtGrpLcLookup shareNa ctx rank 0).1 =
      (g.grpLiUriGet rank 0).or (uri.map dStrndup) := by
    intro ctx hctx
    rw [← crtGrpLcLookup_insertUri shareNa g rank uri hctx, crtGrpLcLookup, crtGrpLcLookup, hlookup]
    split
    · rfl
    · exact hget rank _
  rw [← uriFits_iff]
  constructor
  · intro hall
    rw [← hfound 0 (by decide)]
    exact hall 0 (by decide)
  · intro hfits ctx hctx
    rw [hfound ctx hctx]
    exact hfits

/-- A second rank is added to a view. -/
theorem primary_rank_address_second : ∃ g g',
    (ofGrp .crtGroupViewCreate).crtGroupPrimaryRankAdd false easyMembs (fun _ _ => easyInsert) 1
        (some "tcp://a:1".toList) = .ok (0, g) ∧
      g.crtGroupPrimaryRankAdd false easyMembs (fun _ _ => easyInsert) 2 (some "tcp://b:1".toList) =
        .ok (0, g') ∧
      ∀ ctx < crtSrvContextNum, (g'.crtGrpLcLookup false ctx 2 0).1 = some "tcp://b:1".toList := by
  obtain ⟨b, hb, hrecord, b', hb'⟩ : ∃ b,
      GrpPriv.crtGroupViewCreate.crtGroupPrimaryAddInternal false easyAdd 1 true = .ok (0, b) ∧
      b.gpUriLookupCache 2 = false ∧
      ∃ b', b.crtGroupPrimaryAddInternal false easyAdd 2 true = .ok (0, b') := ⟨_, rfl, rfl, _, rfl⟩
  obtain ⟨g, hadd, rfl⟩ := exists_easy_rankAdd (ofGrp .crtGroupViewCreate) 1 "tcp://a:1".toList hb
  obtain ⟨g', hadd', _⟩ := exists_easy_rankAdd g 2 "tcp://b:1".toList hb'
  refine ⟨g, g', hadd, hadd', (primary_rank_address false hadd').mpr ?_⟩
  rw [UriFits, grpLiUriGet_of_no_record hrecord]
  rintro _ ⟨⟩
  decide

/-! ### Histories -/

/-- As far as the caches go. -/
def LcGrpPriv.crtReqUriLookupByRpcCb (env : ℕ → LcInsertEnv) (g : LcGrpPriv) (cciRc ulRc : ℤ) (rank tag : ℕ)
    (ulUri : Option Uri) : LcGrpPriv :=
  if cciRc ≠ 0 then g
  else if ulRc ≠ 0 then g
  else (g.crtGrpLcUriInsert env rank tag ulUri).2

/-- What happens to the caches of a primary group. -/
inductive LcOp where
  | rankAdd (env : MembsEnv) (lc : ℕ → ℕ → LcInsertEnv) (rank : ℕ) (uri : Option Uri)
  | rankRemove (rank : ℕ)
  | modify (env : PrimaryModifyEnv) (ranks : List ℕ) (uris : Option (ℕ → Option Uri))
      (op : Option GroupModOp) (version : ℕ)
  | uriReply (env : ℕ → LcInsertEnv) (cciRc ulRc : ℤ) (rank tag : ℕ) (ulUri : Option Uri)
  | addrInsert (ctx rank tag addr : ℕ)
  | lookup (ctx rank tag : ℕ)

namespace LcGrpWorld

/-- The groups after a call. -/
def exec (service shareNa : Bool) (w : LcGrpWorld) : LcOp → Except GrpStop LcGrpWorld
  | .rankAdd env lc rank uri =>
    (w.prim.crtGroupPrimaryRankAdd service env lc rank uri).map fun r => { w with prim := r.2 }
  | .rankRemove rank => .ok (w.crtGroupRankRemove service rank).2
  | .modify env ranks uris op version =>
    (w.crtGroupPrimaryModify service env ranks uris op version).map Prod.snd
  | .uriReply env cciRc ulRc rank tag ulUri =>
    .ok { w with prim := w.prim.crtReqUriLookupByRpcCb env cciRc ulRc rank tag ulUri }
  | .addrInsert ctx rank tag addr =>
    (w.prim.crtGrpLcAddrInsert shareNa ctx rank tag addr).map fun prim => { w with prim := prim }
  | .lookup _ _ _ => .ok w

end LcGrpWorld

/-- The runs that begin with the primary group `prim`, up to a call that does not return. -/
def lcLts (service shareNa : Bool) (prim : GrpPriv) : Lts LcGrpWorld LcOp where
  init w := w = ⟨.ofGrp prim, []⟩
  enabled w op := ∃ w', w.exec service shareNa op = .ok w'
  step w op := (w.exec service shareNa op).toOption

theorem lcLts_cons {service shareNa : Bool} {prim : GrpPriv} {w w' w'' : LcGrpWorld} {op : LcOp}
    {ops : List LcOp} (hexec : w.exec service shareNa op = .ok w')
    (hrun : (lcLts service shareNa prim).Run w' ops w'') :
    (lcLts service shareNa prim).Run w (op :: ops) w'' :=
  .cons ⟨w', hexec⟩ (congrArg Except.toOption hexec) hrun

theorem lcExec_rankAdd {service shareNa : Bool} {env : MembsEnv} {lc : ℕ → ℕ → LcInsertEnv} {rank : ℕ}
    {uri : Option Uri} {g g' : LcGrpPriv} {rc : ℤ}
    (h : g.crtGroupPrimaryRankAdd service env lc rank uri = .ok (rc, g')) (secs : List LcGrpPriv) :
    LcGrpWorld.exec service shareNa ⟨g, secs⟩ (.rankAdd env lc rank uri) = .ok ⟨g', secs⟩ := by
  rw [LcGrpWorld.exec, h]
  rfl

/-- A reply that comes with a URI, with memory for it. -/
theorem LcGrpPriv.uriReply_easy (g : LcGrpPriv) (rank : ℕ) (uri : Option Uri) :
    g.crtReqUriLookupByRpcCb (fun _ => easyInsert) 0 0 rank 0 uri = g.insertUri rank 0 uri := by
  rw [crtReqUriLookupByRpcCb, if_neg (not_not.mpr rfl), if_neg (not_not.mpr rfl), crtGrpLcUriInsert,
    if_neg (by decide)]
  rcases uriInsertLoop_spec (fun _ => easyInsert) rank 0 uri crtSrvContextNum 0 g with
    hok | ⟨⟨c, hcalm⟩, _⟩
  · rw [hok]
    rfl
  · exact absurd (easy_calm.2 0 c) hcalm

theorem LcGrpWorld.prim_crtGroupRankRemove (w : LcGrpWorld) (rank : ℕ) :
    (w.crtGroupRankRemove false rank).2.prim = (w.prim.crtGroupRankRemoveInternal rank).2 := by
  rw [crtGroupRankRemove]
  dsimp only
  split
  · rfl
  · split
    · rfl
    · rfl

/-- A late reply brings a URI back after its rank was removed, and hides the new one. -/
theorem primary_rank_address_stale :
    ∃ w, (lcLts false false .crtGroupViewCreate).Reach w ∧ w.prim.grp.gpMembs.cgmLinearList = [] ∧
      ∃ g', w.prim.crtGroupPrimaryRankAdd false easyMembs (fun _ _ => easyInsert) 1
          (some "tcp://b:1".toList) = .ok (0, g') ∧
        (g'.crtGrpLcLookup false 0 1 0).1 = some "tcp://a:1".toList := by
  -- the membership on the way
  obtain ⟨b, hb, hlist, hrecord, b', hb'⟩ : ∃ b,
      GrpPriv.crtGroupViewCreate.crtGroupPrimaryAddInternal false easyAdd 1 true = .ok (0, b) ∧
      (b.crtGroupRankRemoveInternal 1).2.gpMembs.cgmLinearList = [] ∧
      (b.crtGroupRankRemoveInternal 1).2.gpUriLookupCache 1 = false ∧
      ∃ b', ((b.crtGroupRankRemoveInternal 1).2.crtGrpLcUriInsert 1 true).crtGroupPrimaryAddInternal
        false easyAdd 1 true = .ok (0, b') := ⟨_, rfl, rfl, rfl, _, rfl⟩
  obtain ⟨g₁, hadd, rfl⟩ := exists_easy_rankAdd (ofGrp .crtGroupViewCreate) 1 "tcp://a:1".toList hb
  have hremoved := LcGrpWorld.prim_crtGroupRankRemove ⟨g₁, []⟩ 1
  generalize hw₂ : (LcGrpWorld.crtGroupRankRemove false ⟨g₁, []⟩ 1).2 = w₂ at hremoved
  rw [← grp_removeInternal, ← hremoved] at hlist hrecord hb'
  have hgrp := w₂.prim.grp_insertUri 1 0 (some "tcp://a:1".toList)
  rw [Option.isSome_some] at hgrp
  rw [← hgrp] at hb'
  obtain ⟨g', hadd', _⟩ := exists_easy_rankAdd _ 1 "tcp://b:1".toList hb'
  refine ⟨{ w₂ with prim := w₂.prim.insertUri 1 0 (some "tcp://a:1".toList) },
    ⟨_, [.rankAdd easyMembs (fun _ _ => easyInsert) 1 (some "tcp://a:1".toList), .rankRemove 1,
      .uriReply (fun _ => easyInsert) 0 0 1 0 (some "tcp://a:1".toList)], rfl, ?_⟩, ?_, g', hadd', ?_⟩
  · refine lcLts_cons (lcExec_rankAdd hadd []) (lcLts_cons (congrArg Except.ok hw₂) (lcLts_cons ?_ (.nil _)))
    rw [LcGrpWorld.exec, uriReply_easy]
  · rw [grp_insertUri]
    exact hlist
  · obtain ⟨hlookup, hget⟩ := caches_of_rankAdd hadd'
    rw [crtGrpLcLookup, hlookup, gpLookupCache_insertUri, if_pos ⟨by decide, rfl⟩]
    rw [hget, grpLiUriGet_insertUri, if_pos ⟨rfl, rfl⟩, grpLiUriGet_insertUri, if_pos ⟨rfl, rfl⟩,
      grpLiUriGet_of_no_record hrecord]
    rfl

end Cart
