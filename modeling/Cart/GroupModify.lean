/-
What a modification means.

A modification of a primary group puts every new rank into the list and its URI into the
caches, and then takes out the ranks to be removed, each once.  On a secondary group it enters
the new pairs in the tables.

Main results: `EnteredAll`, `DroppedAll`, `group_modify_meaning`.
-/
import Cart.GroupAddress
import Cart.GroupTables

open Function List Option

namespace Cart

variable {toAdd : List (ℕ × ℕ)} {service : Bool} {op : GroupModOp}

open Faults GrpPriv

/-- The members after a modification. -/
def GroupModOp.Target (op : GroupModOp) (members ranks : List ℕ) (rank : ℕ) : Prop :=
  match op with
  | .replace => rank ∈ ranks
  | .add => rank ∈ members ∨ rank ∈ ranks
  | .remove => rank ∈ members ∧ rank ∉ ranks

namespace LcGrpPriv

variable {g g' g'' : LcGrpPriv} {rank : ℕ} {uris : ℕ → Option Uri}

/-- The caches have the same for a rank. -/
structure SameAt (rank : ℕ) (g g' : LcGrpPriv) : Prop where
  record : g'.grp.gpUriLookupCache rank = g.grp.gpUriLookupCache rank
  uri : ∀ tag, g'.grpLiUriGet rank tag = g.grpLiUriGet rank tag
  item : ∀ ctx, g'.gpLookupCache ctx rank = g.gpLookupCache ctx rank

theorem SameAt.refl (rank : ℕ) (g : LcGrpPriv) : SameAt rank g g := ⟨rfl, fun _ => rfl, fun _ => rfl⟩

theorem SameAt.trans (h : SameAt rank g g') (h' : SameAt rank g' g'') : SameAt rank g g'' :=
  ⟨h'.record.trans h.record, fun tag => (h'.uri tag).trans (h.uri tag),
    fun ctx => (h'.item ctx).trans (h.item ctx)⟩

theorem sameAt_of_grp {grp : GrpPriv} (hcache : grp.gpUriLookupCache = g.grp.gpUriLookupCache) :
    SameAt rank g { g with grp := grp } := by
  refine ⟨congrFun hcache rank, fun tag => ?_, fun _ => rfl⟩
  rw [grpLiUriGet, hcache]
  rfl

theorem SameAt.lookup (h : SameAt rank g g') (shareNa : Bool) (ctx tag : ℕ) :
    g'.crtGrpLcLookup shareNa ctx rank tag = g.crtGrpLcLookup shareNa ctx rank tag := by
  rw [crtGrpLcLookup, crtGrpLcLookup, h.item ctx]
  split
  · rfl
  · rw [h.uri]

/-! ### Additions -/

/-- What a lookup finds for a rank that has just been given a URI. -/
def Finds (g : LcGrpPriv) (rank : ℕ) (uri : Option Uri) : Prop :=
  ∀ shareNa ctx, ctx < crtSrvContextNum → (g.crtGrpLcLookup shareNa ctx rank 0).1 = uri

/-- `g'` is `g` with one more rank, and its URI unless there was one already. -/
structure Entered (rank : ℕ) (uri : Option Uri) (g g' : LcGrpPriv) : Prop where
  membs : AddedAll [rank] g.grp g'.grp
  finds : g'.Finds rank ((g.grpLiUriGet rank 0).or (uri.map dStrndup))
  same : ∀ r ≠ rank, SameAt r g g'

/-- `g'` is `g` with the ranks of a list, each with the URI at its position. -/
structure EnteredAll (uris : ℕ → Option Uri) (toAdd : List (ℕ × ℕ)) (g g' : LcGrpPriv) : Prop where
  membs : AddedAll (toAdd.map Prod.fst) g.grp g'.grp
  finds : ∀ e ∈ toAdd, g'.Finds e.1 ((g.grpLiUriGet e.1 0).or ((uris e.2).map dStrndup))
  same : ∀ r, r ∉ toAdd.map Prod.fst → SameAt r g g'
  eq_of_nil : toAdd = [] → g' = g

theorem sameAt_insertUri {r : ℕ} (hr : r ≠ rank) (g : LcGrpPriv) (uri : Option Uri) :
    SameAt r g (g.insertUri rank 0 uri) := by
  refine ⟨?_, fun tag => ?_, fun ctx => ?_⟩
  · rw [grp_insertUri, GrpPriv.crtGrpLcUriInsert]
    split
    · exact update_of_ne hr _ _
    · rfl
  · rw [grpLiUriGet_insertUri, if_neg fun h => hr h.1]
  · rw [gpLookupCache_insertUri, if_neg fun h => hr h.2]

theorem entered_of_add {env : MembsEnv} {lc : ℕ → LcInsertEnv} {uri : Option Uri} {g₁ : LcGrpPriv}
    (h : g.grp.SlotsOk) (hrank : rank ≠ crtNoRank)
    (hadd : g.grpAddToMembsList service env rank = .ok (0, g₁))
    (hloop : (uriInsertLoop lc rank 0 uri crtSrvContextNum 0 g₁).1 = 0) :
    Entered rank uri g (uriInsertLoop lc rank 0 uri crtSrvContextNum 0 g₁).2 := by
  rcases uriInsertLoop_spec lc rank 0 uri crtSrvContextNum 0 g₁ with hok | ⟨_, rc, k, hrc, hfail⟩
  · rw [hok]
    have hcoarse := (grpAddToMembsList_follows service env g rank).ok hadd
    obtain ⟨r, hr, hadded⟩ := grpAddToMembsList_spec service env.swim h hrank
    rw [hcoarse] at hr
    cases hr
    have hall := hadded.addedAll
    rw [if_pos rfl] at hall
    have hframe := grpAddToMembsList_frame hadd
    have hsame : ∀ r, SameAt r g g₁ := by
      intro r
      rw [hframe]
      exact sameAt_of_grp hadded.same.cache
    refine ⟨?_, fun shareNa ctx hctx => ?_, fun r hr => (hsame r).trans (sameAt_insertUri hr g₁ uri)⟩
    · show AddedAll [rank] g.grp (g₁.insertUri rank 0 uri).grp
      rw [grp_insertUri]
      exact hall.trans (crtGrpLcUriInsert_addedAll hall.slots rank uri.isSome)
    · refine (crtGrpLcLookup_insertUri shareNa g₁ rank uri hctx).trans ?_
      rw [(hsame rank).uri]
  · rw [hfail] at hloop
    exact absurd hloop hrc

theorem EnteredAll.cons {i : ℕ}
    (h : Entered rank (uris i) g g') (hrest : EnteredAll uris toAdd g' g'')
    (hnew : rank ∉ toAdd.map Prod.fst) : EnteredAll uris ((rank, i) :: toAdd) g g'' := by
  refine ⟨h.membs.trans hrest.membs, fun e he => ?_, fun r hr => ?_, fun hnil => by cases hnil⟩
  · rcases mem_cons.mp he with rfl | he
    · intro shareNa ctx hctx
      rw [(hrest.same rank hnew).lookup]
      exact h.finds shareNa ctx hctx
    · have hne : e.1 ≠ rank := fun heq => hnew (heq ▸ mem_map_of_mem he)
      rw [← (h.same e.1 hne).uri]
      exact hrest.finds e he
  · rw [map_cons, mem_cons, not_or] at hr
    exact (h.same r hr.1).trans (hrest.same r hr.2)

theorem enteredAll_of_modifyAdd {env : PrimaryModifyEnv} (toAdd : List (ℕ × ℕ)) :
    ∀ {added added' : List ℕ} {g : LcGrpPriv}, g.grp.SlotsOk → (∀ e ∈ toAdd, e.1 ≠ crtNoRank) →
      (toAdd.map Prod.fst).Nodup → g.modifyAdd service env uris toAdd added = .ok (0, added', g') →
      EnteredAll uris toAdd g g' := by
  induction toAdd with
  | nil =>
    intro added added' g h _ _ hcall
    cases hcall
    exact ⟨.of_same h rfl rfl rfl, fun e he => absurd he not_mem_nil, fun r _ => .refl r _, fun _ => rfl⟩
  | cons entry toAdd ih =>
    intro added added' g h hne hnodup hcall
    obtain ⟨hnew, hnodup⟩ := nodup_cons.mp hnodup
    obtain ⟨⟨rc, g₁⟩, hadd, hcall⟩ := exists_of_bind_eq_ok hcall
    dsimp only at hcall
    split at hcall
    · rename_i hrc
      cases hcall
      exact absurd rfl hrc
    · rename_i hrc
      rw [not_not.mp hrc] at hadd
      split_ifs at hcall with hloop
      · exact absurd (Prod.mk.inj (Except.ok.inj hcall)).1 hloop
      · have hone := entered_of_add h (hne _ mem_cons_self) hadd (not_not.mp hloop)
        exact .cons hone (ih hone.membs.slots (fun e he => hne e (mem_cons_of_mem _ he)) hnodup hcall)
          hnew

theorem EnteredAll.listed (h : EnteredAll uris toAdd g g') (hne : toAdd ≠ []) : g'.grp.Listed := by
  refine h.membs.list.resolve_right fun hsame => ?_
  have hlen := h.membs.occupied.length_eq
  rw [occupied_congr hsame, length_append, length_map] at hlen
  exact hne (length_eq_zero_iff.mp (by omega))

/-! ### Removals -/

/-- A removal of a modification. -/
def dropRank (service : Bool) (g : LcGrpPriv) (rank : ℕ) : LcGrpPriv :=
  { (g.crtGroupRankRemoveInternal rank).2 with
    grp := (g.grp.crtGroupRankRemoveInternal rank).2.crtSwimRankDel service rank }

/-- Ranks have been removed: each leaves one slot if there is a record for it, and the
others keep everything. -/
structure DroppedAll (listed : Prop) (ranks : List ℕ) (g g' : LcGrpPriv) : Prop where
  prim : PrimOk listed False g'.grp
  count : ∀ x, g'.grp.occupied.count x =
    g.grp.occupied.count x - if x ∈ ranks ∧ g.grp.gpUriLookupCache x then 1 else 0
  record : ∀ x ∈ ranks, g'.grp.gpUriLookupCache x = false
  same : ∀ x, x ∉ ranks → SameAt x g g'

variable {listed : Prop}

theorem gpUriLookupCache_crtSwimRankDel (service : Bool) (grp : GrpPriv) (rank : ℕ) :
    (grp.crtSwimRankDel service rank).gpUriLookupCache = grp.gpUriLookupCache := by
  rw [GrpPriv.crtSwimRankDel]
  split
  · rfl
  · rfl

theorem removeInternal_counts (h : PrimOk listed False g.grp) (hrank : rank ≠ crtNoRank) :
    (∀ x, (g.grp.crtGroupRankRemoveInternal rank).2.occupied.count x =
      g.grp.occupied.count x - if x = rank ∧ g.grp.gpUriLookupCache x then 1 else 0) ∧
    (g.grp.crtGroupRankRemoveInternal rank).2.gpUriLookupCache =
      update g.grp.gpUriLookupCache rank false := by
  rcases h.removed_cases hrank with heq | ⟨hrc, hr⟩
  · -- refused, so there is no record
    have hrecord : g.grp.gpUriLookupCache rank = false := by
      by_contra hno
      rw [GrpPriv.crtGroupRankRemoveInternal, if_pos h.primary, if_pos (Bool.eq_true_of_not_eq_false hno)] at heq
      exact absurd (Prod.mk.inj heq).1 (by decide)
    rw [heq]
    refine ⟨fun x => ?_, ?_⟩
    · rw [if_neg, Nat.sub_zero]
      rintro ⟨rfl, htrue⟩
      rw [hrecord] at htrue
      cases htrue
    · rw [← hrecord, update_eq_self]
  · have hrecord : g.grp.gpUriLookupCache rank = true := by
      by_contra hno
      rw [GrpPriv.crtGroupRankRemoveInternal, if_pos h.primary, if_neg hno] at hrc
      exact absurd hrc (by decide : -derOog ≠ 0)
    refine ⟨fun x => ?_, hr.same.cache⟩
    have hocc : ({ g.grp with gpUriLookupCache := update g.grp.gpUriLookupCache rank false } :
        GrpPriv).occupied = g.grp.occupied := rfl
    by_cases hx : x = rank
    · subst hx
      rw [if_pos ⟨rfl, hrecord⟩]
      rcases hr.occupied with ⟨hno, hsame⟩ | ⟨hperm, _⟩
      · rw [hocc] at hno
        rw [occupied_congr hsame, hocc, count_eq_zero.mpr hno]
      · have hcount := hperm.count_eq x
        rw [count_cons_self, hocc] at hcount
        omega
    · rw [if_neg fun hand => hx hand.1, Nat.sub_zero]
      rcases hr.occupied with ⟨_, hsame⟩ | ⟨hperm, _⟩
      · rw [occupied_congr hsame, hocc]
      · have hcount := hperm.count_eq x
        rw [count_cons_of_ne (Ne.symm hx), hocc] at hcount
        exact hcount.symm

theorem droppedAll_one (h : PrimOk listed False g.grp) (service : Bool) (hrank : rank ≠ crtNoRank) :
    DroppedAll listed [rank] g (g.dropRank service rank) := by
  obtain ⟨hcount, hcache⟩ := removeInternal_counts h hrank
  have hcache' : (g.dropRank service rank).grp.gpUriLookupCache =
      update g.grp.gpUriLookupCache rank false :=
    (gpUriLookupCache_crtSwimRankDel service _ rank).trans hcache
  refine ⟨(h.removed hrank).swimRankDel service rank, fun x => ?_, fun x hx => ?_, fun x hx => ?_⟩
  · simp only [mem_singleton]
    rw [← hcount x]
    exact congrArg (count x) (occupied_congr (crtSwimRankDel_gpMembs _ service rank))
  · rw [mem_singleton.mp hx, hcache', update_self]
  · have hne : x ≠ rank := fun heq => hx (mem_singleton.mpr heq)
    have hrecord : (g.dropRank service rank).grp.gpUriLookupCache x = g.grp.gpUriLookupCache x := by
      rw [hcache', update_of_ne hne]
    refine ⟨hrecord, fun tag => ?_, fun ctx => ?_⟩
    · rw [grpLiUriGet, hrecord, dropRank, crtGroupRankRemoveInternal_eq]
      rfl
    · rw [dropRank, crtGroupRankRemoveInternal_eq]
      exact if_neg fun hand => hne hand.2.2

theorem droppedAll_foldl (service : Bool) (ranks : List ℕ) :
    ∀ {g : LcGrpPriv}, PrimOk listed False g.grp → (∀ rank ∈ ranks, rank ≠ crtNoRank) →
      DroppedAll listed ranks g (ranks.foldl (dropRank service) g) := by
  induction ranks with
  | nil =>
    intro g h _
    refine ⟨h, fun x => ?_, fun x hx => absurd hx not_mem_nil, fun x _ => .refl x g⟩
    rfl
  | cons rank ranks ih =>
    intro g h hne
    have hone := droppedAll_one h service (hne rank mem_cons_self)
    have hrest := ih hone.prim fun r hr => hne r (mem_cons_of_mem _ hr)
    refine ⟨hrest.prim, fun x => ?_, fun x hx => ?_, fun x hx => ?_⟩
    · rw [foldl_cons, hrest.count x, hone.count x]
      by_cases hx : x = rank
      · -- the record is gone, so that it is not removed again
        have hgone := hone.record x (mem_singleton.mpr hx)
        rw [hgone]
        simp [hx]
      · rw [(hone.same x fun hmem => hx (mem_singleton.mp hmem)).record]
        simp [hx]
    · rw [foldl_cons]
      by_cases hrest' : x ∈ ranks
      · exact hrest.record x hrest'
      · rw [(hrest.same x hrest').record]
        exact hone.record x (mem_singleton.mpr ((mem_cons.mp hx).resolve_right hrest'))
    · rw [mem_cons, not_or] at hx
      exact (hone.same x fun hmem => hx.1 (mem_singleton.mp hmem)).trans (hrest.same x hx.2)

/-! ### What is asked for -/

/-- The members of the group, as they are given to callers. -/
def members (g : LcGrpPriv) : List ℕ := g.grp.gpMembs.cgmLinearList

/-- The modification of a primary group has been done. -/
structure PrimaryModified (op : GroupModOp) (ranks : List ℕ) (uris : Option (ℕ → Option Uri))
    (version : ℕ) (g g' : LcGrpPriv) : Prop where
  members : ∀ rank, rank ∈ g'.members ↔ op.Target g.members ranks rank
  paired : op ≠ .remove → ∀ array ∈ uris, ∀ i rank : ℕ, ranks[i]? = some rank → rank ∉ g.members →
    g'.Finds rank (array i)
  kept : ∀ rank ∈ g.members, rank ∈ g'.members → ∀ shareNa ctx tag,
    (g'.crtGrpLcLookup shareNa ctx rank tag).1 = (g.crtGrpLcLookup shareNa ctx rank tag).1
  version : g'.gpMembsVer = version

/-- The modification of a secondary group has been done. -/
structure SecondaryModified (op : GroupModOp) (secRanks primRanks : List ℕ) (version : ℕ)
    (g g' : LcGrpPriv) : Prop where
  members : ∀ rank, rank ∈ g'.members ↔ op.Target g.members secRanks rank
  paired : op ≠ .remove → ∀ i rank : ℕ, secRanks[i]? = some rank → rank ∉ g.members →
    ∃ primRank, primRanks[i]? = some primRank ∧ g'.grp.gpS2pTable rank = some primRank
  kept : ∀ rank ∈ g.members, rank ∈ g'.members → g'.grp.gpS2pTable rank = g.grp.gpS2pTable rank
  version : g'.gpMembsVer = version

/-- No rank to remove is in the list twice, the list is up to date, and the cache can take the
new URIs. -/
structure ModifyFits (op : GroupModOp) (ranks : List ℕ) (uris : Option (ℕ → Option Uri))
    (g : LcGrpPriv) : Prop where
  once : ∀ rank ∈ g.members, op.Drops ranks rank → g.members.count rank = 1
  listed : op ≠ .remove → ∀ rank ∈ g.grp.occupied, rank ∈ g.members ∨ rank ∈ ranks
  fits : op ≠ .remove → ∀ array ∈ uris, ∀ i rank : ℕ, ranks[i]? = some rank → rank ∉ g.members →
    g.UriFits rank (array i)

/-- A member stays, or it is among those to be removed. -/
theorem target_of_member {members ranks : List ℕ} (h : rank ∈ members) :
    op.Target members ranks rank ↔ ¬ op.Drops ranks rank := by
  cases op with
  | replace => exact not_not.symm
  | add => exact iff_of_true (.inl h) not_false
  | remove => exact ⟨And.right, fun hno => ⟨h, hno⟩⟩

theorem target_of_new {members ranks : List ℕ} (h : rank ∉ members) :
    op.Target members ranks rank ↔ op ≠ .remove ∧ rank ∈ ranks := by
  cases op with
  | replace => exact ⟨fun hr => ⟨GroupModOp.noConfusion, hr⟩, And.right⟩
  | add => exact ⟨fun hor => ⟨GroupModOp.noConfusion, hor.resolve_left h⟩, fun hand => .inr hand.2⟩
  | remove => exact ⟨fun hand => absurd hand.1 h, fun hand => absurd rfl hand.1⟩

end LcGrpPriv

open LcGrpPriv

namespace LcGrpWorld

variable {w w' : LcGrpWorld} {env : PrimaryModifyEnv} {ranks : List ℕ}
  {uris : Option (ℕ → Option Uri)} {version : ℕ}

theorem prim_foldl_modifyRemove (service : Bool) (ranks : List ℕ) (w : LcGrpWorld) :
    (ranks.foldl (modifyRemove service) w).prim = ranks.foldl (dropRank service) w.prim := by
  induction ranks generalizing w with
  | nil => rfl
  | cons rank ranks ih =>
    have hone : (w.modifyRemove service rank).prim = w.prim.dropRank service rank := by
      rw [dropRank, ← grp_removeInternal]
      rfl
    rw [foldl_cons, foldl_cons, ih, hone]

section

variable (h : PrimOk False False w.prim.grp) (hne : ∀ rank ∈ ranks, rank ≠ crtNoRank)
  (hnodup : ranks.Nodup)
  (hcall : w.crtGroupPrimaryModify service env ranks uris (some op) version = .ok (0, w'))

include h hne hnodup hcall

/-- The additions and the removals of a modification that succeeds. -/
theorem modify_steps : w.PrimaryArgs ranks uris op ∧ ∃ (toRemove : List ℕ) (g₁ : LcGrpPriv),
      EnteredAll (uris.getD fun _ => none) (modEntries op w.prim.members ranks) w.prim g₁ ∧
      DroppedAll g₁.grp.Listed toRemove g₁ (toRemove.foldl (dropRank service) g₁) ∧
      (∀ rank, rank ∈ toRemove ↔ rank ∈ w.prim.members ∧ op.Drops ranks rank) ∧
      w'.prim = { toRemove.foldl (dropRank service) g₁ with gpMembsVer := version } := by
  rcases crtGroupPrimaryModify_cases hcall with
    ⟨hrc, _⟩ | ⟨o, toAdd, toRemove, added, g₁, ho, hargs, _, hget, hadd, ⟨hrc, _⟩ | ⟨_, hprim⟩⟩
  · exact absurd rfl hrc
  · exact absurd rfl hrc
  · cases ho
    obtain ⟨rfl, hremove⟩ := crtGroupModGet_eq_ok hget
    have hnew : ∀ e ∈ modEntries op w.prim.members ranks, e.1 ≠ crtNoRank := fun e he =>
      hne _ (mem_of_getElem? (mem_modEntries.mp he).2.1)
    have hentered := enteredAll_of_modifyAdd _ h.slots hnew (nodup_modEntries hnodup op _) hadd
    have hok := h.added hentered.membs False.elim
    have hdropped := droppedAll_foldl service toRemove
      (⟨hok.primary, hok.slots, hok.made, id, False.elim⟩ : PrimOk g₁.grp.Listed False g₁.grp)
      fun r hr => SlotsOk.ne_crtNoRank (h.within ((hremove r).mp hr).1)
    rw [prim_foldl_modifyRemove] at hprim
    exact ⟨hargs, toRemove, g₁, hentered, hdropped, hremove, hprim⟩

theorem members_of_modify
    (hrecords : ∀ rank ∈ w.prim.members, w.prim.grp.gpUriLookupCache rank = true) (x : ℕ) :
    x ∈ w'.prim.members ↔
      if x ∈ w.prim.members then ¬ op.Drops ranks x ∨ 1 < w.prim.grp.occupied.count x
      else op ≠ .remove ∧ (x ∈ ranks ∨ x ∈ w.prim.grp.occupied) := by
  obtain ⟨hargs, toRemove, g₁, hentered, hdropped, hremove, hprim⟩ := modify_steps h hne hnodup hcall
  have hmembers : w'.prim.members = (toRemove.foldl (dropRank service) g₁).members := by rw [hprim]; rfl
  rw [hmembers]
  by_cases hlisted : g₁.grp.Listed
  · have hlist : (toRemove.foldl (dropRank service) g₁).members =
        (toRemove.foldl (dropRank service) g₁).grp.occupied := hdropped.prim.list hlisted
    rw [hlist, ← count_pos_iff, hdropped.count x, hentered.membs.occupied.count_eq, count_append]
    by_cases hmem : x ∈ w.prim.members
    · have hold : x ∉ (modEntries op w.prim.members ranks).map Prod.fst :=
        fun hin => (mem_map_modEntries.mp hin).2.2 hmem
      have hrecord : g₁.grp.gpUriLookupCache x = true :=
        (hentered.same x hold).record.trans (hrecords x hmem)
      have hpos := count_pos_iff.mpr (h.within hmem)
      rw [if_pos hmem, count_eq_zero.mpr hold, hrecord]
      by_cases hdrops : op.Drops ranks x
      · rw [if_pos ⟨(hremove x).mpr ⟨hmem, hdrops⟩, rfl⟩]
        simp only [hdrops, not_true_eq_false, false_or]
        omega
      · rw [if_neg fun hand => hdrops ((hremove x).mp hand.1).2]
        simp only [hdrops, not_false_eq_true, true_or, iff_true]
        omega
    · rw [if_neg hmem, if_neg fun hand => hmem ((hremove x).mp hand.1).1, Nat.sub_zero,
        Nat.add_pos_iff_pos_or_pos, count_pos_iff, count_pos_iff, mem_map_modEntries]
      constructor
      · rintro (hnew | hocc)
        · exact ⟨hnew.1, .inl hnew.2.1⟩
        · -- the list does not have all ranks, so it has been made by an addition
          refine ⟨fun hop => hmem ?_, .inr hocc⟩
          rw [hentered.eq_of_nil (if_pos hop)] at hlisted
          rwa [LcGrpPriv.members, hlisted]
      · rintro ⟨hop, hnew | hocc⟩
        · exact .inl ⟨hop, hnew, hmem⟩
        · exact .inr hocc
  · -- there was no list and nothing has been added, so there is no list still
    have hnil : modEntries op w.prim.members ranks = [] :=
      not_not.mp fun hcons => hlisted (hentered.listed hcons)
    obtain rfl := hentered.eq_of_nil hnil
    have hempty : w.prim.members = [] := h.made.resolve_right hlisted
    have hstay : toRemove = [] := by
      refine eq_nil_iff_forall_not_mem.mpr fun r hr => ?_
      have hmem := ((hremove r).mp hr).1
      rw [hempty] at hmem
      cases hmem
    rw [hstay, foldl_nil, hempty, if_neg not_mem_nil]
    refine iff_of_false not_mem_nil fun hand => hargs.ranks ?_
    refine eq_nil_iff_forall_not_mem.mpr fun r hr => ?_
    have hmem := mem_map_modEntries.mpr ⟨hand.1, hr, not_mem_nil⟩
    rw [← hempty, hnil] at hmem
    cases hmem

theorem finds_of_modify (hop : op ≠ .remove) {array : ℕ → Option Uri} (harray : array ∈ uris)
    {i rank : ℕ}
    (hi : ranks[i]? = some rank) (hnew : rank ∉ w.prim.members) :
    w'.prim.Finds rank ((w.prim.grpLiUriGet rank 0).or ((array i).map dStrndup)) := by
  obtain ⟨_, toRemove, g₁, hentered, hdropped, hremove, hprim⟩ := modify_steps h hne hnodup hcall
  intro shareNa ctx hctx
  have hstay : rank ∉ toRemove := fun hin => hnew ((hremove rank).mp hin).1
  have hfound := hentered.finds (rank, i) (mem_modEntries.mpr ⟨hop, hi, hnew⟩) shareNa ctx hctx
  rw [mem_def.mp harray] at hfound
  rw [hprim]
  exact (congrArg Prod.fst ((hdropped.same rank hstay).lookup shareNa ctx 0)).trans hfound

/-- A modification of a primary group that succeeds does what it should exactly if nothing
is in its way. -/
theorem primaryModified_iff
    (hrecords : ∀ rank ∈ w.prim.members, w.prim.grp.gpUriLookupCache rank = true) :
    PrimaryModified op ranks uris version w.prim w'.prim ↔ ModifyFits op ranks uris w.prim := by
  obtain ⟨_, toRemove, g₁, hentered, hdropped, hremove, hprim⟩ := modify_steps h hne hnodup hcall
  have hmembers := members_of_modify h hne hnodup hcall hrecords
  have hcount : ∀ x ∈ w.prim.members, w.prim.members.count x = w.prim.grp.occupied.count x := by
    intro x hx
    rcases h.made with hnil | hlisted
    · rw [LcGrpPriv.members, hnil] at hx
      cases hx
    · rw [LcGrpPriv.members, hlisted]
  constructor
  · intro hmod
    refine ⟨fun x hx hdrops => ?_, fun hop x hocc => ?_, fun hop array harray i rank hi hnew => ?_⟩
    · have hgone : x ∉ w'.prim.members := by
        rw [hmod.members x, target_of_member hx]
        exact not_not.mpr hdrops
      rw [hmembers x, if_pos hx, not_or] at hgone
      have hpos := count_pos_iff.mpr (h.within hx)
      rw [hcount x hx]
      omega
    · by_contra hno
      rw [not_or] at hno
      have hin := (hmembers x).mpr (by rw [if_neg hno.1]; exact ⟨hop, .inr hocc⟩)
      rw [hmod.members x, target_of_new hno.1] at hin
      exact hno.2 hin.2
    · rw [← uriFits_iff, ← finds_of_modify h hne hnodup hcall hop harray hi hnew false 0 (by decide)]
      exact hmod.paired hop array harray i rank hi hnew false 0 (by decide)
  · intro hfits
    have htarget : ∀ x, x ∈ w'.prim.members ↔ op.Target w.prim.members ranks x := by
      intro x
      rw [hmembers x]
      split_ifs with hx
      · rw [target_of_member hx]
        refine ⟨fun hor hdrops => ?_, .inl⟩
        have hone := hfits.once x hx hdrops
        rw [hcount x hx] at hone
        have htwo := hor.resolve_left (not_not.mpr hdrops)
        omega
      · rw [target_of_new hx]
        refine ⟨fun hand => ⟨hand.1, ?_⟩, fun hand => ⟨hand.1, .inl hand.2⟩⟩
        exact hand.2.elim id fun hocc => (hfits.listed hand.1 x hocc).resolve_left hx
    refine ⟨htarget, fun hop array harray i rank hi hnew shareNa ctx hctx => ?_,
      fun rank hold hstays shareNa ctx tag => ?_, by rw [hprim]⟩
    · rw [finds_of_modify h hne hnodup hcall hop harray hi hnew shareNa ctx hctx]
      exact (uriFits_iff _ _ _).mpr (hfits.fits hop array harray i rank hi hnew)
    · -- a member that stays is not touched
      have hkeep : rank ∉ toRemove := by
        intro hin
        rw [htarget rank, target_of_member hold] at hstays
        exact hstays ((hremove rank).mp hin).2
      have hnot : rank ∉ (modEntries op w.prim.members ranks).map Prod.fst := fun hin =>
        (mem_map_modEntries.mp hin).2.2 hold
      rw [hprim]
      exact congrArg Prod.fst (((hentered.same rank hnot).trans (hdropped.same rank hkeep)).lookup shareNa ctx tag)

end

end LcGrpWorld

/-! ### Secondary groups -/

theorem LcGrpPriv.secondaryModified {g g' : LcGrpPriv} {prim : GrpPriv} {service : Bool}
    {env : SecondaryModifyEnv} {secRanks primRanks : List ℕ} {version : ℕ}
    (h : Mapped prim.gpMembs.cgmLinearList g.grp) (hne : ∀ rank ∈ secRanks, rank ≠ crtNoRank)
    (hcall : g.crtGroupSecondaryModify service env prim secRanks primRanks (some op) version = .ok (0, g')) :
    SecondaryModified op secRanks primRanks version g g' := by
  have hcoarse := (crtGroupSecondaryModify_follows service env g prim secRanks primRanks op version).ok hcall
  obtain ⟨grp₁, toRemove, hpaired, hremove, hgrp⟩ := h.modify_pairs hne hcoarse
  have hs2p : ∀ x, g'.grp.gpS2pTable x = if x ∈ toRemove then none else grp₁.gpS2pTable x := by
    intro x
    rw [hgrp]
    exact (cleanup_tables hpaired.mapped.secondary toRemove).1 x
  -- the pairs that are entered
  have hpairs : ∀ x, x ∈ (g.grp.modPairs secRanks primRanks op).map Prod.fst ↔
      op ≠ .remove ∧ x ∈ secRanks ∧ x ∉ g.members := by
    intro x
    rw [← mem_map_modEntries]
    show x ∈ ((modEntries op g.members secRanks).map _).map Prod.fst ↔ _
    rw [List.map_map]
    rfl
  have hmem : ∀ x, x ∈ g.members ↔ (g.grp.gpS2pTable x).isSome := by
    intro x
    rw [h.domain x, LcGrpPriv.members, h.listed]
  have hmem' : ∀ x, x ∈ g'.members ↔ (g'.grp.gpS2pTable x).isSome := by
    have hmapped := hpaired.mapped.cleanup toRemove
    intro x
    rw [LcGrpPriv.members, hgrp, hmapped.domain x, hmapped.listed]
  have hargs : g.SecondaryArgs secRanks primRanks op ∧ g'.gpMembsVer = version := by
    rcases crtGroupSecondaryModify_cases hcall with
      ⟨hrc, _⟩ | ⟨o, _, _, _, _, ho, hargs, _, _, _, heq⟩
    · exact absurd rfl hrc
    · cases ho
      rw [if_neg (not_not.mpr rfl)] at heq
      exact ⟨hargs, by rw [heq]⟩
  refine ⟨fun x => ?_, fun hop i rank hi hnew => ?_, fun x hold hstays => ?_, hargs.2⟩
  · rw [hmem' x, hs2p x]
    by_cases hx : x ∈ g.members
    · have hold : x ∉ (g.grp.modPairs secRanks primRanks op).map Prod.fst := fun hin =>
        ((hpairs x).mp hin).2.2 hx
      rw [target_of_member hx]
      split_ifs with hin
      · exact iff_of_false Bool.false_ne_true (not_not.mpr ((hremove x).mp hin).2)
      · rw [hpaired.kept x hold]
        exact iff_of_true ((hmem x).mp hx) fun hdrops => hin ((hremove x).mpr ⟨hx, hdrops⟩)
    · rw [target_of_new hx, if_neg fun hin => hx ((hremove x).mp hin).1]
      constructor
      · intro hsome
        by_contra hno
        have hout : x ∉ (g.grp.modPairs secRanks primRanks op).map Prod.fst := fun hin =>
          hno ⟨((hpairs x).mp hin).1, ((hpairs x).mp hin).2.1⟩
        rw [hpaired.kept x hout] at hsome
        exact hx ((hmem x).mpr hsome)
      · rintro ⟨hop, hin⟩
        obtain ⟨e, he, rfl⟩ := mem_map.mp ((hpairs x).mpr ⟨hop, hin, hx⟩)
        rw [hpaired.entered e he]
        rfl
  · have hlt : i < primRanks.length := by
      rw [← hargs.1.prims hop]
      exact (List.getElem?_eq_some_iff.mp hi).1
    refine ⟨primRanks[i], getElem?_eq_getElem hlt, ?_⟩
    have hentry : (rank, primRanks.getD i 0) ∈ g.grp.modPairs secRanks primRanks op :=
      mem_map_of_mem (mem_modEntries.mpr ⟨hop, hi, hnew⟩)
    rw [hs2p rank, if_neg fun hin => hnew ((hremove rank).mp hin).1, hpaired.entered _ hentry,
      getD_eq_getElem?_getD, getElem?_eq_getElem hlt, getD_some]
  · have hnot : x ∉ (g.grp.modPairs secRanks primRanks op).map Prod.fst := fun hin =>
      ((hpairs x).mp hin).2.2 hold
    rw [hmem' x, hs2p x] at hstays
    rw [hs2p x]
    split_ifs with hin
    · rw [if_pos hin] at hstays
      cases hstays
    · exact hpaired.kept x hnot

/-- **Group modification** does what its `op` says exactly if `ModifyFits` holds; on a secondary
group it always does. -/
theorem group_modify_meaning (service : Bool) (op : GroupModOp) (version : ℕ) :
    (∀ (env : PrimaryModifyEnv) (w w' : LcGrpWorld) (ranks : List ℕ) (uris : Option (ℕ → Option Uri)),
      PrimOk False False w.prim.grp →
      (∀ rank ∈ w.prim.members, w.prim.grp.gpUriLookupCache rank = true) →
      (∀ rank ∈ ranks, rank ≠ crtNoRank) → ranks.Nodup →
      w.crtGroupPrimaryModify service env ranks uris (some op) version = .ok (0, w') →
      (PrimaryModified op ranks uris version w.prim w'.prim ↔ ModifyFits op ranks uris w.prim)) ∧
    ∀ (env : SecondaryModifyEnv) (g g' : LcGrpPriv) (prim : GrpPriv) (secRanks primRanks : List ℕ),
      Mapped prim.gpMembs.cgmLinearList g.grp → (∀ rank ∈ secRanks, rank ≠ crtNoRank) →
      g.crtGroupSecondaryModify service env prim secRanks primRanks (some op) version = .ok (0, g') →
      SecondaryModified op secRanks primRanks version g g' :=
  ⟨fun _ _ _ _ _ h hrecords hne hnodup hcall =>
      LcGrpWorld.primaryModified_iff h hne hnodup hcall hrecords,
    fun _ _ _ _ _ _ h hne hcall => secondaryModified h hne hcall⟩

/-- Memory that does not run out. -/
def easyModify : PrimaryModifyEnv := ⟨true, fun _ => easyMembs, fun _ _ => easyInsert⟩

theorem easyModify_calm : easyModify.Calm := ⟨rfl, fun _ => rfl, easy_calm.2⟩

/-- Memory that does not run out. -/
def easySecondary : SecondaryModifyEnv := ⟨true, fun _ => ⟨true, true, easyMembs⟩⟩

theorem easySecondary_calm : easySecondary.Calm := ⟨rfl, fun _ => ⟨rfl, rfl, rfl⟩⟩

/-- A view of the process and another member. -/
def twoSlots : GrpPriv :=
  { GrpPriv.crtGroupViewCreate with
    gpMembs := ⟨[], [0, 1], [0, 1]⟩, gpSize := 2, gpSelf := 0
    gpUriLookupCache := fun rank => decide (rank ∈ [0, 1]) }

/-- One of the members of a view is replaced, and a new secondary group gets both. -/
theorem group_modify_meaning_replaced :
    (∃ w', LcGrpWorld.crtGroupPrimaryModify false easyModify ⟨ofGrp twoSlots, []⟩ [1, 2]
        (some fun _ => some "tcp://a:1".toList) (some .replace) 7 = .ok (0, w') ∧
      PrimaryModified .replace [1, 2] (some fun _ => some "tcp://a:1".toList) 7 (ofGrp twoSlots) w'.prim) ∧
    ∃ g', (ofGrp .crtGroupSecondaryCreate).crtGroupSecondaryModify true easySecondary twoSlots [5, 6] [1, 0]
        (some .add) 7 = .ok (0, g') ∧
      SecondaryModified .add [5, 6] [1, 0] 7 (ofGrp .crtGroupSecondaryCreate) g' := by
  constructor
  · obtain ⟨w', hcall, _⟩ := (LcGrpWorld.crtGroupPrimaryModify_follows false easyModify
      ⟨ofGrp twoSlots, []⟩ [1, 2] (some fun _ => some "tcp://a:1".toList) .replace 7).exists_of_faultless
      easyModify_calm rfl
    have hfree : FreeSlots crtNoRank [0, 1] [] := by
      refine ⟨nodup_nil, fun i => iff_of_false not_mem_nil fun hi => ?_⟩
      exact absurd (mem_of_getElem? hi) (by decide)
    have hok : PrimOk False False twoSlots := ⟨rfl, ⟨hfree, rfl⟩, .inr rfl, False.elim, False.elim⟩
    refine ⟨w', hcall, ((group_modify_meaning _ _ _).1 _ _ _ _ _ hok ?_ (by decide) (by decide) hcall).mpr ?_⟩
    · exact fun rank hrank => decide_eq_true hrank
    · refine ⟨by decide, fun _ rank hrank => .inl hrank, fun _ array harray i rank _ hnew => ?_⟩
      cases harray
      rw [UriFits, grpLiUriGet_of_no_record (decide_eq_false hnew)]
      rintro _ ⟨⟩
      decide
  · obtain ⟨g', hcall, _⟩ := (crtGroupSecondaryModify_follows true easySecondary
      (ofGrp .crtGroupSecondaryCreate) twoSlots [5, 6] [1, 0] .add 7).exists_of_faultless
      easySecondary_calm rfl
    exact ⟨g', hcall, (group_modify_meaning _ _ _).2 _ _ _ _ _ _ (GrpWorld.mapped_create _) (by decide) hcall⟩

/-- A late reply has left a URI; and a rank that was added twice is still there after its
removal. -/
theorem group_modify_meaning_stale :
    (∃ w, (lcLts false false .crtGroupViewCreate).Reach w ∧ w.prim.members = [] ∧
      ∃ w', w.crtGroupPrimaryModify false easyModify [1] (some fun _ => some "tcp://b:1".toList)
          (some .add) 7 = .ok (0, w') ∧
        (w'.prim.crtGrpLcLookup false 0 1 0).1 = some "tcp://a:1".toList) ∧
    ∃ w, (lcLts false false .crtGroupViewCreate).Reach w ∧ w.prim.members = [1, 1] ∧
      w.prim.grp.gpUriLookupCache 1 = true ∧
      ∃ w', w.crtGroupPrimaryModify false easyModify [1] none (some .remove) 7 = .ok (0, w') ∧
        w'.prim.members = [1] := by
  constructor
  · obtain ⟨g, hg⟩ : ∃ g, (ofGrp .crtGroupViewCreate).insertUri 1 0 (some "tcp://a:1".toList) = g :=
      ⟨_, rfl⟩
    have hgrp : g.grp = GrpPriv.crtGroupViewCreate.crtGrpLcUriInsert 1 true := by
      rw [← hg, grp_insertUri]
      rfl
    have hok : PrimOk False False g.grp := by
      rw [hgrp]
      exact ⟨rfl, ⟨.nil, rfl⟩, .inl rfl, False.elim, False.elim⟩
    have hget : g.grpLiUriGet 1 0 = some "tcp://a:1".toList := by
      rw [← hg, grpLiUriGet_insertUri, if_pos ⟨rfl, rfl⟩]
      rfl
    obtain ⟨b, hb⟩ : ∃ b, GrpWorld.crtGroupPrimaryModify false (fun _ => easyAdd) ⟨g.grp, []⟩ [1]
        (some fun _ => true) .add = .ok (0, b) := by
      rw [hgrp]
      exact ⟨_, rfl⟩
    have hmembers : g.members = [] := by
      rw [LcGrpPriv.members, hgrp]
      rfl
    have hreach : (lcLts false false .crtGroupViewCreate).Reach ⟨g, []⟩ := by
      refine ⟨_, [.uriReply (fun _ => easyInsert) 0 0 1 0 (some "tcp://a:1".toList)], rfl,
        lcLts_cons ?_ (.nil _)⟩
      rw [LcGrpWorld.exec, uriReply_easy, hg]
    obtain ⟨w', hcall, _⟩ := (LcGrpWorld.crtGroupPrimaryModify_follows false easyModify ⟨g, []⟩ [1]
      (some fun _ => some "tcp://b:1".toList) .add 7).exists_of_faultless easyModify_calm hb
    refine ⟨⟨g, []⟩, hreach, hmembers, w', hcall, ?_⟩
    have hnew : 1 ∉ g.members := by
      rw [hmembers]
      exact not_mem_nil
    rw [LcGrpWorld.finds_of_modify (i := 0) hok (by decide) (by decide) hcall GroupModOp.noConfusion rfl rfl
      hnew false 0 (by decide), hget]
    rfl
  · obtain ⟨b₁, hb₁, b₂, hb₂, hmembers, hrecord, b₃, hb₃, hmembers'⟩ : ∃ b₁,
        GrpPriv.crtGroupViewCreate.crtGroupPrimaryAddInternal false easyAdd 1 true = .ok (0, b₁) ∧
        ∃ b₂, b₁.crtGroupPrimaryAddInternal false easyAdd 1 true = .ok (0, b₂) ∧
        b₂.gpMembs.cgmLinearList = [1, 1] ∧ b₂.gpUriLookupCache 1 = true ∧
        ∃ b₃, GrpWorld.crtGroupPrimaryModify false (fun _ => easyAdd) ⟨b₂, []⟩ [1] none .remove = .ok (0, b₃) ∧
          b₃.prim.gpMembs.cgmLinearList = [1] := ⟨_, rfl, _, rfl, rfl, rfl, _, rfl, rfl⟩
    obtain ⟨g₁, hadd₁, rfl⟩ :=
      exists_easy_rankAdd (ofGrp .crtGroupViewCreate) 1 "tcp://a:1".toList hb₁
    obtain ⟨g₂, hadd₂, rfl⟩ := exists_easy_rankAdd g₁ 1 "tcp://a:1".toList hb₂
    obtain ⟨w', hcall, rfl⟩ := (LcGrpWorld.crtGroupPrimaryModify_follows false easyModify ⟨g₂, []⟩ [1]
      none .remove 7).exists_of_faultless easyModify_calm hb₃
    refine ⟨⟨g₂, []⟩, ⟨_, [.rankAdd easyMembs (fun _ _ => easyInsert) 1 (some "tcp://a:1".toList),
      .rankAdd easyMembs (fun _ _ => easyInsert) 1 (some "tcp://a:1".toList)], rfl, ?_⟩, hmembers, hrecord,
      w', hcall, hmembers'⟩
    exact lcLts_cons (lcExec_rankAdd hadd₁ []) (lcLts_cons (lcExec_rankAdd hadd₂ []) (.nil _))

end Cart
