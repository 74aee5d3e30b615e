/-
What calls do to the caches of a group, and that they follow the membership model.

An insertion never writes over a URI; what comes of one that succeeds is written down without
the loop over the contexts (`uriInserted`).  For the rest of the group, a call comes to what
the call of `Cart.Group` comes to, unless it runs out of memory and returns an error.

Main results: `uriInsertLoop_spec`, `primaryInsertLoop_spec`,
`crtGroupPrimaryModify_follows`, `crtGroupSecondaryModify_follows`.
-/
import Cart.Faults
import Cart.GroupCache

open Function List Option

namespace Cart

variable {service : Bool} {op : Option GroupModOp} {rc : ℤ} {version : ℕ}

open Faults LcGrpPriv

/-- Nothing fails. -/
def LcInsertEnv.Calm (env : LcInsertEnv) : Prop := env.li = 0 ∧ env.ui = 0 ∧ env.dup = true

/-- Nothing fails. -/
def MapEnv.Calm (env : MapEnv) : Prop :=
  env.rmS2p = true ∧ env.rmP2s = true ∧ env.membs.realloc = true

/-- Nothing fails. -/
structure PrimaryModifyEnv.Calm (env : PrimaryModifyEnv) : Prop where
  modGet : env.modGet = true
  membs : ∀ i, (env.membs i).realloc = true
  lc : ∀ i ctx, (env.lc i ctx).Calm

/-- Nothing fails. -/
structure SecondaryModifyEnv.Calm (env : SecondaryModifyEnv) : Prop where
  modGet : env.modGet = true
  map : ∀ i, (env.map i).Calm

namespace LcGrpPriv

variable {g g' : LcGrpPriv} {rank tag ctx : ℕ} {uri : Option Uri}

/-! ### Insertions -/

section

variable (g : LcGrpPriv) (rank tag : ℕ) (uri : Option Uri) (ctx n : ℕ)

/-- The URI is written if there is none. -/
def putUri : LcGrpPriv :=
  match uri with
  | none => g
  | some uri => if (g.grpLiUriGet rank tag).isSome then g else g.writeUri rank tag (dStrndup uri)

/-- There is an item for the rank in each of `n` contexts from `ctx` on. -/
def fillItems : LcGrpPriv :=
  { g with gpLookupCache := fun c r =>
      if (ctx ≤ c ∧ c < ctx + n) ∧ r = rank then some ((g.gpLookupCache c r).getD fun _ => none)
      else g.gpLookupCache c r }

/-- The result of an insertion for `n` contexts from `ctx` on. -/
def uriInserted : LcGrpPriv :=
  if n = 0 then g else (g.putUri rank tag uri).fillItems rank ctx n

end

theorem ext_lookupCache {lookup : ℕ → ℕ → Option (ℕ → Option ℕ)}
    (h : ∀ c r, lookup c r = g.gpLookupCache c r) : { g with gpLookupCache := lookup } = g := by
  rw [funext fun c => funext (h c)]

theorem grpLiUriGet_of_no_record (h : g.grp.gpUriLookupCache rank = false) :
    g.grpLiUriGet rank tag = none := by
  rw [grpLiUriGet, h, if_neg Bool.false_ne_true]

section

variable (g rank tag uri)

theorem grpLiUriGet_writeUri (u : Uri) (r t : ℕ) : (g.writeUri rank tag u).grpLiUriGet r t =
      if r = rank ∧ t = tag then some u else g.grpLiUriGet r t := by
  show (if update g.grp.gpUriLookupCache rank true r then
    update g.uiUri rank (update (g.grpLiUriGet rank) tag (some u)) r t else none) = _
  by_cases hr : r = rank
  · subst hr
    rw [update_self, if_pos rfl, update_self, update_apply]
    exact if_congr ⟨fun ht => ⟨rfl, ht⟩, And.right⟩ rfl rfl
  · have hne : ¬ (r = rank ∧ t = tag) := fun h => hr h.1
    rw [update_of_ne hr, update_of_ne hr, if_neg hne]
    rfl

theorem grpLiUriGet_putUri (r t : ℕ) : (g.putUri rank tag uri).grpLiUriGet r t =
      if r = rank ∧ t = tag then (g.grpLiUriGet r t).or (uri.map dStrndup) else g.grpLiUriGet r t := by
  cases uri with
  | none =>
    rw [putUri, map_none, or_none, ite_self]
  | some u =>
    rw [putUri]
    cases hget : g.grpLiUriGet rank tag with
    | some old =>
      rw [if_pos (by rfl)]
      split_ifs with heq
      · rw [heq.1, heq.2, hget]
        rfl
      · rfl
    | none =>
      rw [if_neg (by simp), grpLiUriGet_writeUri]
      split_ifs with heq
      · rw [heq.1, heq.2, hget]
        rfl
      · rfl

theorem putUri_putUri : (g.putUri rank tag uri).putUri rank tag uri = g.putUri rank tag uri := by
  cases uri with
  | none => rfl
  | some u =>
    have hget := g.grpLiUriGet_putUri rank tag (some u) rank tag
    rw [if_pos ⟨rfl, rfl⟩] at hget
    rw [putUri, hget]
    exact if_pos (by cases g.grpLiUriGet rank tag <;> rfl)

@[simp] theorem gpLookupCache_putUri : (g.putUri rank tag uri).gpLookupCache = g.gpLookupCache := by
  cases uri with
  | none => rfl
  | some u =>
    rw [putUri]
    split
    · rfl
    · rfl

@[simp] theorem gpMembsVer_putUri : (g.putUri rank tag uri).gpMembsVer = g.gpMembsVer := by
  cases uri with
  | none => rfl
  | some u =>
    rw [putUri]
    split
    · rfl
    · rfl

theorem grp_putUri : (g.putUri rank tag uri).grp = g.grp.crtGrpLcUriInsert rank uri.isSome := by
  cases uri with
  | none => rfl
  | some u =>
    rw [putUri, GrpPriv.crtGrpLcUriInsert, isSome_some, if_pos rfl]
    split_ifs with hsome
    · have hrecord : g.grp.gpUriLookupCache rank = true := by
        by_contra hno
        rw [grpLiUriGet_of_no_record (Bool.eq_false_iff.mpr hno)] at hsome
        cases hsome
      rw [← hrecord, update_eq_self]
    · rfl

theorem putUri_fillItems (ctx n : ℕ) :
    (g.fillItems rank ctx n).putUri rank tag uri = (g.putUri rank tag uri).fillItems rank ctx n := by
  cases uri with
  | none => rfl
  | some u =>
    rw [putUri, putUri]
    have hget : (g.fillItems rank ctx n).grpLiUriGet rank tag = g.grpLiUriGet rank tag := rfl
    rw [hget]
    split
    · rfl
    · rfl

theorem fillItems_fillItems (g : LcGrpPriv) (rank ctx n m : ℕ) :
    (g.fillItems rank ctx n).fillItems rank (ctx + n) m = g.fillItems rank ctx (n + m) := by
  rw [fillItems, fillItems, fillItems]
  congr 1
  funext c r
  by_cases hr : r = rank
  · simp only [hr, and_true]
    by_cases hlow : ctx ≤ c ∧ c < ctx + n
    · rw [if_pos hlow, if_neg (by omega), if_pos (by omega)]
    · rw [if_neg hlow]
      exact if_congr (by omega) rfl rfl
  · simp only [hr, and_false, if_false]

theorem fillItems_one (g : LcGrpPriv) (ctx rank : ℕ) : g.fillItems rank ctx 1 =
      if (g.gpLookupCache ctx rank).isSome then g else g.newItem ctx rank := by
  split_ifs with hsome
  · obtain ⟨item, hitem⟩ := isSome_iff_exists.mp hsome
    refine ext_lookupCache fun c r => ?_
    split_ifs with heq
    · obtain rfl : c = ctx := by omega
      rw [heq.2, hitem]
      rfl
    · rfl
  · rw [fillItems, newItem, setItem]
    congr 1
    funext c r
    by_cases heq : c = ctx ∧ r = rank
    · rw [if_pos heq, if_pos ⟨by omega, heq.2⟩, heq.1, heq.2,
        not_isSome_iff_eq_none.mp hsome]
      rfl
    · rw [if_neg heq, if_neg fun h => heq ⟨by omega, h.2⟩]

theorem uriInserted_succ (ctx n : ℕ) :
    ((g.putUri rank tag uri).fillItems rank ctx 1).uriInserted rank tag uri (ctx + 1) n =
      g.uriInserted rank tag uri ctx (n + 1) := by
  rw [uriInserted, uriInserted, if_neg n.succ_ne_zero]
  split_ifs with hn
  · rw [hn]
  · rw [putUri_fillItems, putUri_putUri, fillItems_fillItems, Nat.add_comm 1 n]

/-- A record for a URI: it is written if there is none, unless memory fails. -/
theorem grpLiUriSet_spec (env : LcInsertEnv) (g : LcGrpPriv) (rank tag : ℕ) (u : Uri) :
    g.grpLiUriSet env rank tag u = (0, g.putUri rank tag (some u)) ∨
      ¬ env.Calm ∧ ∃ rc, rc ≠ 0 ∧ g.grpLiUriSet env rank tag u = (rc, g) := by
  rw [grpLiUriSet, putUri]
  split
  · rename_i hrecord
    have hno : ¬ (g.grpLiUriGet rank tag).isSome = true := by
      rw [grpLiUriGet_of_no_record hrecord]
      exact Bool.false_ne_true
    rw [if_neg hno]
    split
    · rename_i hui
      exact .inr ⟨fun hcalm => hui hcalm.2.1, env.ui, hui, rfl⟩
    · split_ifs with hdup
      · refine .inr ⟨fun hcalm => ?_, -derNomem, by decide, rfl⟩
        exact Bool.false_ne_true (hdup.symm.trans hcalm.2.2)
      · exact .inl rfl
  · split
    · exact .inl rfl
    · split_ifs with hdup
      · refine .inr ⟨fun hcalm => ?_, -derNomem, by decide, rfl⟩
        exact Bool.false_ne_true (hdup.symm.trans hcalm.2.2)
      · exact .inl rfl

/-- An insertion for one context goes through, or changes nothing. -/
theorem grpLcUriInsertInternalLocked_spec (env : LcInsertEnv) (g : LcGrpPriv) (ctx rank tag : ℕ)
    (uri : Option Uri) : g.grpLcUriInsertInternalLocked env ctx rank tag uri =
        (0, (g.putUri rank tag uri).fillItems rank ctx 1) ∨
      ¬ env.Calm ∧ ∃ rc, rc ≠ 0 ∧ g.grpLcUriInsertInternalLocked env ctx rank tag uri = (rc, g) := by
  rw [fillItems_one, gpLookupCache_putUri, grpLcUriInsertInternalLocked.eq_def]
  cases hitem : g.gpLookupCache ctx rank with
  | none =>
    have hno : ¬ (none : Option (ℕ → Option ℕ)).isSome = true := Bool.false_ne_true
    rw [if_neg hno]
    by_cases hli : env.li = 0
    · rw [hli]
      cases uri with
      | none => exact .inl rfl
      | some u =>
        dsimp only
        rcases g.grpLiUriSet_spec env rank tag u with hset | ⟨hcalm, rc, hrc, hset⟩
        · rw [hset]
          exact .inl rfl
        · rw [hset]
          exact .inr ⟨hcalm, rc, hrc, if_pos hrc⟩
    · refine .inr ⟨fun hcalm => hli hcalm.1, env.li, hli, ?_⟩
      cases uri with
      | none | some u => exact if_pos hli
  | some item =>
    have hsome : (some item).isSome = true := rfl
    rw [if_pos hsome]
    cases uri with
    | none => exact .inl rfl
    | some u =>
      dsimp only
      split
      · rcases g.grpLiUriSet_spec env rank tag u with hset | ⟨hcalm, rc, hrc, hset⟩
        · rw [hset]
          exact .inl rfl
        · rw [hset]
          exact .inr ⟨hcalm, -derNomem, by decide, if_pos hrc⟩
      · rename_i hsome
        rw [isNone_iff_eq_none, ← ne_eq, ne_none_iff_isSome] at hsome
        rw [putUri, if_pos hsome]
        exact .inl rfl

/-- An insertion for several contexts goes through, or stops at one of them. -/
theorem uriInsertLoop_spec (env : ℕ → LcInsertEnv) (rank tag : ℕ) (uri : Option Uri) (n : ℕ) :
    ∀ (ctx : ℕ) (g : LcGrpPriv),
      uriInsertLoop env rank tag uri n ctx g = (0, g.uriInserted rank tag uri ctx n) ∨
      (∃ c, ¬ (env c).Calm) ∧ ∃ rc k, rc ≠ 0 ∧
        uriInsertLoop env rank tag uri n ctx g = (rc, g.uriInserted rank tag uri ctx k) := by
  induction n with
  | zero => exact fun ctx g => .inl rfl
  | succ n ih =>
    intro ctx g
    rw [uriInsertLoop]
    rcases g.grpLcUriInsertInternalLocked_spec (env ctx) ctx rank tag uri with
      hone | ⟨hcalm, rc, hrc, hone⟩
    · rw [hone]
      simp only [ne_eq, not_true_eq_false, if_false]
      rcases ih (ctx + 1) ((g.putUri rank tag uri).fillItems rank ctx 1) with
        hrest | ⟨hcalm, rc, k, hrc, hrest⟩
      · rw [hrest, uriInserted_succ]
        exact .inl rfl
      · rw [hrest, uriInserted_succ]
        exact .inr ⟨hcalm, rc, k + 1, hrc, rfl⟩
    · rw [hone]
      refine .inr ⟨⟨ctx, hcalm⟩, rc, 0, hrc, ?_⟩
      exact if_pos hrc

/-- The insertion for all contexts. -/
def insertUri (g : LcGrpPriv) (rank tag : ℕ) (uri : Option Uri) : LcGrpPriv :=
  g.uriInserted rank tag uri 0 crtSrvContextNum

theorem insertUri_eq :
    g.insertUri rank tag uri = (g.putUri rank tag uri).fillItems rank 0 crtSrvContextNum := by
  rw [insertUri, uriInserted, if_neg (by decide)]

theorem insertUri_insertUri :
    (g.insertUri rank tag uri).insertUri rank tag uri = g.insertUri rank tag uri := by
  rw [insertUri_eq, insertUri_eq, putUri_fillItems, putUri_putUri]
  refine ext_lookupCache fun c r => ?_
  rw [fillItems]
  dsimp only
  split
  · rfl
  · rfl

theorem grp_insertUri :
    (g.insertUri rank tag uri).grp = g.grp.crtGrpLcUriInsert rank uri.isSome := by
  rw [insertUri_eq]
  exact g.grp_putUri rank tag uri

theorem grpLiUriGet_insertUri (r t : ℕ) : (g.insertUri rank tag uri).grpLiUriGet r t =
      if r = rank ∧ t = tag then (g.grpLiUriGet r t).or (uri.map dStrndup) else g.grpLiUriGet r t := by
  rw [insertUri_eq]
  exact g.grpLiUriGet_putUri rank tag uri r t

theorem gpLookupCache_insertUri (c r : ℕ) : (g.insertUri rank tag uri).gpLookupCache c r =
      if c < crtSrvContextNum ∧ r = rank then some ((g.gpLookupCache c r).getD fun _ => none)
      else g.gpLookupCache c r := by
  rw [insertUri_eq, fillItems]
  rw [gpLookupCache_putUri]
  exact if_congr (by simp) rfl rfl

end

theorem primaryInsertLoop_spec (env : ℕ → ℕ → LcInsertEnv) (rank : ℕ) (uri : Option Uri) {n : ℕ}
    (hn : n ≠ 0) (i : ℕ) (g : LcGrpPriv) :
    primaryInsertLoop env rank 0 uri n i g = (0, g.insertUri rank 0 uri) ∨
      (∃ i c, ¬ (env i c).Calm) ∧ ∃ rc g', rc ≠ 0 ∧ primaryInsertLoop env rank 0 uri n i g = (rc, g') := by
  induction n generalizing i g with
  | zero => exact absurd rfl hn
  | succ n ih =>
    rw [primaryInsertLoop, crtGrpLcUriInsert, if_neg (by decide)]
    rcases uriInsertLoop_spec (env i) rank 0 uri crtSrvContextNum 0 g with
      hok | ⟨⟨c, hcalm⟩, rc, k, hrc, hfail⟩
    · rw [hok]
      simp only [ne_eq, not_true_eq_false, if_false]
      by_cases hlast : n = 0
      · rw [hlast]
        exact .inl rfl
      · have hrest := ih hlast (i + 1) (g.insertUri rank 0 uri)
        rwa [insertUri_insertUri] at hrest
    · rw [hfail]
      exact .inr ⟨⟨i, c, hcalm⟩, rc, _, hrc, if_pos hrc⟩

/-- What a lookup finds after an insertion: the URI that was there, or else the new one. -/
theorem crtGrpLcLookup_insertUri (shareNa : Bool) (g : LcGrpPriv) (rank : ℕ) (uri : Option Uri)
    (hctx : ctx < crtSrvContextNum) :
    ((g.insertUri rank 0 uri).crtGrpLcLookup shareNa ctx rank 0).1 =
      (g.grpLiUriGet rank 0).or (uri.map dStrndup) := by
  rw [crtGrpLcLookup, gpLookupCache_insertUri, if_pos ⟨hctx, rfl⟩]
  rw [ite_self, grpLiUriGet_insertUri, if_pos ⟨rfl, rfl⟩]

/-! ### Removals -/

section

variable (g : LcGrpPriv) (rank : ℕ)

theorem foldl_crtGrpLcUriRemove (n : ℕ) (g : LcGrpPriv) :
    (range n).foldl (fun g ctx => g.crtGrpLcUriRemove ctx rank) g =
      { g with gpLookupCache := fun c r =>
          if c < n ∧ r = rank then none else g.gpLookupCache c r } := by
  induction n with
  | zero =>
    refine (ext_lookupCache fun c r => ?_).symm
    exact if_neg fun h => absurd h.1 (Nat.not_lt_zero c)
  | succ n ih =>
    rw [range_succ, foldl_append, ih, foldl_cons, foldl_nil, crtGrpLcUriRemove,
      setItem]
    congr 1
    funext c r
    by_cases hr : r = rank
    · simp only [hr, and_true]
      by_cases hc : c = n
      · rw [if_pos hc, if_pos (by omega)]
      · rw [if_neg hc]
        exact if_congr (by omega) rfl rfl
    · simp only [hr, and_false, if_false]

/-- A removal is that of the membership model, and takes the items of the rank too. -/
theorem crtGroupRankRemoveInternal_eq :
    g.crtGroupRankRemoveInternal rank = ((g.grp.crtGroupRankRemoveInternal rank).1,
      { g with
        grp := (g.grp.crtGroupRankRemoveInternal rank).2
        gpLookupCache := fun c r =>
          if (g.grp.gpPrimary ∧ (g.grp.crtGroupRankRemoveInternal rank).1 = 0) ∧
              c < crtSrvContextNum ∧ r = rank then none
          else g.gpLookupCache c r }) := by
  rw [crtGroupRankRemoveInternal]
  dsimp only
  split_ifs with hremoved
  · rw [foldl_crtGrpLcUriRemove]
    simp only [hremoved, true_and]
  · simp only [hremoved, false_and, if_false]

@[simp] theorem grp_removeInternal :
    (g.crtGroupRankRemoveInternal rank).2.grp = (g.grp.crtGroupRankRemoveInternal rank).2 := by
  rw [crtGroupRankRemoveInternal_eq]

@[simp] theorem gpMembsVer_removeInternal :
    (g.crtGroupRankRemoveInternal rank).2.gpMembsVer = g.gpMembsVer := by
  rw [crtGroupRankRemoveInternal_eq]

@[simp] theorem grp_cleanup (ranks : List ℕ) : (g.cleanup ranks).grp = g.grp.cleanup ranks := by
  induction ranks generalizing g with
  | nil => rfl
  | cons rank ranks ih =>
    have hrest := ih (g.crtGroupRankRemoveInternal rank).2
    rwa [grp_removeInternal] at hrest

@[simp] theorem gpMembsVer_cleanup (ranks : List ℕ) :
    (g.cleanup ranks).gpMembsVer = g.gpMembsVer := by
  induction ranks generalizing g with
  | nil => rfl
  | cons rank ranks ih => exact (ih _).trans (g.gpMembsVer_removeInternal rank)

@[simp] theorem grp_removePrimary : (g.removePrimary rank).grp = g.grp.removePrimary rank := by
  rw [removePrimary, GrpPriv.removePrimary]
  cases g.grp.gpP2sTable rank with
  | none => rfl
  | some secRank => exact g.grp_removeInternal secRank

end

/-! ### The membership model -/

theorem grpAddToMembsList_follows (service : Bool) (env : MembsEnv) (g : LcGrpPriv) (rank : ℕ) :
    Follows (env.realloc = true) grp (g.grpAddToMembsList service env rank)
      (g.grp.grpAddToMembsList service env.swim rank) := by
  rw [grpAddToMembsList]
  split_ifs with hfull
  · refine .fault g (fun hcalm => ?_) (by decide : -derNomem ≠ 0)
    exact Bool.false_ne_true (hfull.2.symm.trans hcalm)
  · cases g.grp.grpAddToMembsList service env.swim rank with
    | error stop => exact .stop stop
    | ok r => exact .inl rfl

theorem grpAddToMembsList_frame {env : MembsEnv}
    (h : g.grpAddToMembsList service env rank = .ok (rc, g')) : g' = { g with grp := g'.grp } := by
  rw [grpAddToMembsList] at h
  split at h
  · cases h
    rfl
  · cases hcall : g.grp.grpAddToMembsList service env.swim rank with
    | error stop =>
      rw [hcall] at h
      cases h
    | ok r =>
      rw [hcall] at h
      cases h
      rfl

theorem crtGroupPrimaryRankAdd_follows (service : Bool) (env : MembsEnv) (lc : ℕ → ℕ → LcInsertEnv)
    (g : LcGrpPriv) (rank : ℕ) (uri : Option Uri) :
    Follows (env.realloc = true ∧ ∀ i ctx, (lc i ctx).Calm) grp
      (g.crtGroupPrimaryRankAdd service env lc rank uri)
      (g.grp.crtGroupPrimaryAddInternal service env.swim rank uri.isSome) := by
  rw [crtGroupPrimaryRankAdd, crtGroupPrimaryAddInternal, GrpPriv.crtGroupPrimaryAddInternal]
  by_cases hprimary : g.grp.gpPrimary = false
  · simp only [if_pos hprimary]
    exact .same _ g
  · simp only [if_neg hprimary]
    rcases primaryInsertLoop_spec lc rank uri (by decide : crtSrvContextNum ≠ 0) 0 g with
      hok | ⟨⟨i, c, hcalm⟩, rc, g', hrc, hfail⟩
    · rw [hok, ← g.grp_insertUri rank 0 uri]
      exact (grpAddToMembsList_follows service env _ rank).mono And.left
    · rw [hfail]
      rw [if_pos hrc]
      exact .fault _ (fun h => hcalm (h.2 i c)) hrc

theorem modifyAdd_follows (service : Bool) (env : PrimaryModifyEnv) (uris : ℕ → Option Uri)
    (toAdd : List (ℕ × ℕ)) : ∀ (added : List ℕ) (g : LcGrpPriv),
      Follows env.Calm (Prod.map id grp) (g.modifyAdd service env uris toAdd added)
        (g.grp.modifyAdd service (fun i => (env.membs i).swim) (fun i => (uris i).isSome) toAdd added) := by
  induction toAdd with
  | nil => exact fun added g => .same 0 (added, g)
  | cons entry toAdd ih =>
    obtain ⟨rank, i⟩ := entry
    intro added g
    rw [modifyAdd, GrpPriv.modifyAdd]
    have hadd := (grpAddToMembsList_follows service (env.membs i) g rank).mono
      (fun hcalm : env.Calm => hcalm.membs i)
    refine hadd.andThen (fun rc g hrc => ⟨(added, g), if_pos hrc, if_pos hrc⟩) fun g₁ _ => ?_
    dsimp only
    rw [if_neg (not_not.mpr rfl), if_neg (not_not.mpr rfl)]
    rcases uriInsertLoop_spec (env.lc i) rank 0 (uris i) crtSrvContextNum 0 g₁ with
      hok | ⟨⟨c, hcalm⟩, rc, k, hrc, hfail⟩
    · rw [hok, ← g₁.grp_insertUri rank 0 (uris i)]
      exact ih (added ++ [rank]) (g₁.insertUri rank 0 (uris i))
    · rw [hfail]
      rw [if_pos hrc]
      exact .fault _ (fun h => hcalm (h.lc i c)) hrc

theorem crtGroupSecondaryRankAddInternal_follows (service : Bool) (env : MapEnv) (g : LcGrpPriv)
    (prim : GrpPriv) (secRank primRank : ℕ) : Follows env.Calm grp
      (g.crtGroupSecondaryRankAddInternal service env prim secRank primRank)
      (g.grp.crtGroupSecondaryRankAddInternal service env.membs.swim prim secRank primRank) := by
  rw [crtGroupSecondaryRankAddInternal, GrpPriv.crtGroupSecondaryRankAddInternal]
  split
  · exact .same _ g
  · split
    · exact .stop _
    · have hself : (if primRank = prim.gpSelf then { g.grp with gpSelf := secRank } else g.grp) =
          (if primRank = prim.gpSelf then { g with grp := { g.grp with gpSelf := secRank } } else g).grp := by
        split
        · rfl
        · rfl
      rw [hself]
      generalize (if primRank = prim.gpSelf then { g with grp := { g.grp with gpSelf := secRank } } else g) = g₁
      refine .guard fun _ => .pass (fun hcalm => ne_false_of_eq_true hcalm.1) (by decide)
        (.pass (fun hcalm => ne_false_of_eq_true hcalm.2.1) (by decide) (.guard fun _ => ?_))
      have hadd := (grpAddToMembsList_follows service env.membs
        { g₁ with grp := g₁.grp.mapRank secRank primRank } secRank).mono
        (fun hcalm : env.Calm => hcalm.2.2)
      exact hadd.andThen (fun rc g hrc => ⟨_, if_pos hrc, if_pos hrc⟩) fun g₂ _ => .same 0 g₂

theorem secondaryModifyAdd_follows (service : Bool) (env : SecondaryModifyEnv) (prim : GrpPriv)
    (primRanks : List ℕ) (toAdd : List (ℕ × ℕ)) : ∀ (added : List ℕ) (g : LcGrpPriv),
      Follows env.Calm (Prod.map id grp)
        (secondaryModifyAdd service env prim primRanks toAdd added g)
        (GrpPriv.secondaryModifyAdd service (fun i => (env.map i).membs.swim) prim primRanks toAdd
          added g.grp) := by
  induction toAdd with
  | nil => exact fun added g => .same 0 (added, g)
  | cons entry toAdd ih =>
    obtain ⟨rank, i⟩ := entry
    intro added g
    rw [secondaryModifyAdd, GrpPriv.secondaryModifyAdd]
    have hadd := (crtGroupSecondaryRankAddInternal_follows service (env.map i) g prim rank
      (primRanks.getD i 0)).mono (fun hcalm : env.Calm => hcalm.map i)
    refine hadd.andThen (fun rc g hrc => ⟨(added, g), if_pos hrc, if_pos hrc⟩) fun g₁ _ => ?_
    exact ih (added ++ [rank]) g₁

/-- The arguments of `crt_group_secondary_modify` are accepted. -/
structure SecondaryArgs (g : LcGrpPriv) (secRanks primRanks : List ℕ) (op : GroupModOp) : Prop where
  secondary : g.grp.gpPrimary = false
  ranks : secRanks ≠ []
  prims : op ≠ .remove → secRanks.length = primRanks.length

/-- A modification is refused, or it comes to its additions. -/
theorem crtGroupSecondaryModify_cases {env : SecondaryModifyEnv} {prim : GrpPriv}
    {secRanks primRanks : List ℕ}
    (hcall : g.crtGroupSecondaryModify service env prim secRanks primRanks op version = .ok (rc, g')) :
    (rc ≠ 0 ∧ g' = g ∧ ∀ o, op = some o → g.SecondaryArgs secRanks primRanks o → env.modGet = false) ∨
    ∃ o toAdd toRemove added g₁, op = some o ∧ g.SecondaryArgs secRanks primRanks o ∧
      env.modGet = true ∧
      crtGroupModGet g.grp.gpMembs.cgmLinearList secRanks o = .ok (toAdd, toRemove) ∧
      secondaryModifyAdd service env prim primRanks toAdd [] g = .ok (rc, added, g₁) ∧
      g' = if rc ≠ 0 then g₁.cleanup added else { g₁.cleanup toRemove with gpMembsVer := version } := by
  rw [crtGroupSecondaryModify.eq_def] at hcall
  rcases guard_cases hcall with ⟨hprimary, rfl, rfl⟩ | ⟨hprimary, hcall⟩
  · exact .inl ⟨by decide, rfl, fun o _ hargs =>
      absurd (hprimary.symm.trans hargs.secondary) Bool.noConfusion⟩
  cases op with
  | none =>
    cases hcall
    exact .inl ⟨by decide, rfl, fun o ho => by cases ho⟩
  | some o =>
    rcases guard_cases hcall with ⟨hnil, rfl, rfl⟩ | ⟨hranks, hcall⟩
    · exact .inl ⟨by decide, rfl, fun _ _ hargs => absurd hnil hargs.ranks⟩
    rcases guard_cases hcall with ⟨hprims, rfl, rfl⟩ | ⟨_, hcall⟩
    · refine .inl ⟨by decide, rfl, ?_⟩
      rintro _ ⟨⟩ hargs
      have hlen := hargs.prims hprims.1
      rw [hprims.2, length_nil] at hlen
      exact absurd (length_eq_zero_iff.mp hlen) hranks
    rcases guard_cases hcall with ⟨hlen, rfl, rfl⟩ | ⟨hlen, hcall⟩
    · refine .inl ⟨by decide, rfl, ?_⟩
      rintro _ ⟨⟩ hargs
      exact absurd (hargs.prims hlen.1) hlen.2
    rcases guard_cases hcall with ⟨hget, rfl, rfl⟩ | ⟨hget, hcall⟩
    · exact .inl ⟨by decide, rfl, fun _ _ _ => hget⟩
    obtain ⟨⟨toAdd, toRemove⟩, hlists, hcall⟩ := exists_of_bind_eq_ok hcall
    obtain ⟨⟨rc₁, added, g₁⟩, hadd, hcall⟩ := exists_of_bind_eq_ok hcall
    refine .inr ⟨o, toAdd, toRemove, added, g₁, rfl, ⟨Bool.eq_false_iff.mpr hprimary, hranks,
      fun hop => not_not.mp fun hne => hlen ⟨hop, hne⟩⟩, Bool.eq_true_of_not_eq_false hget, hlists, ?_⟩
    rcases guard_cases hcall with ⟨hrc, rfl, rfl⟩ | ⟨hrc, hcall⟩
    · exact ⟨hadd, (if_pos hrc).symm⟩
    · cases hcall
      rw [not_not.mp hrc] at hadd
      exact ⟨hadd, rfl⟩

theorem crtGroupSecondaryModify_follows (service : Bool) (env : SecondaryModifyEnv) (g : LcGrpPriv)
    (prim : GrpPriv) (secRanks primRanks : List ℕ) (op : GroupModOp) (version : ℕ) :
    Follows env.Calm grp
      (g.crtGroupSecondaryModify service env prim secRanks primRanks (some op) version)
      (g.grp.crtGroupSecondaryModify service (fun i => (env.map i).membs.swim) prim secRanks primRanks
        op) := by
  rw [crtGroupSecondaryModify, GrpPriv.crtGroupSecondaryModify]
  refine .guard fun _ => .guard fun _ => .guard fun _ => .guard fun _ => .pass
    (fun hcalm => ne_false_of_eq_true hcalm.modGet) (by decide) ?_
  cases crtGroupModGet g.grp.gpMembs.cgmLinearList secRanks op with
  | error stop => exact .stop stop
  | ok lists =>
    obtain ⟨toAdd, toRemove⟩ := lists
    refine (secondaryModifyAdd_follows service env prim primRanks toAdd [] g).andThen
      (fun rc result hrc => ⟨result.2.cleanup result.1, if_pos hrc, ?_⟩) fun result _ => .inl ?_
    · rw [grp_cleanup]
      exact if_pos hrc
    · show Except.ok (0, (result.2.cleanup toRemove).grp) = _
      rw [grp_cleanup]
      rfl

end LcGrpPriv

namespace LcGrpWorld

/-- The groups without their caches. -/
def toGrpWorld (w : LcGrpWorld) : GrpWorld := ⟨w.prim.grp, w.secs.map grp⟩

theorem toGrpWorld_modifyRemove (service : Bool) (w : LcGrpWorld) (rank : ℕ) :
    (w.modifyRemove service rank).toGrpWorld = w.toGrpWorld.modifyRemove service rank := by
  have hsecs : (w.secs.map (removePrimary rank)).map grp =
      (w.secs.map grp).map (GrpPriv.removePrimary rank) := by
    rw [List.map_map, List.map_map]
    exact map_congr_left fun sec _ => sec.grp_removePrimary rank
  show GrpWorld.mk ((w.prim.crtGroupRankRemoveInternal rank).2.grp.crtSwimRankDel service rank)
    ((w.secs.map (removePrimary rank)).map grp) = _
  rw [hsecs, grp_removeInternal]
  rfl

theorem toGrpWorld_foldl_modifyRemove (service : Bool) (ranks : List ℕ) (w : LcGrpWorld) :
    (ranks.foldl (modifyRemove service) w).toGrpWorld =
      ranks.foldl (GrpWorld.modifyRemove service) w.toGrpWorld := by
  induction ranks generalizing w with
  | nil => rfl
  | cons rank ranks ih =>
    rw [foldl_cons, foldl_cons, ih, toGrpWorld_modifyRemove]

/-- The arguments of `crt_group_primary_modify` are accepted. -/
structure PrimaryArgs (w : LcGrpWorld) (ranks : List ℕ) (uris : Option (ℕ → Option Uri))
    (op : GroupModOp) : Prop where
  primary : w.prim.grp.gpPrimary = true
  ranks : ranks ≠ []
  uris : op ≠ .remove → uris.isSome

/-- A modification is refused, or it comes to its additions. -/
theorem crtGroupPrimaryModify_cases {w w' : LcGrpWorld} {env : PrimaryModifyEnv}
    {ranks : List ℕ} {uris : Option (ℕ → Option Uri)}
    (hcall : w.crtGroupPrimaryModify service env ranks uris op version = .ok (rc, w')) :
    (rc ≠ 0 ∧ w' = w ∧ ∀ o, op = some o → w.PrimaryArgs ranks uris o → env.modGet = false) ∨
    ∃ o toAdd toRemove added prim, op = some o ∧ w.PrimaryArgs ranks uris o ∧ env.modGet = true ∧
      crtGroupModGet w.prim.grp.gpMembs.cgmLinearList ranks o = .ok (toAdd, toRemove) ∧
      w.prim.modifyAdd service env (uris.getD fun _ => none) toAdd [] = .ok (rc, added, prim) ∧
      (rc ≠ 0 ∧ w' = { w with prim := prim.cleanup added } ∨
        rc = 0 ∧ w'.prim = { (toRemove.foldl (modifyRemove service) { w with prim := prim }).prim with
          gpMembsVer := version }) := by
  rw [crtGroupPrimaryModify.eq_def] at hcall
  rcases guard_cases hcall with ⟨hprimary, rfl, rfl⟩ | ⟨hprimary, hcall⟩
  · exact .inl ⟨by decide, rfl, fun o _ hargs =>
      absurd (hprimary.symm.trans hargs.primary) Bool.noConfusion⟩
  cases op with
  | none =>
    cases hcall
    exact .inl ⟨by decide, rfl, fun o ho => by cases ho⟩
  | some o =>
    rcases guard_cases hcall with ⟨hnil, rfl, rfl⟩ | ⟨hranks, hcall⟩
    · exact .inl ⟨by decide, rfl, fun _ _ hargs => absurd hnil hargs.ranks⟩
    rcases guard_cases hcall with ⟨huris, rfl, rfl⟩ | ⟨huris, hcall⟩
    · refine .inl ⟨by decide, rfl, ?_⟩
      rintro _ ⟨⟩ hargs
      have hsome := hargs.uris huris.1
      rw [isNone_iff_eq_none.mp huris.2] at hsome
      cases hsome
    rcases guard_cases hcall with ⟨hget, rfl, rfl⟩ | ⟨hget, hcall⟩
    · exact .inl ⟨by decide, rfl, fun _ _ _ => hget⟩
    obtain ⟨⟨toAdd, toRemove⟩, hlists, hcall⟩ := exists_of_bind_eq_ok hcall
    obtain ⟨⟨rc₁, added, prim⟩, hadd, hcall⟩ := exists_of_bind_eq_ok hcall
    refine .inr ⟨o, toAdd, toRemove, added, prim, rfl,
      ⟨Bool.eq_true_of_not_eq_false hprimary, hranks, fun hop => ?_⟩,
      Bool.eq_true_of_not_eq_false hget, hlists, ?_⟩
    · exact isSome_iff_ne_none.mpr fun hnone => huris ⟨hop, by rw [hnone]; rfl⟩
    · rcases guard_cases hcall with ⟨hrc, rfl, rfl⟩ | ⟨hrc, hcall⟩
      · exact ⟨hadd, .inl ⟨hrc, rfl⟩⟩
      · cases hcall
        rw [not_not.mp hrc] at hadd
        exact ⟨hadd, .inr ⟨rfl, rfl⟩⟩

theorem crtGroupPrimaryModify_follows (service : Bool) (env : PrimaryModifyEnv) (w : LcGrpWorld)
    (ranks : List ℕ) (uris : Option (ℕ → Option Uri)) (op : GroupModOp) (version : ℕ) :
    Follows env.Calm toGrpWorld (w.crtGroupPrimaryModify service env ranks uris (some op) version)
      (w.toGrpWorld.crtGroupPrimaryModify service (fun i => (env.membs i).swim) ranks
        (uris.map fun uris i => (uris i).isSome) op) := by
  rw [crtGroupPrimaryModify, GrpWorld.crtGroupPrimaryModify, isNone_map]
  have hprim : w.toGrpWorld.prim = w.prim.grp := rfl
  have huris : ((uris.map fun uris i => (uris i).isSome).getD fun _ => false) =
      fun i => ((uris.getD fun _ => none) i).isSome := by
    cases uris with
    | none | some uris => rfl
  rw [hprim, huris]
  refine .guard fun _ => .guard fun _ => .guard fun _ => .pass
    (fun hcalm => ne_false_of_eq_true hcalm.modGet) (by decide) ?_
  cases crtGroupModGet w.prim.grp.gpMembs.cgmLinearList ranks op with
  | error stop => exact .stop stop
  | ok lists =>
    obtain ⟨toAdd, toRemove⟩ := lists
    refine (modifyAdd_follows service env (uris.getD fun _ => none) toAdd [] w.prim).andThen
      (fun rc result hrc => ⟨{ w with prim := result.2.cleanup result.1 }, if_pos hrc, ?_⟩)
      fun result _ => .inl ?_
    · have hprim' : ({ w with prim := result.2.cleanup result.1 } : LcGrpWorld).toGrpWorld =
          ⟨result.2.grp.cleanup result.1, w.secs.map grp⟩ := by
        rw [toGrpWorld, grp_cleanup]
      rw [hprim']
      exact if_pos hrc
    · have hrest := toGrpWorld_foldl_modifyRemove service toRemove { w with prim := result.2 }
      exact congrArg (fun w' => Except.ok ((0 : ℤ), w')) hrest

end LcGrpWorld

end Cart
