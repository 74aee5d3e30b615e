/-
Modifications of a primary group that fail.

When one of the additions of a modification fails, those before it are taken back, but SWIM
keeps the ranks, and a rank whose URI could not be inserted stays in the list.

Main results: `JoinOutcome`, `Grown`, `Grown.not_unchanged`, `primary_modify_atomic`.
-/
import Cart.GroupModify
import Cart.GroupSwim
import Cart.GroupUndo

open Function List Option

namespace Cart

open Faults GrpPriv

variable {rank : ℕ} {g g' g'' : LcGrpPriv} {rc : ℤ}
open CrtSwimMembs (RankAddEnv)

namespace LcGrpPriv

variable {env : MembsEnv}

/-! ### One addition -/

/-- An addition to the membership list fails. -/
def Refuses (g : LcGrpPriv) (env : MembsEnv) (rank : ℕ) : Prop :=
  (g.grp.gpMembs.cgmFreeIndices = [] ∧ env.realloc = false) ∨
  SwimRefuses env.swim g.grp.gpSelf g.grp.gpMembsSwim.csmHead rank

/-- The slots may have grown, but what is in them has not. -/
structure Kept (g g' : GrpPriv) : Prop where
  same : g.SameBut g'
  occupied : g'.occupied = g.occupied
  size : g'.gpSize = g.gpSize
  ring : g'.gpMembsSwim.csmHead = g.gpMembsSwim.csmHead
  listed : g.Listed → g.gpSize = g.occupied.length → g'.Listed

/-- A rank has come into a slot and, but for that of the process, into the ring. -/
structure Joins (rank : ℕ) (g g' : GrpPriv) : Prop where
  same : g.SameBut g'
  slot : ∃ index membs, Opened g.gpMembs index membs ∧
    g'.gpMembs.cgmFreeIndices = membs.cgmFreeIndices ∧
    g'.gpMembs.cgmList = membs.cgmList.set index rank
  size : g'.gpSize = g.gpSize + 1
  own : g.gpSelf ≠ crtNoRank
  same_ring : rank = g.gpSelf ∧ g.gpMembsSwim.csmHead ≠ [] →
    g'.gpMembsSwim.csmHead = g.gpMembsSwim.csmHead
  ring : ¬ (rank = g.gpSelf ∧ g.gpMembsSwim.csmHead ≠ []) →
    g.gpMembsSwim.csmHead.length < g'.gpMembsSwim.csmHead.length

/-- What comes of `grp_add_to_membs_list` on the primary group of a service. -/
inductive JoinOutcome (env : MembsEnv) (rank : ℕ) (g : LcGrpPriv) : ℤ → LcGrpPriv → Prop
  | refused {rc : ℤ} {grp : GrpPriv} (hrc : rc ≠ 0) (hrefuses : g.Refuses env rank)
      (hkept : Kept g.grp grp) : JoinOutcome env rank g rc { g with grp := grp }
  | joined {grp : GrpPriv} (hnot : ¬ g.Refuses env rank) (hjoins : Joins rank g.grp grp) :
      JoinOutcome env rank g 0 { g with grp := grp }

theorem Kept.refl (g : GrpPriv) : Kept g g := ⟨.refl g, rfl, rfl, rfl, fun h _ => h⟩

theorem joinOutcome_of_grpAddToMembsList (hswim : (g.grp.gpPrimary && !g.grp.gpView) = true)
    (hcall : g.grpAddToMembsList true env rank = .ok (rc, g')) : JoinOutcome env rank g rc g' := by
  rw [grpAddToMembsList] at hcall
  split_ifs at hcall with hroom
  · cases hcall
    exact .refused (by decide) (.inl hroom) (.refl g.grp)
  · obtain ⟨⟨rc₁, grp⟩, hadd, hcall⟩ := exists_of_bind_eq_ok hcall
    cases hcall
    have hsame := sameBut_grpAddToMembsList hadd
    have hring := gpMembsSwim_grpAddToMembsList hswim hadd
    obtain ⟨index, membs, hopen, hr⟩ := opened_of_grpAddToMembsList hadd
    rw [grpAddAt, if_pos hswim] at hr
    dsimp only at hr
    rcases CrtSwimMembs.crtSwimRankAdd_cases env.swim g.grp.gpSelf g.grp.gpMembsSwim rank with
      ⟨hrefuses, hne, hhead⟩ | ⟨hrefuses, hzero, hperm, hself⟩
    · rw [if_pos (by exact hne)] at hr
      obtain ⟨rfl, hgrp⟩ := Prod.mk.inj hr
      refine .refused hne (.inr hrefuses) ⟨hsame, ?_, ?_, ?_, fun _ hsize => ?_⟩
      · rw [hgrp]
        exact hopen.occupied
      · rw [hgrp]
        rfl
      · rw [hring]
        exact hhead
      · rw [hgrp]
        exact grpRegenLinearList_listed (hsize.trans (congrArg List.length hopen.occupied.symm))
    · have hown : g.grp.gpSelf ≠ crtNoRank := fun hown => hrefuses (.inl hown)
      rw [if_neg (by exact not_not.mpr hzero)] at hr
      obtain ⟨rfl, hgrp⟩ := Prod.mk.inj hr
      refine .joined (fun hor => hor.elim hroom hrefuses)
        ⟨hsame, ⟨index, membs, hopen, ?_⟩, ?_, hown, fun hback => ?_, fun hother => ?_⟩
      · rw [hgrp]
        exact ⟨rfl, rfl⟩
      · rw [hgrp]
        rfl
      · rw [hring]
        exact hself hback.1 hback.2
      · rw [hring, hperm.length_eq, ringAfter]
        split
        · rename_i hnil
          rw [hnil]
          split
          · exact zero_lt_one
          · exact zero_lt_two
        · rename_i hne
          rw [if_neg fun heq => hother ⟨heq, hne⟩]
          exact Nat.lt_succ_self _

/-- The first addition of a modification, and the insertion of its URI. -/
theorem modifyAdd_cons_cases {env : PrimaryModifyEnv} {uris : ℕ → Option Uri} {i : ℕ}
    {rest : List (ℕ × ℕ)} {added added' : List ℕ} (hswim : (g.grp.gpPrimary && !g.grp.gpView) = true)
    (hcall : modifyAdd true env uris ((rank, i) :: rest) added g = .ok (rc, added', g')) :
    (∃ grp, rc ≠ 0 ∧ added' = added ∧ g' = { g with grp := grp } ∧ g.Refuses (env.membs i) rank ∧
      Kept g.grp grp) ∨
    ∃ grp, ¬ g.Refuses (env.membs i) rank ∧ Joins rank g.grp grp ∧
      (rc ≠ 0 ∧ added' = added ∧
          (uriInsertLoop (env.lc i) rank 0 (uris i) crtSrvContextNum 0 { g with grp := grp }).1 ≠ 0 ∧
          (∃ k, g' = { g with grp := grp }.uriInserted rank 0 (uris i) 0 k) ∨
        (uriInsertLoop (env.lc i) rank 0 (uris i) crtSrvContextNum 0 { g with grp := grp }).1 = 0 ∧
        modifyAdd true env uris rest (added ++ [rank])
          ({ g with grp := grp }.insertUri rank 0 (uris i)) = .ok (rc, added', g')) := by
  rw [modifyAdd] at hcall
  obtain ⟨⟨rc₁, g₁⟩, hadd, hcall⟩ := exists_of_bind_eq_ok hcall
  dsimp only at hcall
  split at hcall
  · rename_i hrc
    cases hcall
    cases joinOutcome_of_grpAddToMembsList hswim hadd with
    | refused _ hrefuses hkept => exact .inl ⟨_, hrc, rfl, rfl, hrefuses, hkept⟩
    | joined => exact absurd rfl hrc
  · rename_i hrc
    cases joinOutcome_of_grpAddToMembsList hswim hadd with
    | refused hne => exact absurd hne hrc
    | joined hnot hjoins =>
      refine .inr ⟨_, hnot, hjoins, ?_⟩
      rcases uriInsertLoop_spec (env.lc i) rank 0 (uris i) crtSrvContextNum 0 _ with
        hloop | ⟨_, rc₂, k, hrc₂, hloop⟩
      · rw [hloop] at hcall
        exact .inr ⟨by rw [hloop], hcall⟩
      · rw [hloop, if_pos (by exact hrc₂)] at hcall
        cases hcall
        exact .inl ⟨hrc₂, rfl, by rwa [hloop], k, rfl⟩

/-! ### Several additions -/

/-- What a modification that fails should leave as it was. -/
structure PrimaryUnchanged (g g' : LcGrpPriv) : Prop where
  members : g'.grp.gpMembs.cgmLinearList = g.grp.gpMembs.cgmLinearList
  size : g'.grp.gpSize = g.grp.gpSize
  ring : g'.grp.gpMembsSwim.csmHead = g.grp.gpMembsSwim.csmHead
  records : g'.grp.gpUriLookupCache = g.grp.gpUriLookupCache
  uris : g'.grpLiUriGet = g.grpLiUriGet
  items : g'.gpLookupCache = g.gpLookupCache
  version : g'.gpMembsVer = g.gpMembsVer

/-- `g'` is `g` after the addition of `done`. -/
structure Grown (done : List ℕ) (g g' : LcGrpPriv) : Prop where
  swim : (g'.grp.gpPrimary && !g'.grp.gpView) = true
  own : g'.grp.gpSelf = g.grp.gpSelf
  size : g'.grp.gpSize = g.grp.gpSize + done.length
  ring : g.grp.gpMembsSwim.csmHead.length < g'.grp.gpMembsSwim.csmHead.length ∨
    g'.grp.gpMembsSwim.csmHead = g.grp.gpMembsSwim.csmHead ∧ ∀ rank ∈ done, rank = g.grp.gpSelf

end LcGrpPriv

namespace GrpPriv

variable {g : GrpPriv} {ranks : List ℕ}

/-! ### Taking them back -/

/-- A removal is not heard of by SWIM, and makes the group smaller by one at most. -/
theorem removeInternal_bounds (g : GrpPriv) (rank : ℕ) :
    (g.crtGroupRankRemoveInternal rank).2.gpMembsSwim = g.gpMembsSwim ∧
    g.gpSize ≤ (g.crtGroupRankRemoveInternal rank).2.gpSize + 1 := by
  have hslot : ∀ g₁ : GrpPriv, (g₁.removeSlot rank).gpMembsSwim = g₁.gpMembsSwim ∧
      g₁.gpSize ≤ (g₁.removeSlot rank).gpSize + 1 := by
    intro g₁
    rw [removeSlot]
    split
    · exact ⟨rfl, Nat.le_succ _⟩
    · exact ⟨rfl, Nat.sub_le_iff_le_add.mp (le_refl _)⟩
  rw [crtGroupRankRemoveInternal]
  split
  · split
    · exact hslot _
    · exact ⟨rfl, Nat.le_succ _⟩
  · split
    · exact ⟨rfl, Nat.le_succ _⟩
    · exact hslot _

theorem cleanup_cons (g : GrpPriv) (rank : ℕ) (ranks : List ℕ) :
    g.cleanup (rank :: ranks) = (g.crtGroupRankRemoveInternal rank).2.cleanup ranks := rfl

theorem cleanup_bounds (g : GrpPriv) (ranks : List ℕ) :
    (g.cleanup ranks).gpMembsSwim = g.gpMembsSwim ∧ g.gpSize ≤ (g.cleanup ranks).gpSize + ranks.length := by
  induction ranks generalizing g with
  | nil => exact ⟨rfl, le_refl _⟩
  | cons rank ranks ih =>
    obtain ⟨hswim, hsize⟩ := g.removeInternal_bounds rank
    obtain ⟨ihswim, ihsize⟩ := ih (g.crtGroupRankRemoveInternal rank).2
    rw [cleanup_cons, length_cons]
    exact ⟨ihswim.trans hswim, by omega⟩

theorem removeInternal_primary (h : g.gpPrimary = true) (rank : ℕ) :
    g.crtGroupRankRemoveInternal rank = if g.gpUriLookupCache rank then
      (0, { g with gpUriLookupCache := update g.gpUriLookupCache rank false }.removeSlot rank)
    else (-derOog, g) := by
  rw [crtGroupRankRemoveInternal, if_pos h]

theorem cleanup_of_no_record (h : g.gpPrimary = true) (hrecord : g.gpUriLookupCache rank = false)
    (hranks : ∀ r ∈ ranks, r = rank) : g.cleanup ranks = g := by
  induction ranks with
  | nil => rfl
  | cons r ranks ih =>
    have hr := hranks r mem_cons_self
    have hsame : (g.crtGroupRankRemoveInternal r).2 = g := by
      rw [removeInternal_primary h, hr, hrecord]
      rfl
    rw [cleanup_cons, hsame]
    exact ih fun r hr => hranks r (mem_cons_of_mem _ hr)

/-- One and the same rank is removed once. -/
theorem cleanup_same (h : g.gpPrimary = true) (hranks : ∀ r ∈ ranks, r = rank) :
    g.gpSize ≤ (g.cleanup ranks).gpSize + 1 := by
  cases ranks with
  | nil => exact Nat.le_succ _
  | cons r ranks =>
    have hr := hranks r mem_cons_self
    have hrest : ∀ x ∈ ranks, x = rank := fun x hx => hranks x (mem_cons_of_mem _ hx)
    have hsize := (g.removeInternal_bounds r).2
    rw [hr] at hsize
    rw [cleanup_cons, hr]
    by_cases hrecord : g.gpUriLookupCache rank
    · have heq := removeInternal_primary h rank
      rw [if_pos hrecord] at heq
      have hsame := sameBut_removeSlot { g with
        gpUriLookupCache := update g.gpUriLookupCache rank false } rank
      have hprimary : (g.crtGroupRankRemoveInternal rank).2.gpPrimary = true := by
        rw [heq]
        exact hsame.primary.trans h
      have hnone : (g.crtGroupRankRemoveInternal rank).2.gpUriLookupCache rank = false := by
        rw [heq]
        exact (congrFun hsame.cache rank).trans (update_self _ _ _)
      rw [cleanup_of_no_record hprimary hnone hrest]
      exact hsize
    · have heq := removeInternal_primary h rank
      rw [if_neg hrecord] at heq
      rw [heq, cleanup_of_no_record h (Bool.eq_false_iff.mpr hrecord) hrest]
      exact Nat.le_succ _

end GrpPriv

namespace LcGrpPriv

variable {done added ranks : List ℕ} {grp : GrpPriv} {u : Uri} {toAdd : List (ℕ × ℕ)}
  {env : ℕ → LcInsertEnv} {uri : Option Uri}

theorem PrimaryUnchanged.ring_of_cleanup (h : PrimaryUnchanged g (g'.cleanup ranks)) :
    g'.grp.gpMembsSwim.csmHead = g.grp.gpMembsSwim.csmHead := by
  have hring := h.ring
  rwa [grp_cleanup, (g'.grp.cleanup_bounds ranks).1] at hring

theorem grp_uriInserted (g : LcGrpPriv) (rank tag : ℕ) (uri : Option Uri) (ctx n : ℕ) :
    ∃ b, (g.uriInserted rank tag uri ctx n).grp = g.grp.crtGrpLcUriInsert rank b := by
  rw [uriInserted]
  split
  · exact ⟨false, rfl⟩
  · exact ⟨_, g.grp_putUri rank tag uri⟩

namespace Grown

section

variable (h : Grown done g g')

include h

theorem of_same (hprimary : g''.grp.gpPrimary = g'.grp.gpPrimary)
    (hview : g''.grp.gpView = g'.grp.gpView) (hself : g''.grp.gpSelf = g'.grp.gpSelf)
    (hsize : g''.grp.gpSize = g'.grp.gpSize)
    (hring : g''.grp.gpMembsSwim.csmHead = g'.grp.gpMembsSwim.csmHead) : Grown done g g'' := by
  refine ⟨?_, hself.trans h.own, hsize.trans h.size, ?_⟩
  · rw [hprimary, hview]
    exact h.swim
  · rw [hring]
    exact h.ring

theorem inserted (rank tag : ℕ) (uri : Option Uri) (ctx n : ℕ) :
    Grown done g (g'.uriInserted rank tag uri ctx n) := by
  obtain ⟨b, hgrp⟩ := g'.grp_uriInserted rank tag uri ctx n
  rw [crtGrpLcUriInsert_eq] at hgrp
  refine h.of_same ?_ ?_ ?_ ?_ ?_
  all_goals rw [hgrp]

theorem kept (hkept : Kept g'.grp grp) : Grown done g { g' with grp := grp } :=
  h.of_same hkept.same.primary hkept.same.view hkept.same.own hkept.size hkept.ring

theorem joins (hjoins : Joins rank g'.grp grp) :
    Grown (done ++ [rank]) g { g' with grp := grp } := by
  refine ⟨?_, hjoins.same.own.trans h.own, ?_, ?_⟩
  · rw [hjoins.same.primary, hjoins.same.view]
    exact h.swim
  · rw [length_append, length_singleton, ← add_assoc, ← h.size]
    exact hjoins.size
  · by_cases hback : rank = g'.grp.gpSelf ∧ g'.grp.gpMembsSwim.csmHead ≠ []
    · rw [hjoins.same_ring hback]
      refine h.ring.imp_right fun hand => ⟨hand.1, fun r hr => ?_⟩
      rcases mem_append.mp hr with hold | hlast
      · exact hand.2 r hold
      · rw [mem_singleton.mp hlast, hback.1, h.own]
    · left
      have hgrows := hjoins.ring hback
      rcases h.ring with hgrew | ⟨hsame, _⟩
      · exact hgrew.trans hgrows
      · rwa [hsame] at hgrows

end

theorem nil (hswim : (g.grp.gpPrimary && !g.grp.gpView) = true) : Grown [] g g :=
  ⟨hswim, rfl, rfl, .inr ⟨rfl, fun _ hrank => absurd hrank not_mem_nil⟩⟩

/-- What has come into the ring is still there. -/
theorem own_of_unchanged (h : Grown done g g')
    (hunchanged : PrimaryUnchanged g (g'.cleanup ranks)) : ∀ rank ∈ done, rank = g.grp.gpSelf := by
  refine (h.ring.resolve_left fun hgrew => ?_).2
  rw [hunchanged.ring_of_cleanup] at hgrew
  exact absurd hgrew (lt_irrefl _)

theorem not_unchanged_of_last (h : Grown (done ++ [rank]) g g') :
    ¬ PrimaryUnchanged g (g'.cleanup done) := by
  intro hunchanged
  have hsize := hunchanged.size
  have hbound := (g'.grp.cleanup_bounds done).2
  rw [grp_cleanup] at hsize
  rw [hsize, h.size, length_append, length_singleton] at hbound
  omega

theorem not_unchanged (h : Grown done g g') (htwo : 2 ≤ done.length) :
    ¬ PrimaryUnchanged g (g'.cleanup done) := by
  intro hunchanged
  have hprimary : g'.grp.gpPrimary = true := (Bool.and_eq_true_iff.mp h.swim).1
  have hsize := hunchanged.size
  have hbound := cleanup_same hprimary (h.own_of_unchanged hunchanged)
  rw [grp_cleanup] at hsize
  rw [hsize, h.size] at hbound
  omega

/-- Nor is any failure after two additions undone. -/
theorem not_unchanged_of_modifyAdd {env : PrimaryModifyEnv} {uris : ℕ → Option Uri}
    (h : Grown done g g') (htwo : 2 ≤ done.length)
    (hadd : modifyAdd true env uris toAdd done g' = .ok (rc, added, g'')) (hrc : rc ≠ 0) :
    ¬ PrimaryUnchanged g (g''.cleanup added) := by
  induction toAdd generalizing done g' with
  | nil =>
    cases hadd
    exact absurd rfl hrc
  | cons entry toAdd ih =>
    obtain ⟨rank, i⟩ := entry
    rcases modifyAdd_cons_cases h.swim hadd with
      ⟨grp, _, rfl, rfl, _, hkept⟩ | ⟨grp, _, hjoins, ⟨_, rfl, _, k, rfl⟩ | ⟨_, hrest⟩⟩
    · exact (h.kept hkept).not_unchanged htwo
    · exact ((h.joins hjoins).inserted rank 0 (uris i) 0 k).not_unchanged_of_last
    · refine ih ((h.joins hjoins).inserted rank 0 (uris i) 0 crtSrvContextNum) ?_ hrest
      rw [length_append]
      exact htwo.trans (Nat.le_add_right _ _)

end Grown

/-! ### The insertion of a first URI -/

theorem grpLiUriGet_newItem (g : LcGrpPriv) (ctx r : ℕ) : (g.newItem ctx r).grpLiUriGet = g.grpLiUriGet := rfl

/-- Where there is a URI, all that is left to make are the items. -/
theorem rc_uriInsertLoop_of_uri {tag : ℕ} {n ctx : ℕ} (hget : (g.grpLiUriGet rank tag).isSome)
    (hitems : ∀ c, ctx ≤ c → c < ctx + n → g.gpLookupCache c rank = none) :
    (uriInsertLoop env rank tag (some u) n ctx g).1 = 0 ↔
      ∀ c, ctx ≤ c → c < ctx + n → (env c).li = 0 := by
  induction n generalizing ctx g with
  | zero => exact iff_of_true rfl fun c hle hlt => absurd hlt (not_lt.mpr hle)
  | succ n ih =>
    have hrecord : ¬ g.grp.gpUriLookupCache rank = false := by
      intro hno
      rw [grpLiUriGet_of_no_record hno] at hget
      cases hget
    have hstep : g.grpLcUriInsertInternalLocked (env ctx) ctx rank tag (some u) =
        if (env ctx).li ≠ 0 then ((env ctx).li, g) else (0, g.newItem ctx rank) := by
      rw [grpLcUriInsertInternalLocked.eq_def, hitems ctx (le_refl _) (by omega)]
      dsimp only
      rw [grpLiUriSet, if_neg hrecord, if_pos hget]
      rfl
    rw [uriInsertLoop, hstep]
    by_cases hli : (env ctx).li = 0
    · rw [if_neg (not_not.mpr hli)]
      have hget' : ((g.newItem ctx rank).grpLiUriGet rank tag).isSome := hget
      have hitems' : ∀ c, ctx + 1 ≤ c → c < ctx + 1 + n → (g.newItem ctx rank).gpLookupCache c rank = none :=
        fun c hle hlt => (if_neg fun hand => by omega).trans (hitems c (by omega) (by omega))
      refine (ih hget' hitems').trans ⟨fun hall c hle hlt => ?_, fun hall c hle hlt => hall c (by omega) (by omega)⟩
      by_cases hc : c = ctx
      · rw [hc, hli]
      · exact hall c (by omega) (by omega)
    · rw [if_pos hli]
      dsimp only
      rw [if_pos hli]
      exact iff_of_false hli fun hall => hli (hall ctx (le_refl _) (by omega))

/-- The first URI of a rank without items. -/
theorem rc_uriInsertLoop_first {n : ℕ} (hrecord : g.grp.gpUriLookupCache rank = false)
    (hitems : ∀ c < n + 1, g.gpLookupCache c rank = none) :
    (uriInsertLoop env rank 0 (some u) (n + 1) 0 g).1 = 0 ↔
      (env 0).ui = 0 ∧ (env 0).dup = true ∧ ∀ c < n + 1, (env c).li = 0 := by
  have hstep : g.grpLcUriInsertInternalLocked (env 0) 0 rank 0 (some u) =
      if (env 0).li ≠ 0 then ((env 0).li, g)
      else if (env 0).ui ≠ 0 then ((env 0).ui, g)
      else if (env 0).dup = false then (-derNomem, g)
      else (0, (g.writeUri rank 0 (dStrndup u)).newItem 0 rank) := by
    rw [grpLcUriInsertInternalLocked.eq_def, hitems 0 (Nat.zero_lt_succ n)]
    dsimp only
    rw [grpLiUriSet, if_pos hrecord]
    by_cases hui : (env 0).ui = 0
    · rw [if_neg (not_not.mpr hui), if_neg (not_not.mpr hui)]
      by_cases hdup : (env 0).dup = false
      · rw [if_pos hdup, if_pos hdup]
        rfl
      · rw [if_neg hdup, if_neg hdup]
        rfl
    · rw [if_pos hui, if_pos hui]
      rw [if_pos hui]
  rw [uriInsertLoop, hstep]
  by_cases hli : (env 0).li = 0
  · rw [if_neg (not_not.mpr hli)]
    by_cases hui : (env 0).ui = 0
    · rw [if_neg (not_not.mpr hui), and_iff_right hui]
      split_ifs with hdup
      · refine iff_of_false (by decide : -derNomem ≠ 0) fun hand => ?_
        exact Bool.false_ne_true (hdup.symm.trans hand.1)
      · rw [and_iff_right (Bool.eq_true_of_not_eq_false hdup)]
        have hget : (((g.writeUri rank 0 (dStrndup u)).newItem 0 rank).grpLiUriGet rank 0).isSome := by
          rw [grpLiUriGet_newItem, grpLiUriGet_writeUri, if_pos ⟨rfl, rfl⟩]
          rfl
        refine (rc_uriInsertLoop_of_uri hget fun c hle hlt => ?_).trans ?_
        · exact (if_neg fun hand => by omega).trans (hitems c (by omega))
        · refine ⟨fun hall c hlt => ?_, fun hall c _ hlt => hall c (by omega)⟩
          by_cases hc : c = 0
          · rw [hc, hli]
          · exact hall c (by omega) (by omega)
    · rw [if_pos hui]
      dsimp only
      rw [if_pos hui]
      exact iff_of_false hui fun hand => hui hand.1
  · rw [if_pos hli]
    dsimp only
    rw [if_pos hli]
    exact iff_of_false hli fun hand => hli (hand.2.2 0 (Nat.zero_lt_succ n))

/-! ### One addition that is taken back -/

/-- A rank has come into the group, and not into the ring. -/
structure Passed (rank : ℕ) (uri : Option Uri) (g g' : LcGrpPriv) : Prop where
  primary : g'.grp.gpPrimary = true
  beyond : Over [rank] g.grp g'.grp
  ring : g'.grp.gpMembsSwim.csmHead = g.grp.gpMembsSwim.csmHead
  records : g'.grp.gpUriLookupCache = if uri.isSome then
    Function.update g.grp.gpUriLookupCache rank true else g.grp.gpUriLookupCache
  uris : ∀ r ≠ rank, g'.grpLiUriGet r = g.grpLiUriGet r
  items : ∀ c r, ¬ (c < crtSrvContextNum ∧ r = rank) → g'.gpLookupCache c r = g.gpLookupCache c r
  version : g'.gpMembsVer = g.gpMembsVer

/-- The rank of the process comes back to a group without it, and then another is refused. -/
theorem Joins.passed {grp₂ : GrpPriv} (h : Joins rank g.grp grp)
    (hown : rank = g.grp.gpSelf) (hring : grp.gpMembsSwim.csmHead = g.grp.gpMembsSwim.csmHead)
    (hprimary : g.grp.gpPrimary = true) (hslots : g.grp.SlotsOk) (hnew : rank ∉ g.grp.occupied)
    (hkept : Kept ({ g with grp := grp }.insertUri rank 0 uri).grp grp₂) :
    Passed rank uri g { { g with grp := grp }.insertUri rank 0 uri with grp := grp₂ } := by
  obtain ⟨index, membs, hopen, hmembs⟩ := h.slot
  have hover := ((PutIn.nil hslots).add hnew not_mem_nil hopen hmembs h.size).over
  have hgrp : ({ g with grp := grp }.insertUri rank 0 uri).grp = grp.crtGrpLcUriInsert rank uri.isSome :=
    grp_insertUri _ rank 0 uri
  have hcache : grp₂.gpUriLookupCache = ({ g with grp := grp }.insertUri rank 0 uri).grp.gpUriLookupCache :=
    hkept.same.cache
  have hocc : grp₂.occupied = grp.occupied := by
    rw [hkept.occupied, hgrp, crtGrpLcUriInsert_eq]
    rfl
  refine ⟨?_, ⟨?_, fun r hr => ?_, ?_⟩, ?_, ?_, fun r hr => ?_, fun c r hcr => ?_, ?_⟩
  · rw [hkept.same.primary, hgrp, crtGrpLcUriInsert_eq]
    exact h.same.primary.trans hprimary
  · rw [hkept.size, hgrp, crtGrpLcUriInsert_eq]
    exact hover.size
  · -- its rank is not `CRT_NO_RANK`, so it is still in a slot
    have hrank : r ≠ crtNoRank := by
      rw [mem_singleton.mp hr, hown]
      exact h.own
    have hmem : r ∈ grp₂.occupied := by
      rw [hocc]
      exact FreeSlots.mem_occupied.mpr ⟨hover.slots r hr, hrank⟩
    exact (FreeSlots.mem_occupied.mp hmem).1
  · rw [hocc]
    exact hover.occupied
  · rw [hkept.ring, hgrp, crtGrpLcUriInsert_eq]
    exact hring
  · rw [hcache, hgrp, crtGrpLcUriInsert_eq, ← h.same.cache]
  · funext t
    have hget := grpLiUriGet_insertUri { g with grp := grp } rank 0 uri r t
    rw [if_neg fun hand => hr hand.1, grpLiUriGet, grpLiUriGet, h.same.cache] at hget
    rw [grpLiUriGet, hcache]
    exact hget
  · exact (gpLookupCache_insertUri { g with grp := grp } rank 0 uri c r).trans (if_neg hcr)
  · rw [insertUri_eq]
    exact gpMembsVer_putUri _ rank 0 uri

/-- It is taken back if there was nothing about it in the caches. -/
theorem Passed.undo (h : Passed rank uri g g') (hslots : g.grp.SlotsOk) (hlisted : g.grp.Listed) :
    PrimaryUnchanged g (g'.cleanup [rank]) ↔ uri.isSome ∧ g.grp.gpUriLookupCache rank = false ∧
      ∀ ctx < crtSrvContextNum, g.gpLookupCache ctx rank = none := by
  have hclean : g'.cleanup [rank] = (g'.crtGroupRankRemoveInternal rank).2 := rfl
  have hremove := removeInternal_primary h.primary rank
  rw [hclean]
  by_cases hrecord : g'.grp.gpUriLookupCache rank
  · rw [if_pos hrecord] at hremove
    have hrc : (g'.grp.crtGroupRankRemoveInternal rank).1 = 0 := by rw [hremove]
    have hcache : (g'.grp.crtGroupRankRemoveInternal rank).2.gpUriLookupCache =
        update g'.grp.gpUriLookupCache rank false := by
      rw [hremove]
      exact (sameBut_removeSlot _ rank).cache
    have hlookup : ∀ c r, (g'.crtGroupRankRemoveInternal rank).2.gpLookupCache c r =
        if c < crtSrvContextNum ∧ r = rank then none else g'.gpLookupCache c r := by
      intro c r
      rw [crtGroupRankRemoveInternal_eq]
      exact if_congr (and_iff_right ⟨h.primary, hrc⟩) rfl rfl
    constructor
    · intro hunchanged
      have hno : g.grp.gpUriLookupCache rank = false := by
        rw [← hunchanged.records, grp_removeInternal, hcache, update_self]
      refine ⟨?_, hno, fun ctx hctx => ?_⟩
      · by_contra hnone
        rw [h.records, if_neg hnone, hno] at hrecord
        exact Bool.false_ne_true hrecord
      · rw [← hunchanged.items, hlookup, if_pos ⟨hctx, rfl⟩]
    · rintro ⟨huri, hno, hitems⟩
      have hover : Over [rank] g.grp { g'.grp with
          gpUriLookupCache := update g'.grp.gpUriLookupCache rank false } :=
        ⟨h.beyond.size, h.beyond.slots, h.beyond.occupied⟩
      obtain ⟨hover, hlist⟩ := hover.removeSlot not_mem_nil
      have hrecords : (g'.grp.crtGroupRankRemoveInternal rank).2.gpUriLookupCache =
          g.grp.gpUriLookupCache := by
        rw [hcache, h.records, if_pos huri, update_idem, update_eq_self_iff, hno]
      refine ⟨?_, ?_, ?_, ?_, ?_, ?_, ?_⟩
      · rw [grp_removeInternal, hremove, hlisted]
        exact (hlist rfl hslots.size).trans hover.occupied
      · rw [grp_removeInternal, hremove]
        exact hover.size
      · rw [grp_removeInternal, (removeInternal_bounds g'.grp rank).1, h.ring]
      · rw [grp_removeInternal, hrecords]
      · funext r t
        by_cases hr : r = rank
        · rw [hr, grpLiUriGet_of_no_record hno, grpLiUriGet_of_no_record]
          rw [grp_removeInternal, hrecords, hno]
        · rw [← h.uris r hr, grpLiUriGet, grpLiUriGet, grp_removeInternal, hcache, update_of_ne hr,
            crtGroupRankRemoveInternal_eq]
      · funext c r
        rw [hlookup]
        split_ifs with hcr
        · rw [hcr.2, hitems c hcr.1]
        · exact h.items c r hcr
      · rw [gpMembsVer_removeInternal, h.version]
  · -- without a record it is not removed
    rw [if_neg hrecord] at hremove
    refine iff_of_false (fun hunchanged => ?_) fun hand => ?_
    · have hsize := hunchanged.size
      rw [grp_removeInternal, hremove] at hsize
      exact absurd (h.beyond.size.symm.trans hsize) (Nat.succ_ne_self _)
    · rw [h.records, if_pos hand.1, update_self] at hrecord
      exact hrecord rfl

/-! ### Which failures leave nothing behind -/

/-- An addition after a first one that was not seen by SWIM fails. -/
def NextRefuses (g : LcGrpPriv) (env : MembsEnv) (rank : ℕ) : Prop :=
  (g.grp.gpMembs.cgmFreeIndices.length = 1 ∧ env.realloc = false) ∨
  SwimRefuses env.swim g.grp.gpSelf g.grp.gpMembsSwim.csmHead rank

/-- The rank of the process comes back to a group in whose ring there are others. -/
structure ComesBack (env : PrimaryModifyEnv) (uris : ℕ → Option Uri) (g : LcGrpPriv) (rank i : ℕ) :
    Prop where
  own : rank = g.grp.gpSelf
  ring : g.grp.gpMembsSwim.csmHead ≠ []
  record : g.grp.gpUriLookupCache rank = false
  items : ∀ ctx < crtSrvContextNum, g.gpLookupCache ctx rank = none
  uri : (uris i).isSome
  insert : (env.lc i 0).ui = 0 ∧ (env.lc i 0).dup = true ∧ ∀ ctx < crtSrvContextNum, (env.lc i ctx).li = 0

/-- The first new rank is refused; or it is that of the process, and the second is. -/
def PrimaryUndone (env : PrimaryModifyEnv) (uris : ℕ → Option Uri) (g : LcGrpPriv) :
    List (ℕ × ℕ) → Prop
  | [] => True
  | (rank, i) :: rest => g.Refuses (env.membs i) rank ∨
      ComesBack env uris g rank i ∧ ∃ next ∈ rest.head?, g.NextRefuses (env.membs next.2) next.1

section Undone

variable {env : PrimaryModifyEnv} {uris : ℕ → Option Uri} {i : ℕ}

theorem Kept.unchanged (h : Kept g.grp grp) (hslots : g.grp.SlotsOk) (hlisted : g.grp.Listed) :
    PrimaryUnchanged g { g with grp := grp } := by
  refine ⟨?_, h.size, h.ring, h.same.cache, ?_, rfl, rfl⟩
  · exact (h.listed hlisted hslots.size).trans (h.occupied.trans hlisted.symm)
  · funext r t
    rw [grpLiUriGet, grpLiUriGet, h.same.cache]

theorem Joins.rc_insert_iff (h : Joins rank g.grp grp)
    (hrecord : g.grp.gpUriLookupCache rank = false)
    (hitems : ∀ ctx < crtSrvContextNum, g.gpLookupCache ctx rank = none) :
    (uriInsertLoop (env.lc i) rank 0 (some u) crtSrvContextNum 0 { g with grp := grp }).1 = 0 ↔
      (env.lc i 0).ui = 0 ∧ (env.lc i 0).dup = true ∧
        ∀ ctx < crtSrvContextNum, (env.lc i ctx).li = 0 := by
  refine rc_uriInsertLoop_first ?_ hitems
  rw [h.same.cache, hrecord]

theorem Joins.refuses_iff (h : Joins rank g.grp grp)
    (hring : grp.gpMembsSwim.csmHead = g.grp.gpMembsSwim.csmHead) (uri : Option Uri) (membs : MembsEnv)
    (next : ℕ) :
    ({ g with grp := grp }.insertUri rank 0 uri).Refuses membs next ↔ g.NextRefuses membs next := by
  obtain ⟨index, m, hopen, hfree, _⟩ := h.slot
  have hlen := hopen.length_free
  have hnil : grp.gpMembs.cgmFreeIndices = [] ↔ g.grp.gpMembs.cgmFreeIndices.length = 1 := by
    rw [← length_eq_zero_iff, hfree, hlen]
    split_ifs with hempty
    · rw [hempty]
      decide
    · have := length_pos_iff.mpr hempty
      omega
  rw [Refuses, NextRefuses, grp_insertUri, crtGrpLcUriInsert_eq, ← hnil, ← hring, ← h.same.own]

theorem Joins.undone_iff {next j : ℕ} {rest : List (ℕ × ℕ)}
    (h : Joins rank g.grp grp) (hswim : (g.grp.gpPrimary && !g.grp.gpView) = true)
    (hslots : g.grp.SlotsOk) (hlisted : g.grp.Listed) (hnew : rank ∉ g.grp.occupied)
    (hloop : (uriInsertLoop (env.lc i) rank 0 (uris i) crtSrvContextNum 0 { g with grp := grp }).1 = 0)
    (hadd : modifyAdd true env uris ((next, j) :: rest) [rank]
      ({ g with grp := grp }.insertUri rank 0 (uris i)) = .ok (rc, added, g')) (hrc : rc ≠ 0) :
    PrimaryUnchanged g (g'.cleanup added) ↔
      ComesBack env uris g rank i ∧ g.NextRefuses (env.membs j) next := by
  have hprimary : g.grp.gpPrimary = true := (Bool.and_eq_true_iff.mp hswim).1
  have hgrown : Grown [rank] g ({ g with grp := grp }.insertUri rank 0 (uris i)) :=
    ((Grown.nil hswim).joins h).inserted rank 0 (uris i) 0 crtSrvContextNum
  rcases modifyAdd_cons_cases hgrown.swim hadd with
    ⟨grp₂, _, rfl, rfl, hrefuses, hkept⟩ | ⟨grp₂, hnot, hjoins, hfailed⟩
  · by_cases hback : rank = g.grp.gpSelf ∧ g.grp.gpMembsSwim.csmHead ≠ []
    · have hring := h.same_ring hback
      refine ((h.passed hback.1 hring hprimary hslots hnew hkept).undo hslots hlisted).trans ?_
      constructor
      · rintro ⟨huri, hrecord, hitems⟩
        obtain ⟨u, hu⟩ := isSome_iff_exists.mp huri
        rw [hu] at hloop
        exact ⟨⟨hback.1, hback.2, hrecord, hitems, huri, (h.rc_insert_iff hrecord hitems).mp hloop⟩,
          (h.refuses_iff hring _ _ _).mp hrefuses⟩
      · rintro ⟨hcomes, _⟩
        exact ⟨hcomes.uri, hcomes.record, hcomes.items⟩
    · -- the rank is in the ring, and stays there
      refine iff_of_false (fun hunchanged => ?_) fun hand => hback ⟨hand.1.own, hand.1.ring⟩
      have hring : grp₂.gpMembsSwim.csmHead = g.grp.gpMembsSwim.csmHead := hunchanged.ring_of_cleanup
      rw [hkept.ring, grp_insertUri, crtGrpLcUriInsert_eq] at hring
      exact absurd (congrArg List.length hring) (h.ring hback).ne'
  · -- two ranks have come in
    refine iff_of_false ?_ fun hand => hnot ?_
    · rcases hfailed with ⟨_, rfl, _, k, rfl⟩ | ⟨_, hrest⟩
      · exact ((hgrown.joins hjoins).inserted next 0 (uris j) 0 k).not_unchanged_of_last
      · exact ((hgrown.joins hjoins).inserted next 0 (uris j) 0 crtSrvContextNum).not_unchanged_of_modifyAdd
          (le_refl 2) hrest hrc
    · exact (h.refuses_iff (h.same_ring ⟨hand.1.own, hand.1.ring⟩) _ _ _).mpr hand.2

theorem modifyAdd_undone (hswim : (g.grp.gpPrimary && !g.grp.gpView) = true)
    (hslots : g.grp.SlotsOk) (hlisted : g.grp.Listed) (hnew : ∀ e ∈ toAdd, e.1 ∉ g.grp.occupied)
    (hadd : modifyAdd true env uris toAdd [] g = .ok (rc, added, g')) (hrc : rc ≠ 0) :
    PrimaryUnchanged g (g'.cleanup added) ↔ PrimaryUndone env uris g toAdd := by
  cases toAdd with
  | nil =>
    cases hadd
    exact absurd rfl hrc
  | cons entry rest =>
    obtain ⟨rank, i⟩ := entry
    rcases modifyAdd_cons_cases hswim hadd with
      ⟨grp, _, rfl, rfl, hrefuses, hkept⟩ | ⟨grp, hnot, hjoins, ⟨_, rfl, hloop, k, rfl⟩ | ⟨hloop, hrest⟩⟩
    · exact iff_of_true (hkept.unchanged hslots hlisted) (.inl hrefuses)
    · refine iff_of_false ?_ ?_
      · exact (((Grown.nil hswim).joins hjoins).inserted rank 0 (uris i) 0 k).not_unchanged_of_last
      · rintro (hrefuses | ⟨hback, _⟩)
        · exact hnot hrefuses
        · obtain ⟨u, hu⟩ := isSome_iff_exists.mp hback.uri
          rw [hu] at hloop
          exact hloop ((hjoins.rc_insert_iff hback.record hback.items).mpr hback.insert)
    · rw [PrimaryUndone, or_iff_right hnot]
      cases rest with
      | nil =>
        cases hrest
        exact absurd rfl hrc
      | cons next rest =>
        rw [hjoins.undone_iff hswim hslots hlisted (hnew _ mem_cons_self) hloop hrest hrc]
        refine and_congr_right fun _ => ⟨fun hnext => ⟨next, rfl, hnext⟩, ?_⟩
        rintro ⟨_, hhead, hnext⟩
        rwa [← Option.some.inj hhead] at hnext

end Undone

end LcGrpPriv

open LcGrpPriv

/-- When a modification of the primary group of a service that fails leaves it as it was. -/
theorem primary_modify_atomic {env : PrimaryModifyEnv} {w w' : LcGrpWorld} {ranks : List ℕ}
    {uris : Option (ℕ → Option Uri)} {op : Option GroupModOp} {version : ℕ} {rc : ℤ}
    (hprimary : w.prim.grp.gpPrimary = true) (hview : w.prim.grp.gpView = false)
    (hslots : w.prim.grp.SlotsOk) (hlisted : w.prim.grp.Listed)
    (hcall : w.crtGroupPrimaryModify true env ranks uris op version = .ok (rc, w')) (hrc : rc ≠ 0) :
    PrimaryUnchanged w.prim w'.prim ↔
      ∀ o, op = some o → w.PrimaryArgs ranks uris o → env.modGet = true →
        PrimaryUndone env (uris.getD fun _ => none) w.prim
          (modEntries o w.prim.grp.gpMembs.cgmLinearList ranks) := by
  have hswim : (w.prim.grp.gpPrimary && !w.prim.grp.gpView) = true := by
    rw [hprimary, hview]
    rfl
  rcases LcGrpWorld.crtGroupPrimaryModify_cases hcall with
    ⟨_, rfl, hrefused⟩ | ⟨o, toAdd, toRemove, added, prim, rfl, hargs, hget, hlists, hadd, hresult⟩
  · refine iff_of_true ⟨rfl, rfl, rfl, rfl, rfl, rfl, rfl⟩ fun o ho hargs hget => ?_
    exact absurd (hget.symm.trans (hrefused o ho hargs)) Bool.noConfusion
  · obtain ⟨rfl, _⟩ := crtGroupModGet_eq_ok hlists
    obtain ⟨_, rfl⟩ := hresult.resolve_right fun hand => hrc hand.1
    have hnew : ∀ e ∈ modEntries o w.prim.grp.gpMembs.cgmLinearList ranks, e.1 ∉ w.prim.grp.occupied := by
      intro e he
      rw [← hlisted]
      exact (mem_modEntries.mp he).2.2
    rw [modifyAdd_undone hswim hslots hlisted hnew hadd hrc]
    constructor
    · rintro hundone _ ⟨⟩ _ _
      exact hundone
    · intro himp
      exact himp o rfl hargs hget

/-- A service that has no rank yet cannot add others. -/
theorem primary_modify_atomic_no_self : ∃ w',
    (⟨ofGrp (.crtPrimaryGrpInit true), []⟩ : LcGrpWorld).crtGroupPrimaryModify true easyModify [1, 2]
      (some fun _ => none) (some .add) 7 = .ok (-derInval, w') ∧
    PrimaryUnchanged (ofGrp (.crtPrimaryGrpInit true)) w'.prim := by
  obtain ⟨w', hcall⟩ : ∃ w', (⟨ofGrp (.crtPrimaryGrpInit true), []⟩ : LcGrpWorld).crtGroupPrimaryModify
      true easyModify [1, 2] (some fun _ => none) (some .add) 7 = .ok (-derInval, w') := ⟨_, rfl⟩
  have hlisted : (GrpPriv.crtPrimaryGrpInit true).Listed := rfl
  refine ⟨w', hcall, (primary_modify_atomic rfl rfl ⟨.nil, rfl⟩ hlisted hcall (by decide)).mpr ?_⟩
  rintro _ ⟨⟩ _ _
  exact .inl (.inr (.inl rfl))

/-- Rank 1 is to be added twice: it is taken back from the group, and SWIM keeps it. -/
theorem primary_modify_atomic_ring : ∃ prim w',
    (crtPrimaryGrpInit true).crtRankSelfSet true easyAdd 0 false = .ok (0, prim) ∧
    (⟨ofGrp prim, []⟩ : LcGrpWorld).crtGroupPrimaryModify true easyModify [1, 1]
      (some fun _ => some "tcp://a:1".toList) (some .add) 7 = .ok (-derAlready, w') ∧
    w'.prim.grp.gpMembs.cgmLinearList = [0] ∧
    prim.gpMembsSwim.csmHead = [0] ∧ w'.prim.grp.gpMembsSwim.csmHead = [0, 1] := by
  obtain ⟨prim, hself, w₁, hmodify, hmembers, hbefore, hafter⟩ : ∃ prim,
      (crtPrimaryGrpInit true).crtRankSelfSet true easyAdd 0 false = .ok (0, prim) ∧
      ∃ w₁, GrpWorld.crtGroupPrimaryModify true (fun _ => easyAdd) ⟨prim, []⟩ [1, 1]
          (some fun _ => true) .add = .ok (-derAlready, w₁) ∧
        w₁.prim.gpMembs.cgmLinearList = [0] ∧
        prim.gpMembsSwim.csmHead = [0] ∧ w₁.prim.gpMembsSwim.csmHead = [0, 1] :=
    ⟨_, rfl, _, rfl, rfl, rfl, rfl⟩
  obtain ⟨w', hcall, rfl⟩ := (LcGrpWorld.crtGroupPrimaryModify_follows true easyModify ⟨ofGrp prim, []⟩ [1, 1]
    (some fun _ => some "tcp://a:1".toList) .add 7).exists_of_faultless easyModify_calm hmodify
  exact ⟨prim, w', hself, hcall, hmembers, hbefore, hafter⟩

end Cart
