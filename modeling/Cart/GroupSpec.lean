/-
What additions and removals do to the slots of a group.

Slots, free indices and size belong together (`SlotsOk`), and so does the linear list as soon
as it has been made (`Listed`).

Main results: `grpRegenLinearList_listed`, `grpAddToMembsList_spec`,
`crtGroupRankRemoveInternal_spec`, `modifyAdd_spec`, `psrLoadLoop_spec`.
-/
import Cart.Group

open Function List

namespace Cart

open CrtGrpMembs

open CrtSwimMembs (RankAddEnv)

namespace GrpPriv

variable {g g' : GrpPriv} {rank : ℕ} {service : Bool} {env : RankAddEnv} {r : ℤ × GrpPriv}

/-- The ranks in the slots. -/
def occupied (g : GrpPriv) : List ℕ := FreeSlots.occupied crtNoRank g.gpMembs.cgmList

/-- The free indices are those of the empty slots, and the size is the number of the
others. -/
structure SlotsOk (g : GrpPriv) : Prop where
  free : FreeSlots crtNoRank g.gpMembs.cgmList g.gpMembs.cgmFreeIndices
  size : g.gpSize = g.occupied.length

/-- The linear list has the ranks of the slots. -/
def Listed (g : GrpPriv) : Prop := g.gpMembs.cgmLinearList = g.occupied

/-- `g'` is `g` but for the membership. -/
structure SameBut (g g' : GrpPriv) : Prop where
  primary : g'.gpPrimary = g.gpPrimary
  view : g'.gpView = g.gpView
  own : g'.gpSelf = g.gpSelf
  cache : g'.gpUriLookupCache = g.gpUriLookupCache
  p2s : g'.gpP2sTable = g.gpP2sTable
  s2p : g'.gpS2pTable = g.gpS2pTable

theorem SameBut.refl (g : GrpPriv) : g.SameBut g := ⟨rfl, rfl, rfl, rfl, rfl, rfl⟩

theorem sameBut_membs (g : GrpPriv) (membs : CrtGrpMembs) (size : ℕ) (swim : CrtSwimMembs) :
    g.SameBut { g with gpMembs := membs, gpSize := size, gpMembsSwim := swim } :=
  ⟨rfl, rfl, rfl, rfl, rfl, rfl⟩

/-! ### The linear list -/

theorem regenLoop_eq (gpSize : ℕ) (slots linear : List ℕ)
    (h : linear.length + (FreeSlots.occupied crtNoRank slots).length = gpSize) :
    regenLoop gpSize slots linear = linear ++ FreeSlots.occupied crtNoRank slots := by
  induction slots generalizing linear with
  | nil => exact (append_nil linear).symm
  | cons rank slots ih =>
    rw [regenLoop]
    by_cases hrank : rank = crtNoRank
    · rw [if_neg (not_not.mpr hrank)]
      rw [hrank, FreeSlots.occupied_cons_self] at h ⊢
      exact ih linear h
    · rw [if_pos hrank]
      rw [FreeSlots.occupied_cons_of_ne hrank] at h ⊢
      split
      · -- the list is full, so the slots that are left are empty
        rename_i hfull
        have hnil : FreeSlots.occupied crtNoRank slots = [] := by
          rw [← length_eq_zero_iff]
          rw [length_cons] at h
          omega
        rw [hnil]
      · rw [ih (linear ++ [rank]) (by simp at h ⊢; omega), append_assoc]
        rfl

@[simp] theorem length_dReallocArray (ranks : List ℕ) (count : ℕ) :
    (dReallocArray ranks count).length = count := by
  rw [dReallocArray, length_append, length_take, length_replicate]
  omega

theorem grpRegenLinearList_listed (h : g.gpSize = g.occupied.length) :
    g.grpRegenLinearList.Listed := by
  have hloop := regenLoop_eq g.gpSize g.gpMembs.cgmList [] (by
    rw [length_nil, Nat.zero_add]
    exact h.symm)
  rw [nil_append] at hloop
  show regenLoop g.gpSize g.gpMembs.cgmList [] ++ drop _ _ = g.occupied
  rw [hloop, drop_of_length_le, append_nil]
  · rfl
  · rw [length_dReallocArray, h]
    exact le_refl _

theorem SlotsOk.regen (h : g.SlotsOk) : g.grpRegenLinearList.SlotsOk := ⟨h.free, h.size⟩

theorem SlotsOk.regen_listed (h : g.SlotsOk) : g.grpRegenLinearList.Listed :=
  grpRegenLinearList_listed h.size

theorem SlotsOk.ne_crtNoRank {x : ℕ} (h : x ∈ g.occupied) : x ≠ crtNoRank :=
  (FreeSlots.mem_occupied.mp h).2

/-! ### Additions -/

theorem grow_eq (n : ℕ) : ∀ (m : CrtGrpMembs) (i : ℕ), m.grow i n = { m with
      cgmList := m.cgmList ++ replicate n crtNoRank
      cgmFreeIndices := m.cgmFreeIndices ++ range' i n } := by
  induction n with
  | zero =>
    intro m i
    simp [grow]
  | succ n ih =>
    intro m i
    rw [grow, ih]
    simp [grpAddFreeIndex, range'_succ, replicate_succ]

/-- What comes of adding a rank: it is in a slot, or everything is as before. -/
structure Added (service : Bool) (env : RankAddEnv) (rank : ℕ) (g : GrpPriv) (r : ℤ × GrpPriv) :
    Prop where
  slots : r.2.SlotsOk
  listed : r.2.Listed
  same : g.SameBut r.2
  rc : r.1 = if g.gpPrimary && !g.gpView then (g.crtSwimRankAdd service env rank).1 else 0
  occupied : r.2.occupied.Perm (if r.1 = 0 then rank :: g.occupied else g.occupied)

theorem grpAddAt_spec {membs : CrtGrpMembs} {index : ℕ} (hrank : rank ≠ crtNoRank)
    (hsize : g.gpSize = g.occupied.length)
    (hfree : FreeSlots crtNoRank membs.cgmList (index :: membs.cgmFreeIndices))
    (hocc : FreeSlots.occupied crtNoRank membs.cgmList = g.occupied) :
    Added service env rank g (g.grpAddAt service env membs index rank) := by
  have hempty := (hfree.mem index).mp mem_cons_self
  -- the rank in its slot, whatever SWIM has become
  have hadded : ∀ swim : CrtSwimMembs, SlotsOk { g with
      gpMembs := { membs with cgmList := membs.cgmList.set index rank }
      gpSize := g.gpSize + 1
      gpMembsSwim := swim } := by
    intro swim
    refine ⟨hfree.fill hrank, ?_⟩
    have hlen := (FreeSlots.occupied_fill hempty hrank).length_eq
    rw [length_cons, hocc] at hlen
    rw [hsize]
    exact hlen.symm
  have hperm : (FreeSlots.occupied crtNoRank (membs.cgmList.set index rank)).Perm
      (rank :: g.occupied) := hocc ▸ FreeSlots.occupied_fill hempty hrank
  rw [grpAddAt]
  dsimp only
  split
  · rename_i hswim
    split
    · -- SWIM refuses, and the index goes back to the head of the list
      rename_i hrc
      have hback : SlotsOk { g with
          gpMembs := membs.grpAddFreeIndex index false
          gpMembsSwim := (g.crtSwimRankAdd service env rank).2 } :=
        ⟨hfree, hsize.trans (congrArg length hocc.symm)⟩
      refine ⟨hback.regen, hback.regen_listed, sameBut_membs g _ _ _, ?_, ?_⟩
      · rw [if_pos hswim]
      · rw [if_neg hrc]
        exact .of_eq hocc
    · rename_i hrc
      refine ⟨(hadded _).regen, (hadded _).regen_listed, sameBut_membs g _ _ _, ?_, ?_⟩
      · rw [if_pos hswim]
        exact (not_not.mp hrc).symm
      · rw [if_pos rfl]
        exact hperm
  · rename_i hswim
    refine ⟨(hadded _).regen, (hadded _).regen_listed, sameBut_membs g _ _ _, ?_, ?_⟩
    · rw [if_neg hswim]
    · rw [if_pos rfl]
      exact hperm

theorem grpAddToMembsList_spec (service : Bool) (env : RankAddEnv) (h : g.SlotsOk)
    (hrank : rank ≠ crtNoRank) :
    ∃ r, g.grpAddToMembsList service env rank = .ok r ∧ Added service env rank g r := by
  rw [grpAddToMembsList]
  cases hfree : g.gpMembs.cgmFreeIndices with
  | cons index rest =>
    have hget : g.gpMembs.grpGetFreeIndex =
        some (index, { g.gpMembs with cgmFreeIndices := rest }) := by
      rw [grpGetFreeIndex, hfree]
    rw [hget]
    exact ⟨_, rfl, grpAddAt_spec hrank h.size (hfree ▸ h.free) rfl⟩
  | nil =>
    -- the list of slots grows, and its first new slot is taken
    have hget : g.gpMembs.grpGetFreeIndex = none := by
      rw [grpGetFreeIndex, hfree]
    have hgrown := h.free.grow rankListReallocSize
    rw [hfree, nil_append] at hgrown
    rw [hget, grow_eq, hfree]
    refine ⟨_, rfl, grpAddAt_spec hrank h.size hgrown ?_⟩
    exact FreeSlots.occupied_grow rankListReallocSize

theorem sameBut_grpAddAt (membs : CrtGrpMembs) (index : ℕ) :
    g.SameBut (g.grpAddAt service env membs index rank).2 := by
  rw [grpAddAt]
  dsimp only
  split
  · split
    · exact sameBut_membs g _ _ _
    · exact sameBut_membs g _ _ _
  · exact sameBut_membs g _ _ _

theorem sameBut_grpAddToMembsList (h : g.grpAddToMembsList service env rank = .ok r) :
    g.SameBut r.2 := by
  rw [grpAddToMembsList] at h
  split at h
  · cases h
    exact sameBut_grpAddAt _ _
  · split at h
    · cases h
      exact sameBut_grpAddAt _ _
    · cases h

/-! ### Removals -/

/-- The rank has left one slot, or it was in none. -/
structure Removed (rank : ℕ) (g g' : GrpPriv) : Prop where
  slots : g'.SlotsOk
  same : g.SameBut g'
  swim : g'.gpMembsSwim = g.gpMembsSwim
  occupied : rank ∉ g.occupied ∧ g'.gpMembs = g.gpMembs ∨
    g.occupied.Perm (rank :: g'.occupied) ∧ g'.Listed

theorem sameBut_removeSlot (g : GrpPriv) (rank : ℕ) : g.SameBut (g.removeSlot rank) := by
  rw [removeSlot]
  split
  · exact .refl g
  · exact sameBut_membs g _ _ _

theorem removeSlot_spec (h : g.SlotsOk) (hrank : rank ≠ crtNoRank) :
    Removed rank g (g.removeSlot rank) := by
  rw [removeSlot]
  split
  · rename_i hnone
    refine ⟨h, .refl g, rfl, .inl ⟨fun hmem => ?_, rfl⟩⟩
    exact idxOf?_eq_none_iff.mp hnone (FreeSlots.mem_occupied.mp hmem).1
  · rename_i i hsome
    obtain ⟨hlt, hget, _⟩ := idxOf?_eq_some_iff.mp hsome
    have hi : g.gpMembs.cgmList[i]? = some rank := List.getElem?_eq_some_iff.mpr ⟨hlt, hget⟩
    have hperm := FreeSlots.occupied_clear hi hrank
    have hok : SlotsOk { g with
        gpMembs := { g.gpMembs with
          cgmList := g.gpMembs.cgmList.set i crtNoRank }.grpAddFreeIndex i false
        gpSize := g.gpSize - 1 } := by
      refine ⟨h.free.clear hi hrank, ?_⟩
      have hlen := hperm.length_eq
      rw [length_cons] at hlen
      rw [h.size]
      exact (congrArg (· - 1) hlen).trans (Nat.add_sub_cancel _ 1)
    exact ⟨hok.regen, sameBut_membs g _ _ _, rfl, .inr ⟨hperm, hok.regen_listed⟩⟩

theorem Removed.mem_of_ne (h : Removed rank g g') {x : ℕ} (hx : x ≠ rank) :
    x ∈ g'.occupied ↔ x ∈ g.occupied := by
  rcases h.occupied with ⟨_, hsame⟩ | ⟨hperm, _⟩
  · rw [GrpPriv.occupied, hsame]
    rfl
  · rw [hperm.mem_iff, mem_cons]
    exact ⟨.inr, fun hor => hor.resolve_left hx⟩

theorem Removed.listed (h : Removed rank g g') (hg : g.Listed) : g'.Listed := by
  rcases h.occupied with ⟨_, hsame⟩ | ⟨_, hlisted⟩
  · rw [Listed, GrpPriv.occupied, hsame]
    exact hg
  · exact hlisted

/-- A removal is refused, or it is one from the slots and from the tables. -/
theorem crtGroupRankRemoveInternal_spec (h : g.SlotsOk) (hrank : rank ≠ crtNoRank) :
    g.crtGroupRankRemoveInternal rank = (-derOog, g) ∨
    (g.crtGroupRankRemoveInternal rank).1 = 0 ∧
      (g.gpPrimary = true ∧
        Removed rank { g with gpUriLookupCache := update g.gpUriLookupCache rank false }
          (g.crtGroupRankRemoveInternal rank).2 ∨
      g.gpPrimary = false ∧ ∃ primRank, g.gpS2pTable rank = some primRank ∧
        Removed rank { g with
          gpS2pTable := update g.gpS2pTable rank none
          gpP2sTable := update g.gpP2sTable primRank none }
          (g.crtGroupRankRemoveInternal rank).2) := by
  rw [crtGroupRankRemoveInternal]
  split
  · rename_i hprimary
    split
    · exact .inr ⟨rfl, .inl ⟨hprimary, removeSlot_spec ⟨h.free, h.size⟩ hrank⟩⟩
    · exact .inl rfl
  · rename_i hprimary
    split
    · exact .inl rfl
    · rename_i primRank hs2p
      exact .inr ⟨rfl, .inr ⟨Bool.eq_false_iff.mpr hprimary, primRank, hs2p,
        removeSlot_spec ⟨h.free, h.size⟩ hrank⟩⟩

/-! ### Several additions -/

/-- `g'` is `g` with some more ranks. -/
structure AddedAll (ranks : List ℕ) (g g' : GrpPriv) : Prop where
  slots : g'.SlotsOk
  list : g'.Listed ∨ g'.gpMembs = g.gpMembs
  primary : g'.gpPrimary = g.gpPrimary
  occupied : g'.occupied.Perm (ranks ++ g.occupied)

theorem occupied_congr (h : g'.gpMembs = g.gpMembs) : g'.occupied = g.occupied := by
  rw [GrpPriv.occupied, h, GrpPriv.occupied]

theorem AddedAll.of_same (h : g.SlotsOk) (hmembs : g'.gpMembs = g.gpMembs)
    (hsize : g'.gpSize = g.gpSize) (hprimary : g'.gpPrimary = g.gpPrimary) : AddedAll [] g g' := by
  have hocc := occupied_congr hmembs
  refine ⟨⟨hmembs ▸ h.free, ?_⟩, .inr hmembs, hprimary, .of_eq hocc⟩
  rw [hsize, hocc, h.size]

theorem AddedAll.trans {l l' : List ℕ} {g'' : GrpPriv} (h : AddedAll l g g')
    (h' : AddedAll l' g' g'') : AddedAll (l ++ l') g g'' := by
  refine ⟨h'.slots, ?_, h'.primary.trans h.primary, ?_⟩
  · rcases h'.list with hlisted | hsame
    · exact .inl hlisted
    · rcases h.list with hlisted | hsame'
      · refine .inl ?_
        rw [Listed, hsame, occupied_congr hsame]
        exact hlisted
      · exact .inr (hsame.trans hsame')
  · calc g''.occupied.Perm (l' ++ g'.occupied) := h'.occupied
      _ |>.Perm (l' ++ (l ++ g.occupied)) := h.occupied.append_left l'
      _ |>.Perm ((l ++ l') ++ g.occupied) := by
        rw [← append_assoc]
        exact perm_append_comm.append_right _

theorem Added.addedAll (h : Added service env rank g r) :
    AddedAll (if r.1 = 0 then [rank] else []) g r.2 := by
  refine ⟨h.slots, .inl h.listed, h.same.primary, h.occupied.trans (.of_eq ?_)⟩
  split <;> rfl

theorem crtGrpLcUriInsert_eq (g : GrpPriv) (rank : ℕ) (uri : Bool) : g.crtGrpLcUriInsert rank uri =
      { g with gpUriLookupCache :=
          (if uri then update g.gpUriLookupCache rank true else g.gpUriLookupCache) } := by
  rw [crtGrpLcUriInsert]
  split
  · rfl
  · rfl

theorem crtGrpLcUriInsert_addedAll (h : g.SlotsOk) (rank : ℕ) (uri : Bool) :
    AddedAll [] g (g.crtGrpLcUriInsert rank uri) := by
  rw [crtGrpLcUriInsert_eq]
  exact .of_same h rfl rfl rfl

theorem setPsrRank_addedAll (h : g.SlotsOk) (c : Prop) [Decidable c] (psrRank : ℕ) :
    AddedAll [] g (if c then { g with gpPsrRank := psrRank } else g) := by
  split
  · exact .of_same h rfl rfl rfl
  · exact .of_same h rfl rfl rfl

/-- SWIM tracks the rank, so that it refuses to add it. -/
def Guarded (service : Bool) (g : GrpPriv) (rank : ℕ) : Prop :=
  service = true ∧ g.gpPrimary = true ∧ g.gpView = false ∧ rank ∈ g.gpMembsSwim.csmHead

theorem crtSwimRankAdd_of_mem {m : CrtSwimMembs} {gpSelf : ℕ} (h : rank ∈ m.csmHead) :
    (m.crtSwimRankAdd env gpSelf rank).1 ≠ 0 := by
  rw [CrtSwimMembs.crtSwimRankAdd]
  split
  · exact (by decide : -derInval ≠ 0)
  · split
    · exact (by decide : -derNomem ≠ 0)
    · split
      · rename_i hnil
        rw [hnil] at h
        cases h
      · exact (by decide : -derAlready ≠ 0)

theorem Added.ne_zero_of_guarded (h : Added service env rank g r)
    (hguard : Guarded service g rank) : r.1 ≠ 0 := by
  obtain ⟨hservice, hprimary, hview, hmem⟩ := hguard
  rw [h.rc, hprimary, hview, if_pos (by rfl), crtSwimRankAdd, if_pos hservice]
  exact crtSwimRankAdd_of_mem hmem

/-- A call that adds at most one rank, and none that SWIM tracks. -/
def AddsOne (service : Bool) (rank : ℕ) (g : GrpPriv) (result : Except GrpStop (ℤ × GrpPriv)) : Prop :=
  ∃ rc g' ranks, result = .ok (rc, g') ∧ AddedAll ranks g g' ∧
    (ranks = [] ∨ ranks = [rank] ∧ ¬ Guarded service g rank)

theorem addsOne_of_same (h : g.SlotsOk) (rc : ℤ) : AddsOne service rank g (.ok (rc, g)) :=
  ⟨rc, g, [], rfl, .of_same h rfl rfl rfl, .inl rfl⟩

/-- What an addition to `g₁` does for `g`, which has the same slots. -/
theorem Added.addsOne {g₁ : GrpPriv} (h : Added service env rank g₁ r)
    (hsame : AddedAll [] g g₁) (hguard : Guarded service g rank → Guarded service g₁ rank) :
    AddsOne service rank g (.ok r) := by
  refine ⟨r.1, r.2, _, rfl, hsame.trans h.addedAll, ?_⟩
  split_ifs with hrc
  · exact .inr ⟨rfl, fun hg => h.ne_zero_of_guarded (hguard hg) hrc⟩
  · exact .inl rfl

theorem crtGrpLcUriInsert_guarded (uri : Bool) (h : Guarded service g rank) :
    Guarded service (g.crtGrpLcUriInsert rank uri) rank := by
  rw [crtGrpLcUriInsert_eq]
  exact h

section

variable (service : Bool) (env : RankAddEnv) (h : g.SlotsOk) (hrank : rank ≠ crtNoRank) (uri : Bool)

include h hrank

theorem crtGroupPrimaryAddInternal_spec :
    AddsOne service rank g (g.crtGroupPrimaryAddInternal service env rank uri) := by
  rw [crtGroupPrimaryAddInternal]
  split
  · exact addsOne_of_same h _
  · have hinsert := crtGrpLcUriInsert_addedAll h rank uri
    obtain ⟨r, hok, hadded⟩ := grpAddToMembsList_spec service env hinsert.slots hrank
    rw [hok]
    exact hadded.addsOne hinsert (crtGrpLcUriInsert_guarded uri)

theorem crtRankSelfSet_spec : AddsOne service rank g (g.crtRankSelfSet service env rank uri) := by
  rw [crtRankSelfSet]
  split
  · exact addsOne_of_same h _
  · split
    · exact addsOne_of_same h _
    · have hself : AddedAll [] g { g with gpSelf := rank } := .of_same h rfl rfl rfl
      obtain ⟨⟨rc, g₁⟩, hok, hadded⟩ := grpAddToMembsList_spec service env
        hself.slots hrank
      obtain ⟨rc', g', ranks, heq, hall, hranks⟩ := hadded.addsOne hself fun hg => hg
      cases heq
      rw [hok]
      simp only [bind, Except.bind]
      split
      · exact ⟨rc, g₁, ranks, rfl, hall, hranks⟩
      · refine ⟨0, _, ranks ++ [], rfl, hall.trans (crtGrpLcUriInsert_addedAll hall.slots rank uri), ?_⟩
        rwa [append_nil]

end

theorem modifyAdd_spec (service : Bool) (envs : ℕ → RankAddEnv) (uris : ℕ → Bool)
    (toAdd : List (ℕ × ℕ)) :
    ∀ (added : List ℕ) (g : GrpPriv), g.SlotsOk → (∀ entry ∈ toAdd, entry.1 ≠ crtNoRank) →
      ∃ rc l g', g.modifyAdd service envs uris toAdd added = .ok (rc, added ++ l, g') ∧
        l.Sublist (toAdd.map Prod.fst) ∧ AddedAll l g g' := by
  induction toAdd with
  | nil =>
    intro added g h _
    exact ⟨0, [], g, by rw [modifyAdd, append_nil], .slnil, .of_same h rfl rfl rfl⟩
  | cons entry toAdd ih =>
    intro added g h hne
    obtain ⟨rank, i⟩ := entry
    obtain ⟨⟨rc, g₁⟩, hok, hadded⟩ := grpAddToMembsList_spec service (envs i) h
      (hne (rank, i) mem_cons_self)
    rw [modifyAdd, hok]
    simp only [bind, Except.bind]
    have hall := hadded.addedAll
    split
    · -- refused: the loop ends here
      rename_i hrc
      rw [if_neg hrc] at hall
      exact ⟨rc, [], g₁, by rw [append_nil], nil_sublist _, hall⟩
    · rename_i hrc
      rw [if_pos (not_not.mp hrc)] at hall
      have huri := hall.trans (crtGrpLcUriInsert_addedAll hall.slots rank (uris i))
      obtain ⟨rc', l, g', hloop, hsub, hrest⟩ := ih (added ++ [rank]) _ huri.slots
        fun entry hentry => hne entry (mem_cons_of_mem _ hentry)
      refine ⟨rc', rank :: l, g', ?_, hsub.cons_cons rank, huri.trans hrest⟩
      rw [hloop, append_assoc]
      rfl

theorem psrLoadLoop_spec (service : Bool) (psrRank : ℕ) (lines : List (RankAddEnv × ℕ)) :
    ∀ (last : ℕ) (g : GrpPriv), g.SlotsOk → (∀ line ∈ lines, line.2 ≠ crtNoRank) →
      ∃ rc last' l g', psrLoadLoop service psrRank lines last g = .ok (rc, last', g') ∧
        l.Sublist (lines.map Prod.snd) ∧ AddedAll l g g' := by
  induction lines with
  | nil =>
    intro last g h _
    exact ⟨0, last, [], g, rfl, .slnil, .of_same h rfl rfl rfl⟩
  | cons line lines ih =>
    intro last g h hne
    obtain ⟨env, rank⟩ := line
    obtain ⟨rc, g₁, ranks, hok, hall, hranks⟩ :=
      crtGroupPrimaryAddInternal_spec service env h
        (hne (env, rank) mem_cons_self) true
    have hsub : ranks.Sublist [rank] := by
      rcases hranks with rfl | ⟨rfl, _⟩
      · exact nil_sublist _
      · exact .refl _
    rw [psrLoadLoop, hok]
    simp only [bind, Except.bind]
    split
    · exact ⟨rc, rank, ranks, g₁, rfl, hsub.trans (sublist_append_left [rank] _), hall⟩
    · have hpsr := setPsrRank_addedAll hall.slots (rank = psrRank) rank
      obtain ⟨rc', last', l, g', hloop, hrest, hall'⟩ := ih rank _ hpsr.slots
        fun line hline => hne line (mem_cons_of_mem _ hline)
      refine ⟨rc', last', ranks ++ l, g', hloop, hsub.append hrest, ?_⟩
      rw [← append_nil ranks]
      exact (hall.trans hpsr).trans hall'

/-- The lines of a file that could be read. -/
def linesOf (file : Except ℤ (List (RankAddEnv × ℕ))) : List ℕ :=
  match file with
  | .error _ => []
  | .ok lines => lines.map Prod.snd

theorem crtGrpConfigPsrLoad_spec (service : Bool) (psrRank : ℕ)
    {file : Except ℤ (List (RankAddEnv × ℕ))} (h : g.SlotsOk) (hne : ∀ rank ∈ linesOf file, rank ≠ crtNoRank) :
    ∃ rc l g', g.crtGrpConfigPsrLoad service psrRank file = .ok (rc, g') ∧
      l.Sublist (linesOf file) ∧ AddedAll l g g' := by
  cases file with
  | error rc => exact ⟨rc, [], g, rfl, nil_sublist _, .of_same h rfl rfl rfl⟩
  | ok lines =>
    obtain ⟨rc, last, l, g₁, hloop, hsub, hall⟩ := psrLoadLoop_spec service psrRank
      lines 0 g h fun line hline => hne line.2 (mem_map_of_mem hline)
    have hpsr := setPsrRank_addedAll hall.slots (psrRank ≠ crtNoRank) last
    refine ⟨rc, l ++ [], _, ?_, ?_, hall.trans hpsr⟩
    · rw [crtGrpConfigPsrLoad, hloop]
      rfl
    · rwa [append_nil]

end GrpPriv

end Cart
