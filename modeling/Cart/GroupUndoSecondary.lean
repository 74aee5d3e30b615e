/-
Calls on a secondary group that fail.

An addition sets the self rank before it looks whether the ranks are free; and when the
membership list cannot grow, it deletes the wrong entry of the tables.  A modification takes
back the additions before the one that failed, but neither of these.

Main results: `MapOutcome`, `TakenIn`, `TakenIn.undo`, `secondary_atomic`.
-/
import Cart.GroupModify
import Cart.GroupUndo

open Function List Option

namespace Cart

open Faults GrpPriv

namespace LcGrpPriv

variable {g g' g'' : LcGrpPriv} {prim : GrpPriv} {service : Bool} {env : MapEnv} {s p : ℕ}

/-! ### One addition -/

/-- The self rank of the group becomes `s` if `p` is that of the process. -/
def setSelf (g : LcGrpPriv) (prim : GrpPriv) (s p : ℕ) : LcGrpPriv :=
  if p = prim.gpSelf then { g with grp := { g.grp with gpSelf := s } } else g

theorem setSelf_eq (g : LcGrpPriv) (prim : GrpPriv) (s p : ℕ) : g.setSelf prim s p =
      { g with grp := { g.grp with gpSelf := if p = prim.gpSelf then s else g.grp.gpSelf } } := by
  rw [setSelf]
  split
  · rfl
  · rfl

theorem setSelf_with (g : LcGrpPriv) (prim : GrpPriv) (s p : ℕ) (grp : GrpPriv) :
    { g.setSelf prim s p with grp := grp } = { g with grp := grp } := by
  rw [setSelf_eq]

section

variable (g : LcGrpPriv) (env : MapEnv) (s p : ℕ)

/-- One of the ranks is in the tables already, or there is no memory for the entries. -/
def Taken : Prop :=
  (g.grp.gpS2pTable s).isSome ∨ env.rmS2p = false ∨ env.rmP2s = false ∨ (g.grp.gpP2sTable p).isSome

/-- The membership list would have to grow, and cannot. -/
def NoRoom : Prop :=
  g.grp.gpMembs.cgmFreeIndices = [] ∧ env.membs.realloc = false

/-- What is left of a pair when the list could not grow. -/
def leftOver : LcGrpPriv :=
  let grp := g.grp.mapRank s p
  { g with grp := { grp with
      gpS2pTable := Function.update (Function.update grp.gpS2pTable s none) p none } }

end

/-- `grp` is `g` with a pair in the tables and in a slot. -/
structure Seated (prim : GrpPriv) (s p : ℕ) (g : LcGrpPriv) (grp : GrpPriv) : Prop where
  same : ((g.setSelf prim s p).grp.mapRank s p).SameBut grp
  slot : ∃ index membs, Opened g.grp.gpMembs index membs ∧
    grp.gpMembs.cgmFreeIndices = membs.cgmFreeIndices ∧
    grp.gpMembs.cgmList = membs.cgmList.set index s
  size : grp.gpSize = g.grp.gpSize + 1

/-- What comes of `crt_group_secondary_rank_add_internal`. -/
inductive MapOutcome (env : MapEnv) (prim : GrpPriv) (s p : ℕ) (g : LcGrpPriv) :
    ℤ → LcGrpPriv → Prop
  | outOfGroup (hmem : p ∉ prim.gpMembs.cgmLinearList) : MapOutcome env prim s p g (-derOog) g
  | taken {rc : ℤ} (hrc : rc ≠ 0) (hmem : p ∈ prim.gpMembs.cgmLinearList) (htaken : g.Taken env s p) :
      MapOutcome env prim s p g rc (g.setSelf prim s p)
  | noRoom (hmem : p ∈ prim.gpMembs.cgmLinearList) (hfree : ¬ g.Taken env s p) (hroom : g.NoRoom env) :
      MapOutcome env prim s p g (-derNomem) ((g.setSelf prim s p).leftOver s p)
  | added {grp : GrpPriv} (hmem : p ∈ prim.gpMembs.cgmLinearList) (hfree : ¬ g.Taken env s p)
      (hroom : ¬ g.NoRoom env) (hseated : Seated prim s p g grp) :
      MapOutcome env prim s p g 0 { g with grp := grp }

/-- A slot is the last thing that an addition needs. -/
theorem mapOutcome_of_grpAddToMembsList {rc : ℤ} (h : g.grp.gpPrimary = false)
    (hmem : p ∈ prim.gpMembs.cgmLinearList) (hfree : ¬ g.Taken env s p)
    (hcall : { g.setSelf prim s p with grp := (g.setSelf prim s p).grp.mapRank s p }.grpAddToMembsList
      service env.membs s = .ok (rc, g')) :
    (rc = 0 → MapOutcome env prim s p g rc g') ∧
    (rc ≠ 0 → rc = -derNomem ∧ g.NoRoom env ∧
      g' = { g.setSelf prim s p with grp := (g.setSelf prim s p).grp.mapRank s p }) := by
  have hmembs : (g.setSelf prim s p).grp.gpMembs = g.grp.gpMembs := by rw [setSelf_eq]
  rw [grpAddToMembsList] at hcall
  split_ifs at hcall with hroom
  · change (g.setSelf prim s p).grp.gpMembs.cgmFreeIndices = [] ∧ env.membs.realloc = false at hroom
    rw [hmembs] at hroom
    cases hcall
    exact ⟨fun hrc => absurd hrc (by decide), fun _ => ⟨rfl, hroom, rfl⟩⟩
  · change ¬ ((g.setSelf prim s p).grp.gpMembs.cgmFreeIndices = [] ∧ env.membs.realloc = false) at hroom
    rw [hmembs] at hroom
    obtain ⟨⟨rc₁, grp⟩, hadd, hcall⟩ := exists_of_bind_eq_ok hcall
    cases hcall
    have hsame := sameBut_grpAddToMembsList hadd
    obtain ⟨index, membs, hopen, hr⟩ := opened_of_grpAddToMembsList hadd
    change Opened (g.setSelf prim s p).grp.gpMembs index membs at hopen
    rw [hmembs] at hopen
    have hno : ¬ ((g.setSelf prim s p).grp.mapRank s p).gpPrimary = true := by
      rw [setSelf_eq]
      exact Bool.eq_false_iff.mp h
    rw [grpAddAt, if_neg (by simp [hno])] at hr
    obtain ⟨rfl, hgrp⟩ := Prod.mk.inj hr
    have hsize : grp.gpSize = g.grp.gpSize + 1 := by
      rw [hgrp, setSelf_eq]
      rfl
    have hlist : grp.gpMembs.cgmFreeIndices = membs.cgmFreeIndices ∧
        grp.gpMembs.cgmList = membs.cgmList.set index s := by
      rw [hgrp]
      exact ⟨rfl, rfl⟩
    have hout : MapOutcome env prim s p g 0 { g with grp := grp } :=
      .added hmem hfree hroom ⟨hsame, ⟨index, membs, hopen, hlist⟩, hsize⟩
    refine ⟨fun _ => ?_, fun hrc => absurd rfl hrc⟩
    exact (congrArg (MapOutcome env prim s p g 0) (setSelf_with g prim s p grp)).mpr hout

theorem mapOutcome_of_rankAddInternal {rc : ℤ} (h : g.grp.gpPrimary = false)
    (hcall : g.crtGroupSecondaryRankAddInternal service env prim s p = .ok (rc, g')) :
    MapOutcome env prim s p g rc g' := by
  rw [crtGroupSecondaryRankAddInternal] at hcall
  rcases guard_cases hcall with ⟨hmem, rfl, rfl⟩ | ⟨hmem, hcall⟩
  · exact .outOfGroup hmem
  rw [not_not] at hmem
  split at hcall
  · cases hcall
  have hself : (if p = prim.gpSelf then { g with grp := { g.grp with gpSelf := s } } else g) =
      g.setSelf prim s p := rfl
  have hs2p : (g.setSelf prim s p).grp.gpS2pTable = g.grp.gpS2pTable := by rw [setSelf_eq]
  have hp2s : (g.setSelf prim s p).grp.gpP2sTable = g.grp.gpP2sTable := by rw [setSelf_eq]
  rw [hself] at hcall
  dsimp only at hcall
  rw [hs2p, hp2s] at hcall
  rcases guard_cases hcall with ⟨hs, rfl, rfl⟩ | ⟨hs, hcall⟩
  · exact .taken (by decide) hmem (.inl hs)
  rcases guard_cases hcall with ⟨hrm, rfl, rfl⟩ | ⟨hrm, hcall⟩
  · exact .taken (by decide) hmem (.inr (.inl hrm))
  rcases guard_cases hcall with ⟨hrm', rfl, rfl⟩ | ⟨hrm', hcall⟩
  · exact .taken (by decide) hmem (.inr (.inr (.inl hrm')))
  rcases guard_cases hcall with ⟨hp, rfl, rfl⟩ | ⟨hp, hcall⟩
  · exact .taken (by decide) hmem (.inr (.inr (.inr hp)))
  have hfree : ¬ g.Taken env s p := by
    rintro (hin | hno | hno | hin)
    · exact hs hin
    · exact hrm hno
    · exact hrm' hno
    · exact hp hin
  obtain ⟨⟨rc₁, g₁⟩, hadd, hcall⟩ := exists_of_bind_eq_ok hcall
  obtain ⟨hok, hbad⟩ := mapOutcome_of_grpAddToMembsList h hmem hfree hadd
  rcases guard_cases hcall with ⟨hrc, rfl, rfl⟩ | ⟨hrc, hcall⟩
  · obtain ⟨rfl, hroom, rfl⟩ := hbad hrc
    exact .noRoom hmem hfree hroom
  · cases hcall
    rw [not_not] at hrc
    subst hrc
    exact hok rfl

/-! ### Several additions -/

/-- A pair that is to be entered. -/
structure Pairing where
  sec : ℕ
  prim : ℕ
  env : MapEnv

/-- The pairs that a modification has to enter. -/
def pairings (env : SecondaryModifyEnv) (primRanks : List ℕ) (toAdd : List (ℕ × ℕ)) : List Pairing :=
  toAdd.map fun entry => ⟨entry.1, primRanks.getD entry.2 0, env.map entry.2⟩

/-- `g'` is `g` with the pairs of `done` in it, which were free. -/
structure TakenIn (done : List Pairing) (g g' : LcGrpPriv) : Prop where
  secondary : g'.grp.gpPrimary = false
  put : PutIn (done.map Pairing.sec) g.grp g'.grp
  nodup : (done.map Pairing.sec).Nodup
  free : ∀ t ∈ done, g.grp.gpS2pTable t.sec = none ∧ g.grp.gpP2sTable t.prim = none
  entered : ∀ t ∈ done, g'.grp.gpS2pTable t.sec = some t.prim ∧ g'.grp.gpP2sTable t.prim = some t.sec
  s2p : ∀ s ∉ done.map Pairing.sec, g'.grp.gpS2pTable s = g.grp.gpS2pTable s
  p2s : ∀ p ∉ done.map Pairing.prim, g'.grp.gpP2sTable p = g.grp.gpP2sTable p
  listed : done = [] → g'.grp.Listed
  version : g'.gpMembsVer = g.gpMembsVer

namespace TakenIn

variable {done : List Pairing} {t : Pairing} {grp : GrpPriv}

theorem nil (h : g.grp.gpPrimary = false) (hslots : g.grp.SlotsOk) (hlisted : g.grp.Listed) :
    TakenIn [] g g :=
  ⟨h, .nil hslots, .nil, fun _ ht => absurd ht not_mem_nil, fun _ ht => absurd ht not_mem_nil,
    fun _ _ => rfl, fun _ _ => rfl, fun _ => hlisted, rfl⟩

section

variable (h : TakenIn done g g')

include h

theorem setSelf (prim : GrpPriv) (s p : ℕ) : TakenIn done g (g'.setSelf prim s p) := by
  rw [setSelf_eq]
  exact ⟨h.secondary, ⟨h.put.spare, h.put.size, h.put.used, h.put.occupied, h.put.within, h.put.room⟩,
    h.nodup, h.free, h.entered, h.s2p, h.p2s, h.listed, h.version⟩

open Pairing

theorem isSome_s2p (s : ℕ) :
    (g'.grp.gpS2pTable s).isSome ↔ (g.grp.gpS2pTable s).isSome ∨ s ∈ done.map sec := by
  by_cases hs : s ∈ done.map sec
  · obtain ⟨t, ht, rfl⟩ := mem_map.mp hs
    exact iff_of_true (isSome_of_eq_some (h.entered t ht).1) (.inr hs)
  · rw [h.s2p s hs]
    exact (or_iff_left hs).symm

theorem isSome_p2s (p : ℕ) :
    (g'.grp.gpP2sTable p).isSome ↔ (g.grp.gpP2sTable p).isSome ∨ p ∈ done.map Pairing.prim := by
  by_cases hp : p ∈ done.map prim
  · obtain ⟨t, ht, rfl⟩ := mem_map.mp hp
    exact iff_of_true (isSome_of_eq_some (h.entered t ht).2) (.inr hp)
  · rw [h.p2s p hp]
    exact (or_iff_left hp).symm

theorem add (hnew : t.sec ∉ g.grp.occupied) (hfree : ¬ g'.Taken t.env t.sec t.prim)
    (hseated : Seated prim t.sec t.prim g' grp) :
    TakenIn (done ++ [t]) g { g' with grp := grp } := by
  have hnot : ¬ (g.grp.gpS2pTable t.sec).isSome ∧ t.sec ∉ done.map sec := by
    rw [← not_or, ← h.isSome_s2p]
    exact fun hin => hfree (.inl hin)
  have hnot' : ¬ (g.grp.gpP2sTable t.prim).isSome ∧ t.prim ∉ done.map Pairing.prim := by
    rw [← not_or, ← h.isSome_p2s]
    exact fun hin => hfree (.inr (.inr (.inr hin)))
  have hs2p : grp.gpS2pTable = update g'.grp.gpS2pTable t.sec (some t.prim) := by
    rw [hseated.same.s2p, setSelf_eq]
    rfl
  have hp2s : grp.gpP2sTable = update g'.grp.gpP2sTable t.prim (some t.sec) := by
    rw [hseated.same.p2s, setSelf_eq]
    rfl
  have hprimary : grp.gpPrimary = false := by
    rw [hseated.same.primary, setSelf_eq]
    exact h.secondary
  have hsec : (done ++ [t]).map sec = done.map sec ++ [t.sec] := map_append
  have hprim : (done ++ [t]).map Pairing.prim = done.map Pairing.prim ++ [t.prim] := map_append
  obtain ⟨index, membs, hopen, hmembs⟩ := hseated.slot
  refine ⟨hprimary, ?_, ?_, fun u hu => ?_, fun u hu => ?_, fun s hs => ?_, fun p hp => ?_, ?_, h.version⟩
  · rw [hsec]
    exact h.put.add hnew hnot.2 hopen hmembs hseated.size
  · rw [hsec]
    exact nodup_append_comm.mp (nodup_cons.mpr ⟨hnot.2, h.nodup⟩)
  · rcases mem_append.mp hu with hold | hlast
    · exact h.free u hold
    · rw [mem_singleton.mp hlast]
      exact ⟨not_isSome_iff_eq_none.mp hnot.1, not_isSome_iff_eq_none.mp hnot'.1⟩
  · rw [hs2p, hp2s]
    rcases mem_append.mp hu with hold | hlast
    · have hne : u.sec ≠ t.sec := fun heq => hnot.2 (heq ▸ mem_map_of_mem hold)
      have hne' : u.prim ≠ t.prim := fun heq => hnot'.2 (heq ▸ mem_map_of_mem hold)
      rw [update_of_ne hne, update_of_ne hne']
      exact h.entered u hold
    · rw [mem_singleton.mp hlast, update_self, update_self]
      exact ⟨rfl, rfl⟩
  · rw [hsec, mem_append, not_or, mem_singleton] at hs
    rw [hs2p, update_of_ne hs.2, h.s2p s hs.1]
  · rw [hprim, mem_append, not_or, mem_singleton] at hp
    rw [hp2s, update_of_ne hp.2, h.p2s p hp.1]
  · intro hnil
    exact absurd hnil (append_ne_nil_of_right_ne_nil _ (cons_ne_nil _ _))

end

end TakenIn

/-! ### Taking them back -/

/-- What a call that fails should leave as it was. -/
structure SecondaryUnchanged (g g' : LcGrpPriv) : Prop where
  s2p : g'.grp.gpS2pTable = g.grp.gpS2pTable
  p2s : g'.grp.gpP2sTable = g.grp.gpP2sTable
  members : g'.grp.gpMembs.cgmLinearList = g.grp.gpMembs.cgmLinearList
  size : g'.grp.gpSize = g.grp.gpSize
  own : g'.grp.gpSelf = g.grp.gpSelf
  version : g'.gpMembsVer = g.gpMembsVer

/-- The members are taken out one after the other. -/
theorem cleanup_over {grp grp' : GrpPriv} {ranks : List ℕ} (h : Over ranks grp grp')
    (hnodup : ranks.Nodup) (hsecondary : grp'.gpPrimary = false)
    (hs2p : ∀ rank ∈ ranks, (grp'.gpS2pTable rank).isSome) (hsize : grp.gpSize = grp.occupied.length)
    (hlisted : ranks = [] → grp'.Listed) :
    Over [] grp (grp'.cleanup ranks) ∧ (grp'.cleanup ranks).Listed := by
  induction ranks generalizing grp' with
  | nil => exact ⟨h, hlisted rfl⟩
  | cons rank ranks ih =>
    obtain ⟨hout, hnodup⟩ := nodup_cons.mp hnodup
    obtain ⟨p, hp⟩ := isSome_iff_exists.mp (hs2p rank mem_cons_self)
    obtain ⟨hprimary, htable, _⟩ := removeInternal_tables hsecondary rank
    -- the entries go, and then the slot
    have hremove : (grp'.crtGroupRankRemoveInternal rank).2 = GrpPriv.removeSlot { grp' with
        gpS2pTable := update grp'.gpS2pTable rank none
        gpP2sTable := update grp'.gpP2sTable p none } rank := by
      rw [GrpPriv.crtGroupRankRemoveInternal, if_neg (Bool.eq_false_iff.mp hsecondary), hp]
    have hover : Over (rank :: ranks) grp { grp' with
        gpS2pTable := update grp'.gpS2pTable rank none
        gpP2sTable := update grp'.gpP2sTable p none } := ⟨h.size, h.slots, h.occupied⟩
    obtain ⟨hover, hlist⟩ := hover.removeSlot hout
    rw [← hremove] at hover hlist
    refine ih hover hnodup hprimary (fun r hr => ?_) fun hnil => hlist hnil hsize
    have hne : r ≠ rank := by
      rintro rfl
      exact hout hr
    rw [htable, if_neg hne]
    exact hs2p r (mem_cons_of_mem _ hr)

theorem TakenIn.undo {done : List Pairing} (h : TakenIn done g g') (hslots : g.grp.SlotsOk)
    (hlisted : g.grp.Listed) :
    SecondaryUnchanged g (g'.cleanup (done.map Pairing.sec)) ↔ g'.grp.gpSelf = g.grp.gpSelf := by
  have hself : (g'.grp.cleanup (done.map Pairing.sec)).gpSelf = g'.grp.gpSelf := gpSelf_cleanup _ _
  have hsome : ∀ s ∈ done.map Pairing.sec, (g'.grp.gpS2pTable s).isSome := fun s hs =>
    (h.isSome_s2p s).mpr (.inr hs)
  obtain ⟨hs2p, hp2s⟩ := cleanup_tables h.secondary (done.map Pairing.sec)
  obtain ⟨hover, hlist⟩ := cleanup_over h.put.over h.nodup h.secondary hsome hslots.size
    fun hnil => h.listed (map_eq_nil_iff.mp hnil)
  constructor
  · intro hunchanged
    have hown := hunchanged.own
    rwa [grp_cleanup, hself] at hown
  · intro hown
    refine ⟨?_, ?_, ?_, ?_, ?_, ?_⟩
    · rw [grp_cleanup]
      funext s
      rw [hs2p s]
      split_ifs with hs
      · obtain ⟨t, ht, rfl⟩ := mem_map.mp hs
        exact (h.free t ht).1.symm
      · exact h.s2p s hs
    · rw [grp_cleanup]
      funext p
      rw [hp2s p]
      split_ifs with hp
      · obtain ⟨s, hs, heq⟩ := hp
        obtain ⟨t, ht, rfl⟩ := mem_map.mp hs
        rw [(h.entered t ht).1, some.injEq] at heq
        rw [← heq, (h.free t ht).2]
      · refine h.p2s p fun hmem => hp ?_
        obtain ⟨t, ht, rfl⟩ := mem_map.mp hmem
        exact ⟨t.sec, mem_map_of_mem ht, (h.entered t ht).1⟩
    · rw [grp_cleanup, hlist, hlisted]
      exact hover.occupied
    · rw [grp_cleanup]
      exact hover.size
    · rw [grp_cleanup, hself, hown]
    · rw [gpMembsVer_cleanup, h.version]

/-! ### Which calls leave nothing behind -/

section

variable (prim : GrpPriv) (g : LcGrpPriv) (done : List Pairing) (t : Pairing) (tried : List Pairing)

/-- The pair is for the process itself. -/
def Pairing.IsOwn : Prop :=
  t.prim ∈ prim.gpMembs.cgmLinearList ∧ t.prim = prim.gpSelf
deriving Decidable

/-- The last of the pairs that is for the process. -/
def lastOwn : Option Pairing :=
  (tried.filter fun t => t.IsOwn prim).getLast?

/-- The self rank when the pairs have been tried. -/
def selfAfter : ℕ :=
  ((lastOwn prim tried).map Pairing.sec).getD g.grp.gpSelf

/-- The last of the pairs that is for the process has the rank that it has. -/
def SelfKept : Prop :=
  ∀ t, lastOwn prim tried = some t → t.sec = g.grp.gpSelf

/-- A pair is refused, with `done` before it. -/
def Refused : Prop :=
  t.prim ∉ prim.gpMembs.cgmLinearList ∨
  ((g.grp.gpS2pTable t.sec).isSome ∨ t.sec ∈ done.map Pairing.sec) ∨
  t.env.rmS2p = false ∨ t.env.rmP2s = false ∨
  ((g.grp.gpP2sTable t.prim).isSome ∨ t.prim ∈ done.map Pairing.prim)

/-- With `done` before it, a pair needs a membership list that grows, and it cannot. -/
def Crowded : Prop :=
  (g.grp.gpMembs.cgmFreeIndices.length ≤ done.length ∧
    rankListReallocSize ∣ done.length - g.grp.gpMembs.cgmFreeIndices.length) ∧
  t.env.membs.realloc = false

end

/-- The first pair that cannot be entered is refused, and the self rank is then what it
was. -/
def Undone (prim : GrpPriv) (g : LcGrpPriv) : List Pairing → List Pairing → Prop
  | _, [] => True
  | done, t :: todo =>
    (Refused prim g done t → SelfKept prim g (done ++ [t])) ∧
    (¬ Refused prim g done t → ¬ Crowded g done t ∧ Undone prim g (done ++ [t]) todo)

section Undone

variable {done tried : List Pairing} {t : Pairing} {rc : ℤ} {grp : GrpPriv}

theorem selfAfter_add (prim : GrpPriv) (g : LcGrpPriv) (tried : List Pairing) (t : Pairing) :
    selfAfter prim g (tried ++ [t]) = if t.IsOwn prim then t.sec else selfAfter prim g tried := by
  rw [selfAfter, lastOwn, filter_append, filter_singleton]
  split_ifs with hown
  · rw [decide_eq_true hown, cond_true, getLast?_concat]
    rfl
  · rw [decide_eq_false hown, cond_false, append_nil]
    rfl

theorem selfKept_iff : SelfKept prim g tried ↔ selfAfter prim g tried = g.grp.gpSelf := by
  rw [SelfKept, selfAfter]
  cases lastOwn prim tried with
  | none => exact iff_of_true (by rintro t ⟨⟩) rfl
  | some t =>
    constructor
    · intro h
      exact h t rfl
    · rintro h _ ⟨⟩
      exact h

theorem gpSelf_setSelf (hmem : t.prim ∈ prim.gpMembs.cgmLinearList)
    (hown : g'.grp.gpSelf = selfAfter prim g done) :
    (g'.setSelf prim t.sec t.prim).grp.gpSelf = selfAfter prim g (done ++ [t]) := by
  rw [setSelf_eq, selfAfter_add, ← hown]
  exact if_congr (and_iff_right hmem).symm rfl rfl

section

variable (h : TakenIn done g g')

include h

theorem TakenIn.refused_iff : Refused prim g done t ↔
    t.prim ∉ prim.gpMembs.cgmLinearList ∨ g'.Taken t.env t.sec t.prim := by
  rw [Refused, Taken, h.isSome_s2p, h.isSome_p2s]

theorem TakenIn.crowded_iff : Crowded g done t ↔ g'.NoRoom t.env := by
  have hnil := h.put.free_eq_nil_iff
  rw [length_map] at hnil
  rw [Crowded, NoRoom, hnil]

/-- A pair that found no room stays in one of the tables. -/
theorem TakenIn.leftOver_ne (hfree : ¬ g'.Taken t.env t.sec t.prim) : ¬ SecondaryUnchanged g
      (((g'.setSelf prim t.sec t.prim).leftOver t.sec t.prim).cleanup (done.map Pairing.sec)) := by
  intro hunchanged
  have hprim : ¬ ((g.grp.gpP2sTable t.prim).isSome ∨ t.prim ∈ done.map Pairing.prim) := by
    rw [← h.isSome_p2s]
    exact fun hin => hfree (.inr (.inr (.inr hin)))
  have hp2s := congrFun hunchanged.p2s t.prim
  have hsecondary : ((g'.setSelf prim t.sec t.prim).leftOver t.sec t.prim).grp.gpPrimary = false := by
    rw [setSelf_eq]
    exact h.secondary
  rw [grp_cleanup, (cleanup_tables hsecondary _).2 t.prim, if_neg] at hp2s
  · -- the entry that was made
    rw [setSelf_eq] at hp2s
    change update g'.grp.gpP2sTable t.prim (some t.sec) t.prim = _ at hp2s
    rw [update_self] at hp2s
    exact hprim (.inl (isSome_of_eq_some hp2s.symm))
  · -- no earlier pair had this rank, so none takes the entry along
    rintro ⟨s, hs, heq⟩
    obtain ⟨u, hu, rfl⟩ := mem_map.mp hs
    rw [setSelf_eq] at heq
    change update (update (update g'.grp.gpS2pTable t.sec (some t.prim))
      t.sec none) t.prim none u.sec = _ at heq
    rw [update_idem, update_apply, update_apply, (h.entered u hu).1] at heq
    split at heq
    · cases heq
    · split at heq
      · cases heq
      · rw [some.injEq] at heq
        exact hprim (.inr (heq ▸ mem_map_of_mem hu))

theorem TakenIn.failed (hslots : g.grp.SlotsOk) (hlisted : g.grp.Listed)
    (hown : g'.grp.gpSelf = selfAfter prim g done)
    (hout : MapOutcome t.env prim t.sec t.prim g' rc g'') (hrc : rc ≠ 0) (todo : List Pairing) :
    SecondaryUnchanged g (g''.cleanup (done.map Pairing.sec)) ↔ Undone prim g done (t :: todo) := by
  rw [Undone, h.refused_iff, h.crowded_iff]
  cases hout with
  | outOfGroup hmem =>
    have hsame : selfAfter prim g (done ++ [t]) = selfAfter prim g done := by
      rw [selfAfter_add, if_neg fun hisOwn => hmem hisOwn.1]
    rw [h.undo hslots hlisted, selfKept_iff, hown, hsame]
    exact ⟨fun hkept => ⟨fun _ => hkept, fun hno => absurd (.inl hmem) hno⟩, fun hand => hand.1 (.inl hmem)⟩
  | taken hrc hmem htaken =>
    rw [(h.setSelf prim t.sec t.prim).undo hslots hlisted, selfKept_iff, gpSelf_setSelf hmem hown]
    exact ⟨fun hkept => ⟨fun _ => hkept, fun hno => absurd (.inr htaken) hno⟩,
      fun hand => hand.1 (.inr htaken)⟩
  | noRoom hmem hfree hroom =>
    refine iff_of_false (h.leftOver_ne hfree) fun hand => ?_
    exact (hand.2 fun hor => hor.elim (absurd hmem) hfree).1 hroom
  | added => exact absurd rfl hrc

end

theorem secondaryModifyAdd_undone {env : SecondaryModifyEnv} {primRanks : List ℕ} {added : List ℕ}
    {toAdd : List (ℕ × ℕ)} (hslots : g.grp.SlotsOk) (hlisted : g.grp.Listed) (h : TakenIn done g g')
    (hown : g'.grp.gpSelf = selfAfter prim g done) (hnew : ∀ e ∈ toAdd, e.1 ∉ g.grp.occupied)
    (hadd : secondaryModifyAdd service env prim primRanks toAdd (done.map Pairing.sec) g' =
      .ok (rc, added, g'')) (hrc : rc ≠ 0) :
    SecondaryUnchanged g (g''.cleanup added) ↔
      Undone prim g done (pairings env primRanks toAdd) := by
  induction toAdd generalizing done g' with
  | nil =>
    cases hadd
    exact absurd rfl hrc
  | cons entry toAdd ih =>
    obtain ⟨rank, i⟩ := entry
    rw [secondaryModifyAdd] at hadd
    obtain ⟨⟨rc₁, g₁⟩, hcall, hadd⟩ := exists_of_bind_eq_ok hadd
    have hout := mapOutcome_of_rankAddInternal h.secondary hcall
    rw [pairings, map_cons, ← pairings]
    set t : Pairing := ⟨rank, primRanks.getD i 0, env.map i⟩
    dsimp only at hadd
    split_ifs at hadd with hrc₁
    · cases hadd
      exact h.failed (t := t) hslots hlisted hown hout hrc₁ _
    · rw [not_not] at hrc₁
      cases hout with
      | outOfGroup | noRoom => exact absurd hrc₁ (by decide)
      | taken hne => exact absurd hrc₁ hne
      | added hmem hfree hroom hseated =>
        have htaken := h.add (t := t) (hnew _ mem_cons_self) hfree hseated
        have hself := hseated.same.own.trans (gpSelf_setSelf (t := t) hmem hown)
        have hsecs : done.map Pairing.sec ++ [rank] = (done ++ [t]).map Pairing.sec := by
          rw [map_append]
          rfl
        rw [hsecs] at hadd
        have hrefused : ¬ Refused prim g done t := by
          rw [h.refused_iff]
          exact fun hor => hor.elim (absurd hmem) hfree
        have hcrowded : ¬ Crowded g done t := by rwa [h.crowded_iff]
        rw [Undone, ih htaken hself (fun e he => hnew e (mem_cons_of_mem _ he)) hadd]
        exact ⟨fun hrest => ⟨fun hyes => absurd hyes hrefused, fun _ => ⟨hcrowded, hrest⟩⟩,
          fun hand => (hand.2 hrefused).2⟩

end Undone

end LcGrpPriv

open LcGrpPriv

/-- When a call on a secondary group that fails leaves it as it was. -/
theorem secondary_atomic (service : Bool) (prim : GrpPriv) {g g' : LcGrpPriv} {rc : ℤ}
    (hslots : g.grp.SlotsOk) (hlisted : g.grp.Listed) (hrc : rc ≠ 0) :
    (∀ (env : MapEnv) (secRank primRank : ℕ),
      g.crtGroupSecondaryRankAdd service env prim secRank primRank = .ok (rc, g') →
      (SecondaryUnchanged g g' ↔
        (g.grp.gpPrimary = false → Undone prim g [] [⟨secRank, primRank, env⟩]))) ∧
    ∀ (env : SecondaryModifyEnv) (secRanks primRanks : List ℕ) (op : Option GroupModOp) (version : ℕ),
      g.crtGroupSecondaryModify service env prim secRanks primRanks op version = .ok (rc, g') →
      (SecondaryUnchanged g g' ↔
        ∀ o, op = some o → g.SecondaryArgs secRanks primRanks o → env.modGet = true →
          Undone prim g [] (pairings env primRanks
            (modEntries o g.grp.gpMembs.cgmLinearList secRanks))) := by
  constructor
  · intro env secRank primRank hcall
    rw [LcGrpPriv.crtGroupSecondaryRankAdd] at hcall
    split_ifs at hcall with hprimary
    · cases hcall
      exact iff_of_true ⟨rfl, rfl, rfl, rfl, rfl, rfl⟩
        fun hno => absurd (hprimary.symm.trans hno) Bool.noConfusion
    · have hsecondary : g.grp.gpPrimary = false := Bool.eq_false_iff.mpr hprimary
      have hout := mapOutcome_of_rankAddInternal hsecondary hcall
      rw [← (TakenIn.nil hsecondary hslots hlisted).failed (t := ⟨secRank, primRank, env⟩) hslots hlisted
        rfl hout hrc []]
      exact ⟨fun hunchanged _ => hunchanged, fun himp => himp hsecondary⟩
  · intro env secRanks primRanks op version hcall
    rcases crtGroupSecondaryModify_cases hcall with
      ⟨_, rfl, hrefused⟩ | ⟨o, toAdd, toRemove, added, g₁, rfl, hargs, hget, hlists, hadd, hresult⟩
    · refine iff_of_true ⟨rfl, rfl, rfl, rfl, rfl, rfl⟩ fun o ho hargs hget => ?_
      exact absurd (hget.symm.trans (hrefused o ho hargs)) Bool.noConfusion
    · obtain ⟨rfl, _⟩ := crtGroupModGet_eq_ok hlists
      rw [if_pos hrc] at hresult
      have hnew : ∀ e ∈ modEntries o g.grp.gpMembs.cgmLinearList secRanks, e.1 ∉ g.grp.occupied := by
        intro e he
        rw [← hlisted]
        exact (mem_modEntries.mp he).2.2
      rw [hresult, secondaryModifyAdd_undone hslots hlisted (.nil hargs.secondary hslots hlisted) rfl hnew
        hadd hrc]
      constructor
      · rintro hundone _ ⟨⟩ _ _
        exact hundone
      · intro himp
        exact himp o rfl hargs hget

/-- The second pair is refused, and the first one taken back. -/
theorem secondary_atomic_refused : ∃ g',
    (ofGrp .crtGroupSecondaryCreate).crtGroupSecondaryModify true easySecondary twoSlots [5, 6] [1, 9]
      (some .add) 7 = .ok (-derOog, g') ∧ SecondaryUnchanged (ofGrp .crtGroupSecondaryCreate) g' := by
  obtain ⟨g', hcall⟩ : ∃ g', (ofGrp .crtGroupSecondaryCreate).crtGroupSecondaryModify true easySecondary
      twoSlots [5, 6] [1, 9] (some .add) 7 = .ok (-derOog, g') := ⟨_, rfl⟩
  have hnew := GrpWorld.mapped_create []
  refine ⟨g', hcall, ((secondary_atomic true _ hnew.slots hnew.listed (by decide)).2 _ _ _ _ _ hcall).mpr ?_⟩
  rintro _ ⟨⟩ _ _
  refine ⟨?_, fun _ => ⟨fun hcrowded => absurd hcrowded.2 (by decide), ?_, fun hno => ?_⟩⟩
  · rintro _ t ⟨⟩
  · rintro _ t ⟨⟩
  · exact absurd (.inl (by decide)) hno

/-- The self rank of a refused call stays; and a pair without memory stays in one table. -/
theorem secondary_atomic_left_over : ∃ prim,
    (crtPrimaryGrpInit true).crtRankSelfSet true easyAdd 0 true = .ok (0, prim) ∧
    (∃ g g', (ofGrp .crtGroupSecondaryCreate).crtGroupSecondaryRankAdd true (easySecondary.map 0) prim 5 0 =
        .ok (0, g) ∧
      g.crtGroupSecondaryRankAdd true (easySecondary.map 0) prim 7 0 = .ok (-derExist, g') ∧
      g.grp.gpSelf = 5 ∧ g'.grp.gpSelf = 7) ∧
    ∃ g', (ofGrp .crtGroupSecondaryCreate).crtGroupSecondaryRankAdd true ⟨true, true, false, easyAdd⟩ prim 5 0 =
        .ok (-derNomem, g') ∧
      g'.grp.gpS2pTable 5 = none ∧ g'.grp.gpP2sTable 0 = some 5 ∧ g'.grp.gpSize = 0 :=
  ⟨_, rfl, ⟨_, _, rfl, rfl, rfl, rfl⟩, _, rfl, rfl, rfl, rfl⟩

end Cart
