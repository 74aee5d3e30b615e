/-
The SWIM ring and the membership list.

In the primary group of a service every rank that is added or removed goes to the ring of SWIM
as well.  But the first rank brings that of the process with it, which is not put into the ring
later; and a modification takes a rank out of the ring even if the list keeps it.

Main results: `group_swim_targets`, `group_swim_targets_astray`.
-/
import Cart.GroupSelf

open Function List Option

namespace Cart

open CrtSwimMembs (RankAddEnv)

variable {ranks : List ℕ} {w : GrpWorld}
open Faults (exists_of_bind_eq_ok)

/-! ### The ring -/

/-- The ring after an addition that succeeds. -/
def ringAfter (own rank : ℕ) (ring : List ℕ) : List ℕ :=
  if ring = [] then if rank = own then [own] else [rank, own]
  else if rank = own then ring else rank :: ring

/-- `crt_swim_rank_add` fails, for a group with this self rank and ring. -/
def SwimRefuses (env : RankAddEnv) (own : ℕ) (ring : List ℕ) (rank : ℕ) : Prop :=
  own = crtNoRank ∨ env.allocFirst = false ∨
  (ring = [] ∧ rank ≠ own ∧ env.allocSecond = false) ∨ rank ∈ ring

namespace CrtSwimMembs

theorem csmHead_crtSwimRankDel (m : CrtSwimMembs) (rank : ℕ) :
    (m.crtSwimRankDel rank).2.csmHead = m.csmHead.erase rank := by
  rw [crtSwimRankDel]
  split_ifs with hno
  · dsimp only
    split
    · rfl
    · split
      · rfl
      · rfl
  · exact (erase_of_not_mem hno).symm

theorem csmHead_checkSelf (m : CrtSwimMembs) (own : ℕ) :
    (if m.csmCtx.ctx.scSelf ≠ own then m.setSelf own else m).csmHead = m.csmHead := by
  split
  · rfl
  · rfl

/-- **`crt_swim_rank_add`** is refused and leaves the ring alone, or it succeeds.  The rank of the
process comes only into an empty ring. -/
theorem crtSwimRankAdd_cases (env : RankAddEnv) (own : ℕ) (m : CrtSwimMembs) (rank : ℕ) :
    SwimRefuses env own m.csmHead rank ∧ (m.crtSwimRankAdd env own rank).1 ≠ 0 ∧
      (m.crtSwimRankAdd env own rank).2.csmHead = m.csmHead ∨
    ¬ SwimRefuses env own m.csmHead rank ∧ (m.crtSwimRankAdd env own rank).1 = 0 ∧
      (m.crtSwimRankAdd env own rank).2.csmHead.Perm (ringAfter own rank m.csmHead) ∧
      (rank = own → m.csmHead ≠ [] →
        (m.crtSwimRankAdd env own rank).2.csmHead = m.csmHead) := by
  have hnomem : -derNomem ≠ 0 := by decide
  rw [crtSwimRankAdd]
  by_cases hown : own = crtNoRank
  · rw [if_pos hown]
    exact .inl ⟨.inl hown, (by decide : -derInval ≠ 0), rfl⟩
  by_cases halloc : env.allocFirst = false
  · rw [if_neg hown, if_pos halloc]
    exact .inl ⟨.inr (.inl halloc), hnomem, rfl⟩
  rw [if_neg hown, if_neg halloc, SwimRefuses, or_iff_right hown, or_iff_right halloc, ringAfter]
  split
  · rename_i hnil
    rw [hnil, if_pos rfl]
    by_cases hr : rank = own
    · rw [if_neg (not_not.mpr hr), if_pos hr]
      refine .inr ⟨?_, rfl, .of_eq ?_, fun _ hne => absurd rfl hne⟩
      · rintro (hand | hmem)
        · exact hand.2.1 hr
        · cases hmem
      · exact csmHead_checkSelf
          { m.putState own (some ⟨0, .alive⟩) with csmHead := [own], csmTarget := some own } own
    · rw [if_pos hr, if_neg hr]
      split_ifs with halloc'
      · -- the rank of the process had come in first
        rename_i halloc'
        exact .inl ⟨.inl ⟨rfl, hr, halloc'⟩, hnomem,
          (csmHead_crtSwimRankDel _ own).trans (erase_cons_head own [])⟩
      · refine .inr ⟨?_, rfl, ?_, fun heq => absurd heq hr⟩
        · rintro (hand | hmem)
          · exact halloc' hand.2.2
          · cases hmem
        · exact (Perm.of_eq (csmHead_checkSelf _ own)).trans (insertAfter_perm _ _ _)
  · rename_i hcons
    have hne : m.csmHead ≠ [] := hcons ▸ cons_ne_nil _ _
    rw [if_neg hne, or_iff_right (fun hand => hne hand.1 : ¬ (m.csmHead = [] ∧ _))]
    by_cases hmem : rank ∈ m.csmHead
    · rw [if_pos hmem]
      exact .inl ⟨hmem, (by decide : -derAlready ≠ 0), csmHead_checkSelf m own⟩
    rw [if_neg hmem]
    by_cases hr : rank = own
    · rw [if_neg (not_not.mpr hr), if_pos hr]
      exact .inr ⟨hmem, rfl, .of_eq (csmHead_checkSelf m own), fun _ _ => csmHead_checkSelf m own⟩
    · rw [if_pos hr, if_neg hr]
      refine .inr ⟨hmem, rfl, ?_, fun heq => absurd heq hr⟩
      exact (Perm.of_eq (csmHead_checkSelf _ own)).trans (insertAfter_perm _ _ _)

end CrtSwimMembs

namespace GrpPriv

variable {g g' g₁ : GrpPriv} {env : RankAddEnv} {rank r psrRank : ℕ}

/-! ### Additions -/

/-- A primary group of a service that is no view, with its slots in order. -/
structure Ranked (g : GrpPriv) : Prop where
  primary : g.gpPrimary = true
  view : g.gpView = false
  slots : g.SlotsOk

/-- The ring has the ranks of the slots, each once.  Before the self rank is set there are
none. -/
structure Tracked (g : GrpPriv) : Prop extends Ranked g where
  listed : g.Listed
  nodup : g.occupied.Nodup
  ring : g.gpMembsSwim.csmHead.Perm g.occupied
  unset : g.gpSelf = crtNoRank → g.occupied = []

/-- The rank of the process is in only one of ring and slots, and stays so. -/
def Astray (g : GrpPriv) : Prop :=
  g.gpSelf ∈ g.gpMembsSwim.csmHead ∧ g.gpSelf ∉ g.occupied ∨
  g.gpMembsSwim.csmHead ≠ [] ∧ g.gpSelf ∉ g.gpMembsSwim.csmHead ∧ g.gpSelf ∈ g.occupied

/-- What an addition that succeeds does to ring and slots. -/
structure Joined (rank : ℕ) (g g' : GrpPriv) : Prop where
  ranked : Ranked g'
  listed : g'.Listed
  same : g.SameBut g'
  own : g.gpSelf ≠ crtNoRank
  fresh : rank ∉ g.gpMembsSwim.csmHead
  ring : g'.gpMembsSwim.csmHead.Perm (ringAfter g.gpSelf rank g.gpMembsSwim.csmHead)
  occupied : g'.occupied.Perm (rank :: g.occupied)

theorem gpMembsSwim_grpAddAt (hswim : (g.gpPrimary && !g.gpView) = true) (membs : CrtGrpMembs) (index : ℕ) :
    (g.grpAddAt true env membs index rank).2.gpMembsSwim = (g.gpMembsSwim.crtSwimRankAdd env g.gpSelf rank).2 := by
  rw [grpAddAt, if_pos hswim]
  dsimp only
  split
  · rfl
  · rfl

theorem gpMembsSwim_grpAddToMembsList (hswim : (g.gpPrimary && !g.gpView) = true) {r : ℤ × GrpPriv}
    (h : g.grpAddToMembsList true env rank = .ok r) :
    r.2.gpMembsSwim = (g.gpMembsSwim.crtSwimRankAdd env g.gpSelf rank).2 := by
  rw [grpAddToMembsList] at h
  split at h
  · cases h
    exact gpMembsSwim_grpAddAt hswim _ _
  · split at h
    · cases h
      exact gpMembsSwim_grpAddAt hswim _ _
    · cases h

theorem Ranked.joined (h : Ranked g) (hrank : rank ≠ crtNoRank)
    (hadd : g.grpAddToMembsList true env rank = .ok (0, g')) : Joined rank g g' := by
  have hswim : (g.gpPrimary && !g.gpView) = true := by
    rw [h.primary, h.view]
    rfl
  obtain ⟨r, hok, hadded⟩ := grpAddToMembsList_spec true env h.slots hrank
  rw [hadd] at hok
  cases hok
  have hrc : (g.gpMembsSwim.crtSwimRankAdd env g.gpSelf rank).1 = 0 := by
    have hrc := hadded.rc
    rw [if_pos hswim] at hrc
    exact hrc.symm
  obtain ⟨-, hne, -⟩ | ⟨hnot, -, hring, -⟩ :=
    CrtSwimMembs.crtSwimRankAdd_cases env g.gpSelf g.gpMembsSwim rank
  · exact absurd hrc hne
  rw [SwimRefuses, not_or, not_or, not_or] at hnot
  obtain ⟨hown, -, -, hfresh⟩ := hnot
  refine ⟨⟨hadded.same.primary.trans h.primary, hadded.same.view.trans h.view, hadded.slots⟩,
    hadded.listed, hadded.same, hown, hfresh, ?_, ?_⟩
  · rw [gpMembsSwim_grpAddToMembsList hswim hadd]
    exact hring
  · exact hadded.occupied

/-- The first rank of an empty group is not the process, or the process comes back to a group
that is not empty. -/
def StraysAdd (own : ℕ) (members ranks : List ℕ) : Prop :=
  members = [] ∧ (∃ first ∈ ranks.head?, first ≠ own) ∨ members ≠ [] ∧ own ∈ ranks
deriving Decidable

theorem Tracked.joined (h : Tracked g) (hj : Joined rank g g') :
    (¬ StraysAdd g.gpSelf g.occupied [rank] → Tracked g') ∧
      (StraysAdd g.gpSelf g.occupied [rank] → Astray g') := by
  have hring := hj.ring
  have hfresh : rank ∉ g.occupied := fun hmem => hj.fresh (h.ring.mem_iff.mpr hmem)
  have htracked : g'.gpMembsSwim.csmHead.Perm (rank :: g.occupied) → Tracked g' := fun hperm =>
    ⟨hj.ranked, hj.listed, hj.occupied.nodup_iff.mpr (nodup_cons.mpr ⟨hfresh, h.nodup⟩),
      hperm.trans hj.occupied.symm, fun hno => absurd (hj.same.own.symm.trans hno) hj.own⟩
  by_cases hnil : g.occupied = []
  · have hempty : g.gpMembsSwim.csmHead = [] := by
      have hring := h.ring
      rw [hnil] at hring
      exact hring.eq_nil
    rw [hempty, ringAfter, if_pos rfl] at hring
    rw [hnil] at htracked ⊢
    by_cases hown : rank = g.gpSelf
    · rw [if_pos hown, ← hown] at hring
      refine ⟨fun _ => htracked hring, ?_⟩
      rintro (⟨_, first, hfirst, hne⟩ | ⟨hne, _⟩)
      · exact absurd ((some.inj hfirst).symm.trans hown) hne
      · exact absurd rfl hne
    · -- the rank of the process has come into the ring alone
      rw [if_neg hown] at hring
      refine ⟨fun hno => absurd (.inl ⟨rfl, rank, rfl, hown⟩) hno, fun _ => .inl ?_⟩
      rw [hj.same.own, hring.mem_iff, hj.occupied.mem_iff, hnil, mem_singleton]
      exact ⟨mem_cons_of_mem _ mem_cons_self, Ne.symm hown⟩
  · have hne : g.gpMembsSwim.csmHead ≠ [] := by
      intro hempty
      have hring := h.ring
      rw [hempty] at hring
      exact hnil hring.nil_eq.symm
    rw [ringAfter, if_neg hne] at hring
    by_cases hown : rank = g.gpSelf
    · -- the rank of the process has not come into the ring
      rw [if_pos hown] at hring
      have hmem : g.gpSelf ∈ [rank] := mem_singleton.mpr hown.symm
      refine ⟨fun hno => absurd (.inr ⟨hnil, hmem⟩) hno, fun _ => .inr ⟨?_, ?_, ?_⟩⟩
      · exact fun hempty => hne (Perm.nil_eq (hempty ▸ hring)).symm
      · rw [hj.same.own, hring.mem_iff, ← hown]
        exact hj.fresh
      · rw [hj.same.own, hj.occupied.mem_iff, hown]
        exact mem_cons_self
    · rw [if_neg hown] at hring
      refine ⟨fun _ => htracked (hring.trans (h.ring.cons rank)), ?_⟩
      rintro (⟨hempty, _⟩ | ⟨_, hmem⟩)
      · exact absurd hempty hnil
      · exact absurd (mem_singleton.mp hmem).symm hown

theorem Astray.joined (h : Astray g) (hj : Joined rank g g') : Astray g' := by
  have hring := hj.ring
  rw [Astray, hj.same.own, hj.occupied.mem_iff, hring.mem_iff, mem_cons, ringAfter]
  rcases h with ⟨hin, hout⟩ | ⟨hne, hout, hin⟩
  · have hrank : g.gpSelf ≠ rank := fun heq => hj.fresh (heq ▸ hin)
    rw [if_neg (ne_nil_of_mem hin), if_neg hrank.symm]
    exact .inl ⟨mem_cons_of_mem _ hin, fun hor => hor.elim hrank hout⟩
  · rw [if_neg hne]
    rw [ringAfter, if_neg hne] at hring
    split_ifs at hring ⊢ with hown
    · refine .inr ⟨fun hempty => hne (Perm.nil_eq (hempty ▸ hring)).symm, hout, .inr hin⟩
    · refine .inr ⟨fun hempty => ?_, ?_, .inr hin⟩
      · exact cons_ne_nil _ _ (Perm.nil_eq (hempty ▸ hring)).symm
      · rw [mem_cons]
        exact fun hor => hor.elim (Ne.symm hown) hout

/-! ### Several additions -/

/-- `g'` is `g` but for the records of URIs and the rank of the PSR. -/
structure SameRanks (g g' : GrpPriv) : Prop where
  primary : g'.gpPrimary = g.gpPrimary
  view : g'.gpView = g.gpView
  membs : g'.gpMembs = g.gpMembs
  size : g'.gpSize = g.gpSize
  own : g'.gpSelf = g.gpSelf
  swim : g'.gpMembsSwim = g.gpMembsSwim

theorem SameRanks.refl (g : GrpPriv) : SameRanks g g := ⟨rfl, rfl, rfl, rfl, rfl, rfl⟩

section

variable (h : SameRanks g g')

include h

theorem SameRanks.trans {g'' : GrpPriv} (h' : SameRanks g' g'') : SameRanks g g'' :=
  ⟨h'.primary.trans h.primary, h'.view.trans h.view, h'.membs.trans h.membs, h'.size.trans h.size,
    h'.own.trans h.own, h'.swim.trans h.swim⟩

theorem SameRanks.occupied : g'.occupied = g.occupied := occupied_congr h.membs

theorem SameRanks.ranked (hg : Ranked g) : Ranked g' := by
  refine ⟨h.primary.trans hg.primary, h.view.trans hg.view, h.membs ▸ hg.slots.free, ?_⟩
  rw [h.size, h.occupied, hg.slots.size]

theorem SameRanks.tracked (hg : Tracked g) : Tracked g' := by
  refine ⟨h.ranked hg.toRanked, hg.listed.congr h.membs, ?_, ?_, ?_⟩
  · rw [h.occupied]
    exact hg.nodup
  · rw [h.occupied, h.swim]
    exact hg.ring
  · rw [h.occupied, h.own]
    exact hg.unset

theorem SameRanks.astray (hg : Astray g) : Astray g' := by
  rw [Astray, h.own, h.swim, h.occupied]
  exact hg

end

/-- Ranks are added one after the other, and all additions succeed. -/
inductive AddsInTurn : List ℕ → GrpPriv → GrpPriv → Prop
  | nil {g g' : GrpPriv} (hsame : SameRanks g g') : AddsInTurn [] g g'
  | cons {g g₁ g₂ g' : GrpPriv} {env : RankAddEnv} {rank : ℕ} {ranks : List ℕ} (hsame : SameRanks g g₁)
      (hadd : g₁.grpAddToMembsList true env rank = .ok (0, g₂)) (hrest : AddsInTurn ranks g₂ g') :
      AddsInTurn (rank :: ranks) g g'

section

variable (h : AddsInTurn ranks g g')

include h

theorem AddsInTurn.not_mem :
    Ranked g → (∀ rank ∈ ranks, rank ≠ crtNoRank) → r ∈ g.gpMembsSwim.csmHead → r ∉ ranks := by
  induction h with
  | nil => exact fun _ _ _ => not_mem_nil
  | @cons g g₁ g₂ g' env rank ranks hsame hadd hrest ih =>
    intro hranked hne hmem
    have hj := (hsame.ranked hranked).joined (hne rank mem_cons_self) hadd
    rw [← hsame.swim] at hmem
    have hstays : r ∈ g₂.gpMembsSwim.csmHead := by
      rw [hj.ring.mem_iff, ringAfter, if_neg (ne_nil_of_mem hmem)]
      split
      · exact hmem
      · exact mem_cons_of_mem _ hmem
    rw [mem_cons, not_or]
    refine ⟨fun heq => hj.fresh (heq ▸ hmem), ih hj.ranked (fun x hx => hne x (mem_cons_of_mem _ hx)) hstays⟩

theorem AddsInTurn.astray :
    Ranked g → (∀ rank ∈ ranks, rank ≠ crtNoRank) → Astray g → Astray g' := by
  induction h with
  | nil hsame => exact fun _ _ hg => hsame.astray hg
  | cons hsame hadd hrest ih =>
    intro hranked hne hg
    have hj := (hsame.ranked hranked).joined (hne _ mem_cons_self) hadd
    exact ih hj.ranked (fun x hx => hne x (mem_cons_of_mem _ hx)) ((hsame.astray hg).joined hj)

theorem AddsInTurn.ranked :
    Ranked g → (∀ rank ∈ ranks, rank ≠ crtNoRank) → Ranked g' ∧ g'.occupied.Perm (ranks ++ g.occupied) := by
  induction h with
  | nil hsame => exact fun hranked _ => ⟨hsame.ranked hranked, .of_eq hsame.occupied⟩
  | @cons g g₁ g₂ g' env rank ranks hsame hadd hrest ih =>
    intro hranked hne
    have hj := (hsame.ranked hranked).joined (hne rank mem_cons_self) hadd
    obtain ⟨hranked', hperm⟩ := ih hj.ranked fun x hx => hne x (mem_cons_of_mem _ hx)
    rw [← hsame.occupied]
    exact ⟨hranked', hperm.trans ((hj.occupied.append_left ranks).trans perm_middle)⟩

theorem AddsInTurn.own : g'.gpSelf = g.gpSelf := by
  induction h with
  | nil hsame => exact hsame.own
  | cons hsame hadd hrest ih => exact ih.trans ((sameBut_grpAddToMembsList hadd).own.trans hsame.own)

theorem AddsInTurn.tracked : (∀ rank ∈ ranks, rank ≠ crtNoRank) → Tracked g →
      (¬ StraysAdd g.gpSelf g.occupied ranks → Tracked g') ∧
      (StraysAdd g.gpSelf g.occupied ranks → Astray g') := by
  induction h with
  | nil hsame =>
    intro _ hg
    refine ⟨fun _ => hsame.tracked hg, ?_⟩
    rintro (⟨_, first, hfirst, _⟩ | ⟨_, hmem⟩)
    · cases hfirst
    · cases hmem
  | @cons g g₁ g₂ g' env rank ranks hsame hadd hrest ih =>
    intro hne hg
    have hg₁ := hsame.tracked hg
    have hj := hg₁.toRanked.joined (hne rank mem_cons_self) hadd
    have htail : ∀ x ∈ ranks, x ≠ crtNoRank := fun x hx => hne x (mem_cons_of_mem _ hx)
    obtain ⟨hkept, hstray⟩ := hg₁.joined hj
    rw [hsame.own, hsame.occupied] at hkept hstray
    have hown : g₂.gpSelf = g.gpSelf := hj.same.own.trans hsame.own
    have hocc : g₂.occupied ≠ [] := fun hnil =>
      cons_ne_nil _ _ (Perm.nil_eq (hnil ▸ hj.occupied)).symm
    by_cases hone : StraysAdd g.gpSelf g.occupied [rank]
    · have hall : StraysAdd g.gpSelf g.occupied (rank :: ranks) := by
        rcases hone with ⟨hnil, first, hfirst, hneq⟩ | ⟨hnil, hmem⟩
        · exact .inl ⟨hnil, first, hfirst, hneq⟩
        · exact .inr ⟨hnil, mem_cons.mpr (.inl (mem_singleton.mp hmem))⟩
      exact ⟨fun hno => absurd hall hno, fun _ => hrest.astray hj.ranked htail (hstray hone)⟩
    · have hg₂ := hkept hone
      -- what is left can only bring back the rank of the process
      have hrhs : StraysAdd g₂.gpSelf g₂.occupied ranks ↔ g.gpSelf ∈ ranks := by
        rw [StraysAdd, hown]
        exact ⟨fun hor => hor.elim (fun hand => absurd hand.1 hocc) And.right, fun hmem => .inr ⟨hocc, hmem⟩⟩
      have hlhs : StraysAdd g.gpSelf g.occupied (rank :: ranks) ↔ g.gpSelf ∈ ranks := by
        by_cases hnil : g.occupied = []
        · have hrank : rank = g.gpSelf := by
            by_contra hneq
            exact hone (.inl ⟨hnil, rank, rfl, hneq⟩)
          have hin : g.gpSelf ∈ g₂.gpMembsSwim.csmHead := by
            rw [hg₂.ring.mem_iff, hj.occupied.mem_iff, hrank]
            exact mem_cons_self
          refine iff_of_false ?_ (hrest.not_mem hj.ranked htail hin)
          rintro (⟨_, first, hfirst, hneq⟩ | ⟨hno, _⟩)
          · exact hneq ((some.inj hfirst).symm.trans hrank)
          · exact hno hnil
        · have hrank : g.gpSelf ≠ rank := fun heq => hone (.inr ⟨hnil, mem_singleton.mpr heq⟩)
          constructor
          · rintro (⟨hno, _⟩ | ⟨_, hmem⟩)
            · exact absurd hno hnil
            · exact (mem_cons.mp hmem).resolve_left hrank
          · exact fun hmem => .inr ⟨hnil, mem_cons_of_mem _ hmem⟩
      rw [hlhs, ← hrhs]
      exact ih htail hg₂

end

/-! ### Loops of additions -/

theorem sameRanks_crtGrpLcUriInsert (g : GrpPriv) (rank : ℕ) (uri : Bool) :
    SameRanks g (g.crtGrpLcUriInsert rank uri) := by
  rw [crtGrpLcUriInsert_eq]
  exact ⟨rfl, rfl, rfl, rfl, rfl, rfl⟩

theorem AddsInTurn.of_same (hsame : SameRanks g g₁) (h : AddsInTurn ranks g₁ g') :
    AddsInTurn ranks g g' := by
  cases h with
  | nil hsame' => exact .nil (hsame.trans hsame')
  | cons hsame' hadd hrest => exact .cons (hsame.trans hsame') hadd hrest

theorem AddsInTurn.same_right (h : AddsInTurn ranks g g₁) (hsame : SameRanks g₁ g') :
    AddsInTurn ranks g g' := by
  induction h with
  | nil hsame' => exact .nil (hsame'.trans hsame)
  | cons hsame' hadd hrest ih => exact .cons hsame' hadd (ih hsame)

theorem addsInTurn_of_modifyAdd {envs : ℕ → RankAddEnv} {uris : ℕ → Bool} (toAdd : List (ℕ × ℕ)) :
    ∀ {added added' : List ℕ} {g : GrpPriv},
      g.modifyAdd true envs uris toAdd added = .ok (0, added', g') → AddsInTurn (toAdd.map Prod.fst) g g' := by
  induction toAdd with
  | nil =>
    intro added added' g h
    cases h
    exact .nil (.refl _)
  | cons entry toAdd ih =>
    intro added added' g h
    obtain ⟨rank, i⟩ := entry
    rw [modifyAdd] at h
    obtain ⟨⟨rc, g₁⟩, hadd, h⟩ := exists_of_bind_eq_ok h
    dsimp only at h
    split_ifs at h with hrc
    · cases h
      exact absurd rfl hrc
    · rw [not_not.mp hrc] at hadd
      exact .cons (.refl g) hadd ((ih h).of_same (sameRanks_crtGrpLcUriInsert g₁ rank (uris i)))

theorem addsInTurn_of_primaryAdd {uri : Bool} {rc : ℤ} (hrc : rc = 0)
    (h : g.crtGroupPrimaryAddInternal true env rank uri = .ok (rc, g')) : AddsInTurn [rank] g g' := by
  rw [crtGroupPrimaryAddInternal] at h
  split at h
  · cases h
    cases hrc
  · rw [hrc] at h
    exact .cons (sameRanks_crtGrpLcUriInsert g rank uri) h (.nil (.refl g'))

theorem AddsInTurn.cons_of_one (h : AddsInTurn [rank] g g₁) (hrest : AddsInTurn ranks g₁ g') :
    AddsInTurn (rank :: ranks) g g' := by
  cases h with
  | cons hsame hadd hnil =>
    cases hnil with
    | nil hsame' => exact .cons hsame hadd (hrest.of_same hsame')

theorem addsInTurn_of_psrLoadLoop (lines : List (RankAddEnv × ℕ)) :
    ∀ {last last' : ℕ} {g : GrpPriv},
      psrLoadLoop true psrRank lines last g = .ok (0, last', g') → AddsInTurn (lines.map Prod.snd) g g' := by
  induction lines with
  | nil =>
    intro last last' g h
    cases h
    exact .nil (.refl _)
  | cons line lines ih =>
    intro last last' g h
    rw [psrLoadLoop] at h
    obtain ⟨⟨rc, g₁⟩, hadd, h⟩ := exists_of_bind_eq_ok h
    dsimp only at h
    split at h
    · rename_i hrc
      cases h
      exact absurd rfl hrc
    · rename_i hrc
      refine (addsInTurn_of_primaryAdd (not_not.mp hrc) hadd).cons_of_one ((ih h).of_same ?_)
      split
      · exact ⟨rfl, rfl, rfl, rfl, rfl, rfl⟩
      · exact .refl g₁

theorem addsInTurn_of_crtGrpConfigPsrLoad {file : Except ℤ (List (RankAddEnv × ℕ))}
    (h : g.crtGrpConfigPsrLoad true psrRank file = .ok (0, g')) : AddsInTurn (linesOf file) g g' := by
  cases file with
  | error rc =>
    cases h
    exact .nil (.refl _)
  | ok lines =>
    rw [crtGrpConfigPsrLoad] at h
    obtain ⟨⟨rc, last, g₁⟩, hloop, h⟩ := exists_of_bind_eq_ok h
    cases h
    refine (addsInTurn_of_psrLoadLoop lines hloop).same_right ?_
    split
    · exact ⟨rfl, rfl, rfl, rfl, rfl, rfl⟩
    · exact .refl g₁

/-! ### Removals -/

/-- A rank leaves the list and the ring. -/
def removeTracked (g : GrpPriv) (rank : ℕ) : GrpPriv :=
  (g.crtGroupRankRemoveInternal rank).2.crtSwimRankDel true rank

/-- What this does: without a record of the URIs the rank stays in its slot. -/
structure Left (rank : ℕ) (g g' : GrpPriv) : Prop where
  ranked : Ranked g'
  own : g'.gpSelf = g.gpSelf
  ring : g'.gpMembsSwim.csmHead = g.gpMembsSwim.csmHead.erase rank
  cache : g'.gpUriLookupCache = Function.update g.gpUriLookupCache rank false
  listed : g.Listed → g'.Listed
  slots : g'.gpMembs = g.gpMembs ∧ (g.gpUriLookupCache rank = true → rank ∉ g.occupied) ∨
    g.gpUriLookupCache rank = true ∧ g.occupied.Perm (rank :: g'.occupied)

theorem Ranked.left (h : Ranked g) (hrank : rank ≠ crtNoRank) : Left rank g (g.removeTracked rank) := by
  have hdel : ∀ g : GrpPriv, (g.crtSwimRankDel true rank).gpMembsSwim.csmHead = g.gpMembsSwim.csmHead.erase rank :=
    fun g => g.gpMembsSwim.csmHead_crtSwimRankDel rank
  cases hcache : g.gpUriLookupCache rank with
  | false =>
    have heq : g.crtGroupRankRemoveInternal rank = (-derOog, g) := by
      rw [crtGroupRankRemoveInternal, h.primary, if_pos rfl, hcache]
      rfl
    rw [removeTracked, heq]
    refine ⟨⟨h.primary, h.view, h.slots.free, h.slots.size⟩, rfl, hdel g, ?_, fun hl => hl,
      .inl ⟨rfl, fun hno => absurd (hcache.symm.trans hno) (by decide)⟩⟩
    exact (update_eq_self_iff.mpr hcache.symm).symm
  | true =>
    have hcall : (g.crtGroupRankRemoveInternal rank).2 =
        { g with gpUriLookupCache := update g.gpUriLookupCache rank false }.removeSlot rank := by
      rw [crtGroupRankRemoveInternal, h.primary, if_pos rfl, hcache]
      rfl
    have hr : Removed rank { g with gpUriLookupCache := update g.gpUriLookupCache rank false }
        (g.crtGroupRankRemoveInternal rank).2 := by
      rw [hcall]
      exact removeSlot_spec ⟨h.slots.free, h.slots.size⟩ hrank
    refine ⟨⟨hr.same.primary.trans h.primary, hr.same.view.trans h.view, hr.slots.free, hr.slots.size⟩,
      hr.same.own, ?_, hr.same.cache, fun hl => hr.listed hl, ?_⟩
    · rw [removeTracked, hdel, hr.swim]
    · rcases hr.occupied with ⟨hno, hsame⟩ | ⟨hperm, _⟩
      · exact .inl ⟨hsame, fun _ => hno⟩
      · exact .inr ⟨hcache, hperm⟩

section

variable (h : Tracked g) (hl : Left rank g g')
  (hrecord : rank ∈ g.occupied → g.gpUriLookupCache rank = true)

include h hl hrecord

theorem Tracked.left : Tracked g' := by
  rcases hl.slots with ⟨hsame, hno⟩ | ⟨_, hperm⟩
  · -- the rank is in neither
    have hfresh : rank ∉ g.occupied := fun hmem => hno (hrecord hmem) hmem
    have hocc := occupied_congr hsame
    refine ⟨hl.ranked, hl.listed h.listed, ?_, ?_, ?_⟩
    · rw [hocc]
      exact h.nodup
    · rw [hl.ring, hocc, erase_of_not_mem fun hmem => hfresh (h.ring.mem_iff.mp hmem)]
      exact h.ring
    · rw [hl.own, hocc]
      exact h.unset
  · refine ⟨hl.ranked, hl.listed h.listed, ?_, ?_, fun hno => ?_⟩
    · exact (nodup_cons.mp (hperm.nodup_iff.mp h.nodup)).2
    · rw [hl.ring]
      have herase := (h.ring.trans hperm).erase rank
      rwa [erase_cons_head] at herase
    · rw [hl.own] at hno
      rw [h.unset hno] at hperm
      cases hperm.nil_eq

theorem Tracked.mem_of_left (hr : r ∈ g'.occupied) : r ≠ rank ∧ r ∈ g.occupied := by
  rcases hl.slots with ⟨hsame, hno⟩ | ⟨_, hperm⟩
  · rw [occupied_congr hsame] at hr
    refine ⟨?_, hr⟩
    rintro rfl
    exact hno (hrecord hr) hr
  · refine ⟨?_, hperm.mem_iff.mpr (mem_cons_of_mem _ hr)⟩
    rintro rfl
    exact (nodup_cons.mp (hperm.nodup_iff.mp h.nodup)).1 hr

end

/-- A rank in a slot that is not in the ring. -/
def Lost (r : ℕ) (g : GrpPriv) : Prop := r ∈ g.occupied ∧ r ∉ g.gpMembsSwim.csmHead

theorem Left.mem_occupied (hl : Left rank g g') (hr : rank = r → g.gpUriLookupCache r = false)
    (hmem : r ∈ g.occupied) : r ∈ g'.occupied := by
  rcases hl.slots with ⟨hsame, _⟩ | ⟨hcache, hperm⟩
  · rwa [occupied_congr hsame]
  · have hne : r ≠ rank := by
      rintro rfl
      rw [hr rfl] at hcache
      cases hcache
    exact (mem_cons.mp (hperm.mem_iff.mp hmem)).resolve_left hne

theorem Left.cache_false (hl : Left rank g g') (hr : g.gpUriLookupCache r = false) :
    g'.gpUriLookupCache r = false := by
  rw [hl.cache, update_apply]
  split
  · rfl
  · exact hr

/-- It stays lost unless its removal succeeds. -/
theorem Lost.removeAll (ranks : List ℕ) :
    ∀ {g : GrpPriv}, Lost r g → Ranked g → (∀ rank ∈ ranks, rank ≠ crtNoRank) →
      (r ∈ ranks → g.gpUriLookupCache r = false) → Lost r (ranks.foldl removeTracked g) := by
  induction ranks with
  | nil => exact fun h _ _ _ => h
  | cons rank ranks ih =>
    intro g h hranked hne hrecord
    have hl := hranked.left (hne rank mem_cons_self)
    refine ih ⟨?_, ?_⟩ hl.ranked (fun x hx => hne x (mem_cons_of_mem _ hx)) fun hr => ?_
    · exact hl.mem_occupied (fun heq => hrecord (mem_cons.mpr (.inl heq.symm))) h.1
    · rw [hl.ring]
      exact fun hmem => h.2 (mem_of_mem_erase hmem)
    · exact hl.cache_false (hrecord (mem_cons_of_mem _ hr))

/-- A rank without a record is lost when it is to be removed. -/
theorem lost_of_removeAll (ranks : List ℕ) :
    ∀ {g : GrpPriv}, Ranked g → (∀ rank ∈ ranks, rank ≠ crtNoRank) → g.gpMembsSwim.csmHead.Nodup →
      r ∈ ranks → r ∈ g.occupied → g.gpUriLookupCache r = false → Lost r (ranks.foldl removeTracked g) := by
  induction ranks with
  | nil => exact fun _ _ _ hr => absurd hr not_mem_nil
  | cons rank ranks ih =>
    intro g hranked hne hnodup hr hmem hrecord
    have hl := hranked.left (hne rank mem_cons_self)
    have htail : ∀ x ∈ ranks, x ≠ crtNoRank := fun x hx => hne x (mem_cons_of_mem _ hx)
    have hmem' := hl.mem_occupied (fun _ => hrecord) hmem
    by_cases heq : r = rank
    · refine Lost.removeAll ranks ⟨hmem', ?_⟩ hl.ranked htail fun _ => hl.cache_false hrecord
      rw [hl.ring, ← heq]
      exact hnodup.not_mem_erase
    · refine ih hl.ranked htail ?_ ((mem_cons.mp hr).resolve_left heq) hmem' (hl.cache_false hrecord)
      rw [hl.ring]
      exact hnodup.erase rank

theorem Tracked.removeAll (ranks : List ℕ) :
    ∀ {g : GrpPriv}, Tracked g → (∀ rank ∈ ranks, rank ≠ crtNoRank) →
      (∀ rank ∈ ranks, rank ∈ g.occupied → g.gpUriLookupCache rank = true) →
      Tracked (ranks.foldl removeTracked g) := by
  induction ranks with
  | nil => exact fun h _ _ => h
  | cons rank ranks ih =>
    intro g h hne hrecord
    have hl := h.toRanked.left (hne rank mem_cons_self)
    have hg := h.left hl (hrecord rank mem_cons_self)
    refine ih hg (fun x hx => hne x (mem_cons_of_mem _ hx)) fun x hx hmem => ?_
    obtain ⟨hneq, hold⟩ := h.mem_of_left hl (hrecord rank mem_cons_self) hmem
    rw [hl.cache, update_of_ne hneq]
    exact hrecord x (mem_cons_of_mem _ hx) hold

/-- The ring has the ranks of the membership list. -/
def SwimOk (g : GrpPriv) : Prop := ∀ rank, rank ∈ g.gpMembsSwim.csmHead ↔ rank ∈ g.gpMembs.cgmLinearList

theorem Tracked.swimOk (h : Tracked g) : g.SwimOk := by
  intro rank
  rw [h.ring.mem_iff, h.listed]

theorem Lost.not_swimOk (h : Lost r g) (hlisted : g.Listed) : ¬ g.SwimOk := by
  intro hok
  rw [Lost, hok r, hlisted] at h
  exact h.2 h.1

theorem Astray.not_swimOk (h : Astray g) (hlisted : g.Listed) : ¬ g.SwimOk := by
  intro hok
  rw [Astray, hok g.gpSelf, hlisted] at h
  rcases h with ⟨hin, hout⟩ | ⟨_, hout, hin⟩
  · exact hout hin
  · exact hout hin

end GrpPriv

namespace GrpWorld

open GrpPriv

variable {w' : GrpWorld} {envs : ℕ → RankAddEnv} {uris : Option (ℕ → Bool)} {op : GroupModOp}

/-- The call parts the ring and the list. -/
def Strays (w : GrpWorld) : GrpOp → Prop
  | .rankAdd _ rank _ => StraysAdd w.prim.gpSelf w.prim.gpMembs.cgmLinearList [rank]
  | .modify _ ranks _ op =>
    op ≠ .remove ∧ StraysAdd w.prim.gpSelf w.prim.gpMembs.cgmLinearList
      (ranks.filter fun rank => rank ∉ w.prim.gpMembs.cgmLinearList) ∨
    ∃ rank ∈ w.prim.gpMembs.cgmLinearList, op.Drops ranks rank ∧ w.prim.gpUriLookupCache rank = false
  | .configLoad file => StraysAdd w.prim.gpSelf w.prim.gpMembs.cgmLinearList (linesOf file)
  | .psrReload uri file =>
    uri = false ∧ StraysAdd w.prim.gpSelf w.prim.gpMembs.cgmLinearList (linesOf file)
  | _ => False

instance (w : GrpWorld) (op : GrpOp) : Decidable (w.Strays op) := by
  apply GrpOp.casesOn (motive := (Decidable <| w.Strays ·)) op <;> intros <;>
    dsimp only [Strays] <;> infer_instance

theorem prim_foldl_modifyRemove (ranks : List ℕ) (w : GrpWorld) :
    (ranks.foldl (GrpWorld.modifyRemove true) w).prim = ranks.foldl removeTracked w.prim := by
  induction ranks generalizing w with
  | nil => rfl
  | cons rank ranks ih => exact ih _

theorem swim_of_adds {g' : GrpPriv} (h : Tracked w.prim)
    (hadds : AddsInTurn ranks w.prim g') (hne : ∀ rank ∈ ranks, rank ≠ crtNoRank) (hlisted : g'.Listed) :
    (¬ StraysAdd w.prim.gpSelf w.prim.gpMembs.cgmLinearList ranks → Tracked g') ∧
      (StraysAdd w.prim.gpSelf w.prim.gpMembs.cgmLinearList ranks → ¬ g'.SwimOk) := by
  obtain ⟨hkept, hstray⟩ := hadds.tracked hne h
  rw [← h.listed] at hkept hstray
  exact ⟨hkept, fun hs => (hstray hs).not_swimOk hlisted⟩

theorem prim_crtGroupRankRemove {rank : ℕ} (h : Ranked w.prim) (hrank : rank ≠ crtNoRank)
    (hcall : w.crtGroupRankRemove true rank = (0, w')) :
    w.prim.gpUriLookupCache rank = true ∧ w'.prim = w.prim.removeTracked rank := by
  have hrecord : w.prim.gpUriLookupCache rank = true := by
    cases hcache : w.prim.gpUriLookupCache rank with
    | true => rfl
    | false =>
      have heq : w.prim.crtGroupRankRemoveInternal rank = (-derOog, w.prim) := by
        rw [crtGroupRankRemoveInternal, h.primary, if_pos rfl, hcache]
        rfl
      rw [crtGroupRankRemove, heq] at hcall
      cases hcall
  refine ⟨hrecord, ?_⟩
  have hl := h.left hrank
  have hflags : ((w.prim.crtGroupRankRemoveInternal rank).2.gpPrimary &&
      !(w.prim.crtGroupRankRemoveInternal rank).2.gpView) = true := by
    have hprimary : (w.prim.crtGroupRankRemoveInternal rank).2.gpPrimary = true := hl.ranked.primary
    have hview : (w.prim.crtGroupRankRemoveInternal rank).2.gpView = false := hl.ranked.view
    rw [hprimary, hview]
    rfl
  rw [crtGroupRankRemove] at hcall
  dsimp only at hcall
  split_ifs at hcall with hrc
  · exact absurd (congrArg Prod.fst hcall) hrc
  · rw [← (Prod.mk.inj hcall).2]
    rfl

/-- The records of old members are not touched by additions. -/
theorem gpUriLookupCache_modifyAdd {uris : ℕ → Bool} {r : ℕ} (toAdd : List (ℕ × ℕ)) :
    ∀ {added : List ℕ} {g : GrpPriv} {result : ℤ × List ℕ × GrpPriv}, r ∉ toAdd.map Prod.fst →
      g.modifyAdd true envs uris toAdd added = .ok result →
      result.2.2.gpUriLookupCache r = g.gpUriLookupCache r := by
  induction toAdd with
  | nil =>
    intro added g result _ h
    cases h
    rfl
  | cons entry toAdd ih =>
    intro added g result hr h
    rw [map_cons, mem_cons, not_or] at hr
    rw [modifyAdd] at h
    obtain ⟨r₁, hadd, h⟩ := exists_of_bind_eq_ok h
    dsimp only at h
    have hsame := congrFun (sameBut_grpAddToMembsList hadd).cache r
    split at h
    · cases h
      exact hsame
    · refine (ih hr.2 h).trans (Eq.trans ?_ hsame)
      rw [crtGrpLcUriInsert]
      split
      · exact update_of_ne hr.1 _ _
      · rfl

/-- A modification parts ring and list by what it adds, or by what it does not remove. -/
theorem strays_modify_iff {toRemove : List ℕ}
    (hremove : ∀ r, r ∈ toRemove ↔ r ∈ w.prim.gpMembs.cgmLinearList ∧ op.Drops ranks r) :
    w.Strays (.modify envs ranks uris op) ↔
      StraysAdd w.prim.gpSelf w.prim.gpMembs.cgmLinearList
        ((modEntries op w.prim.gpMembs.cgmLinearList ranks).map Prod.fst) ∨
      ∃ r ∈ toRemove, w.prim.gpUriLookupCache r = false := by
  rw [Strays, modEntries]
  refine or_congr ?_ ⟨?_, ?_⟩
  · split_ifs with hop
    · refine iff_of_false (fun hand => hand.1 hop) ?_
      rintro (⟨_, first, hfirst, _⟩ | ⟨_, hmem⟩)
      · cases hfirst
      · cases hmem
    · rw [map_fst_newEntries]
      exact and_iff_right hop
  · rintro ⟨r, hr, hdrops, hfalse⟩
    exact ⟨r, (hremove r).mpr ⟨hr, hdrops⟩, hfalse⟩
  · rintro ⟨r, hr, hfalse⟩
    obtain ⟨hmem, hdrops⟩ := (hremove r).mp hr
    exact ⟨r, hmem, hdrops, hfalse⟩

/-- A modification that succeeds parts ring and list, or it does not. -/
theorem modify_swim (hvalid : ∀ rank ∈ ranks, rank ≠ crtNoRank) (h : Tracked w.prim)
    (hcall : w.crtGroupPrimaryModify true envs ranks uris op = .ok (0, w'))
    (hlisted : w'.prim.Listed) : (¬ w.Strays (.modify envs ranks uris op) → Tracked w'.prim) ∧
      (w.Strays (.modify envs ranks uris op) → ¬ w'.prim.SwimOk) := by
  obtain ⟨toAdd, toRemove, added, g₁, hget, hadd, rfl⟩ := primaryModify_inv rfl hcall
  obtain ⟨htoAdd, hremove⟩ := crtGroupModGet_eq_ok hget
  rw [prim_foldl_modifyRemove] at hlisted ⊢
  have hadds := addsInTurn_of_modifyAdd toAdd hadd
  -- the new ranks, and the old ones that go
  have hnew : ∀ r, r ∈ toAdd.map Prod.fst → r ∈ ranks ∧ r ∉ w.prim.gpMembs.cgmLinearList := by
    intro r hr
    rw [htoAdd] at hr
    exact (mem_map_modEntries.mp hr).2
  have hold : ∀ r, r ∈ toRemove → r ∈ w.prim.occupied := fun r hr => h.listed ▸ ((hremove r).mp hr).1
  have hrecord : ∀ r ∈ w.prim.gpMembs.cgmLinearList, g₁.gpUriLookupCache r = w.prim.gpUriLookupCache r :=
    fun r hr => gpUriLookupCache_modifyAdd toAdd (fun hmem => (hnew r hmem).2 hr) hadd
  have hne : ∀ r ∈ toAdd.map Prod.fst, r ≠ crtNoRank := fun r hr => hvalid r (hnew r hr).1
  have hne' : ∀ r ∈ toRemove, r ≠ crtNoRank := fun r hr => SlotsOk.ne_crtNoRank (hold r hr)
  obtain ⟨hranked, hocc⟩ := hadds.ranked h.toRanked hne
  obtain ⟨hkept, hstray⟩ := hadds.tracked hne h
  rw [strays_modify_iff hremove, ← htoAdd, h.listed, not_or]
  constructor
  · rintro ⟨hadd', hnone⟩
    refine (hkept hadd').removeAll toRemove hne' fun r hr _ => ?_
    rw [hrecord r ((hremove r).mp hr).1]
    refine Bool.eq_true_of_not_eq_false fun hfalse => hnone ⟨r, hr, hfalse⟩
  · intro hs
    by_cases hadd' : StraysAdd w.prim.gpSelf w.prim.occupied (toAdd.map Prod.fst)
    · have hastray := hstray hadd'
      rcases hadd' with ⟨hnil, _⟩ | ⟨_, hmem⟩
      · -- nothing can be removed from an empty group
        have htoRemove : toRemove = [] := by
          rw [eq_nil_iff_forall_not_mem]
          intro r hr
          have hr := hold r hr
          rw [hnil] at hr
          cases hr
        rw [htoRemove] at hlisted ⊢
        exact hastray.not_swimOk hlisted
      · -- the rank of the process is new, so it is not removed
        rw [← hadds.own] at hmem
        have hlost : Lost g₁.gpSelf g₁ := by
          have hin : g₁.gpSelf ∈ g₁.occupied := hocc.mem_iff.mpr (mem_append_left _ hmem)
          rcases hastray with ⟨_, hout⟩ | ⟨_, hout, _⟩
          · exact absurd hin hout
          · exact ⟨hin, hout⟩
        refine (hlost.removeAll toRemove hranked hne' fun hr => ?_).not_swimOk hlisted
        exact absurd ((hremove _).mp hr).1 (hnew _ hmem).2
    · obtain ⟨r, hr, hfalse⟩ := hs.resolve_left hadd'
      have hg₁ := hkept hadd'
      have hmem : r ∈ g₁.occupied := hocc.mem_iff.mpr (mem_append_right _ (hold r hr))
      refine (lost_of_removeAll toRemove hranked hne' (hg₁.ring.nodup_iff.mpr hg₁.nodup) hr hmem ?_).not_swimOk hlisted
      rw [hrecord r ((hremove r).mp hr).1, hfalse]

/-- The first rank of the group is that of the process. -/
theorem tracked_crtRankSelfSet {g g' : GrpPriv} {env : RankAddEnv} {rank : ℕ} {uri : Bool} {rc : ℤ}
    (h : Tracked g) (hrank : rank ≠ crtNoRank) (hrc : rc = 0)
    (hcall : g.crtRankSelfSet true env rank uri = .ok (rc, g')) : Tracked g' := by
  rw [GrpPriv.crtRankSelfSet, if_neg (by decide)] at hcall
  split_ifs at hcall with hown
  · cases hcall
    cases hrc
  · have hempty := h.unset (not_not.mp hown)
    have hg : Tracked { g with gpSelf := rank } :=
      ⟨⟨h.primary, h.view, h.slots.free, h.slots.size⟩, h.listed, h.nodup, h.ring, fun _ => hempty⟩
    obtain ⟨⟨rc₁, g₁⟩, hadd, hcall⟩ := exists_of_bind_eq_ok hcall
    dsimp only at hcall
    split_ifs at hcall with hrc₁
    · cases hcall
      exact absurd hrc hrc₁
    · cases hcall
      rw [not_not.mp hrc₁] at hadd
      refine (sameRanks_crtGrpLcUriInsert g₁ rank uri).tracked
        ((hg.joined (hg.toRanked.joined hrank hadd)).1 ?_)
      rintro (⟨_, first, hfirst, hne⟩ | ⟨hne, _⟩)
      · exact hne (some.inj hfirst).symm
      · exact hne hempty

theorem exec_swim {op : GrpOp} (hvalid : op.RanksValid) (h : Tracked w.prim)
    (hexec : w.exec true op = .ok (0, w')) (hlisted : w'.prim.Listed) :
    (¬ w.Strays op → Tracked w'.prim) ∧ (w.Strays op → ¬ w'.prim.SwimOk) := by
  have hsame : ∀ {g' : GrpPriv}, SameRanks w.prim g' →
      (¬ False → Tracked g') ∧ (False → ¬ g'.SwimOk) := fun hs =>
    ⟨fun _ => hs.tracked h, False.elim⟩
  cases op with
  | rankAdd env rank uri =>
    obtain ⟨g', hcall, rfl⟩ := onPrim_eq_ok hexec
    refine swim_of_adds h (addsInTurn_of_primaryAdd rfl hcall) (fun x hx => ?_) hlisted
    rw [mem_singleton.mp hx]
    exact hvalid
  | selfSet env rank uri =>
    rw [exec, h.view, if_neg Bool.false_ne_true] at hexec
    obtain ⟨g', hcall, rfl⟩ := onPrim_eq_ok hexec
    exact ⟨fun _ => tracked_crtRankSelfSet h hvalid rfl hcall, False.elim⟩
  | rankRemove rank =>
    obtain ⟨hrecord, heq⟩ := prim_crtGroupRankRemove h.toRanked hvalid (Except.ok.inj hexec)
    rw [heq]
    exact ⟨fun _ => h.left (h.toRanked.left hvalid) fun _ => hrecord, False.elim⟩
  | modify envs ranks uris op => exact modify_swim hvalid h hexec hlisted
  | configLoad file =>
    obtain ⟨g', hcall, rfl⟩ := onPrim_eq_ok hexec
    exact swim_of_adds h (addsInTurn_of_crtGrpConfigPsrLoad hcall) hvalid hlisted
  | psrReload uri file =>
    obtain ⟨g', hcall, rfl⟩ := onPrim_eq_ok hexec
    rw [crtGrpPsrReload] at hcall
    split at hcall
    · cases hcall
    · dsimp only at hcall
      split at hcall
      · cases hcall
      · split_ifs at hcall with huri
        · cases hcall
          have hpsr : SameRanks w.prim { w.prim with gpPsrRank := u32 (w.prim.gpPsrRank + 1) % w.prim.gpSize } :=
            ⟨rfl, rfl, rfl, rfl, rfl, rfl⟩
          refine ⟨fun _ => hpsr.tracked h, fun hs => ?_⟩
          rw [hs.1] at huri
          cases huri
        · obtain ⟨hkept, hstray⟩ := swim_of_adds h (addsInTurn_of_crtGrpConfigPsrLoad hcall) hvalid hlisted
          exact ⟨fun hs => hkept fun hs' => hs ⟨Bool.eq_false_iff.mpr huri, hs'⟩, fun hs => hstray hs.2⟩
  | uriInsert rank =>
    cases hexec
    exact hsame (sameRanks_crtGrpLcUriInsert _ rank true)
  | secCreate | secDestroy i =>
    cases hexec
    exact hsame (.refl _)
  | secRankAdd i env secRank primRank | secRankRemove i rank
  | secModify i envs secRanks primRanks op =>
    obtain ⟨sec, sec', _, _, rfl⟩ := onSec_eq_ok rfl hexec
    exact hsame (.refl _)

end GrpWorld

/-! ### Runs -/

/-- The runs of calls that succeed and do not part ring and list, from the start of a
service on. -/
@[reducible]
def trackedRuns : Lts GrpWorld GrpOp :=
  (okRuns true (.crtPrimaryGrpInit true)).restrict fun w op => ¬ w.Strays op

theorem trackedRuns_tracked :
    trackedRuns.Invariant fun w => w.Ok ((GrpPriv.crtPrimaryGrpInit true).gpSize = 0) False ∧ w.prim.Tracked where
  init := by
    rintro w rfl
    exact ⟨ok_of_starts False (.inl rfl), ⟨rfl, rfl, .nil, rfl⟩, rfl, .nil, .nil, fun _ => rfl⟩
  step := by
    rintro w op w' ⟨hok, htracked⟩ ⟨⟨⟨henabled, hvalid⟩, hsucceeds⟩, hstrays⟩ hstep
    have hexec := hsucceeds.exec (.crtPrimaryGrpInit true) hstep
    have hok' := ok_of_exec hok henabled hvalid False.elim hexec
    exact ⟨hok', (GrpWorld.exec_swim hvalid htracked hexec (hok'.prim.list rfl)).1 hstrays⟩

/-- **SWIM targets follow membership** in every run whose calls do not part ring and list; and
after one more call exactly if it does not part them either. -/
theorem group_swim_targets (hw : trackedRuns.Reach w) :
    w.prim.SwimOk ∧ ∀ op w', op.RanksValid → w.exec true op = .ok (0, w') →
      (w'.prim.SwimOk ↔ ¬ w.Strays op) := by
  obtain ⟨hok, htracked⟩ := trackedRuns_tracked.reach hw
  refine ⟨htracked.swimOk, fun op w' hvalid hexec => ?_⟩
  have henabled : w.Enabled true op := by
    rw [GrpWorld.Enabled, hexec]
    exact trivial
  have hok' := ok_of_exec hok henabled hvalid False.elim hexec
  obtain ⟨hkept, hstray⟩ := GrpWorld.exec_swim hvalid htracked hexec (hok'.prim.list rfl)
  exact ⟨fun hswim hs => hstray hs hswim, fun hs => (hkept hs).swimOk⟩

/-- A service adds two ranks, and replaces one of them by a third. -/
theorem group_swim_targets_replaced :
    ∃ w, trackedRuns.Reach w ∧ w.prim.gpMembs.cgmLinearList = [0, 1, 2] ∧ w.prim.SwimOk ∧
      ∃ w', w.exec true (.modify (fun _ => easyAdd) [0, 2, 3] (some fun _ => true) .replace) = .ok (0, w') ∧
        w'.prim.SwimOk := by
  obtain ⟨w, hw, hlinear, hsucceeds, hstrays⟩ : ∃ w, trackedRuns.Reach w ∧
      w.prim.gpMembs.cgmLinearList = [0, 1, 2] ∧
      w.Succeeds true (.modify (fun _ => easyAdd) [0, 2, 3] (some fun _ => true) .replace) ∧
      ¬ w.Strays (.modify (fun _ => easyAdd) [0, 2, 3] (some fun _ => true) .replace) :=
    Lts.exists_reach_of_exec [.selfSet easyAdd 0 true, .rankAdd easyAdd 1 true, .rankAdd easyAdd 2 true]
      ⟨_, []⟩ rfl (by decide +kernel)
  obtain ⟨hswim, hop⟩ := group_swim_targets hw
  obtain ⟨w', hcall⟩ := hsucceeds.exists_exec
  exact ⟨w, hw, hlinear, hswim, w', hcall, (hop _ w' (by decide) hcall).mpr hstrays⟩

/-- Ring and list differ after the rank of the process is removed and added, or another is
added, or it has no URIs. -/
theorem group_swim_targets_astray :
    (∃ w, (okRuns true (.crtPrimaryGrpInit true)).Reach w ∧ w.prim.gpMembs.cgmLinearList = [0, 1] ∧
      w.prim.gpMembsSwim.csmHead = [1]) ∧
    (∃ w, (okRuns true (.crtPrimaryGrpInit true)).Reach w ∧ w.prim.gpMembs.cgmLinearList = [1] ∧
      w.prim.gpMembsSwim.csmHead = [0, 1]) ∧
    ∃ w, (okRuns true (.crtPrimaryGrpInit true)).Reach w ∧ w.prim.gpMembs.cgmLinearList = [0] ∧
      w.prim.gpMembsSwim.csmHead = [] := by
  refine ⟨?_, ?_, ?_⟩
  · exact Lts.exists_reach_of_exec [.selfSet easyAdd 0 true, .rankAdd easyAdd 1 true, .rankRemove 0,
      .rankAdd easyAdd 0 true] ⟨_, []⟩ rfl (by decide +kernel)
  · exact Lts.exists_reach_of_exec [.selfSet easyAdd 0 true, .rankRemove 0, .rankAdd easyAdd 1 true]
      ⟨_, []⟩ rfl (by decide +kernel)
  · exact Lts.exists_reach_of_exec [.selfSet easyAdd 0 false,
      .modify (fun _ => easyAdd) [0] none .remove] ⟨_, []⟩ rfl (by decide +kernel)

end Cart
