/-
Additions that are taken back.

A rank that is added to a group goes into a free slot, between two parts of the list; when it
is removed again, the list is what it was.  A slot that is used for `CRT_NO_RANK` stays empty,
but is no longer free.

Main results: `PutIn`, `PutIn.add`, `PutIn.free_eq_nil_iff`, `Over`, `Over.removeSlot`.
-/
import Cart.GroupSpec

open List

namespace Cart

open FreeSlots

open CrtSwimMembs (RankAddEnv)

namespace GrpPriv

variable {g g' g'' : GrpPriv} {rank index : ℕ} {ranks : List ℕ} {m membs : CrtGrpMembs}
  {service : Bool} {env : RankAddEnv}

/-! ### The slot of a new rank -/

/-- The slot that an addition takes, and what it leaves. -/
inductive Opened (m : CrtGrpMembs) : ℕ → CrtGrpMembs → Prop
  | free {index : ℕ} {rest : List ℕ} (h : m.cgmFreeIndices = index :: rest) :
      Opened m index { m with cgmFreeIndices := rest }
  | grown (h : m.cgmFreeIndices = []) :
      Opened m m.cgmList.length { m with
        cgmFreeIndices := List.range' (m.cgmList.length + 1) (rankListReallocSize - 1)
        cgmList := m.cgmList ++ List.replicate rankListReallocSize crtNoRank }

/-- An addition takes a slot; all that can go wrong then is SWIM. -/
theorem opened_of_grpAddToMembsList {r : ℤ × GrpPriv}
    (hcall : g.grpAddToMembsList service env rank = .ok r) :
    ∃ index membs, Opened g.gpMembs index membs ∧ r = g.grpAddAt service env membs index rank := by
  rw [grpAddToMembsList] at hcall
  cases hfree : g.gpMembs.cgmFreeIndices with
  | cons index rest =>
    have hget : g.gpMembs.grpGetFreeIndex =
        some (index, { g.gpMembs with cgmFreeIndices := rest }) := by
      rw [CrtGrpMembs.grpGetFreeIndex, hfree]
    rw [hget] at hcall
    cases hcall
    exact ⟨_, _, .free hfree, rfl⟩
  | nil =>
    have hget : g.gpMembs.grpGetFreeIndex = none := by
      rw [CrtGrpMembs.grpGetFreeIndex, hfree]
    rw [hget, grow_eq, hfree] at hcall
    cases hcall
    exact ⟨_, _, .grown hfree, rfl⟩

namespace Opened

section

variable (h : Opened m index membs)

include h

theorem spare (hm : FreeSlots.Spare crtNoRank m.cgmList m.cgmFreeIndices) :
    FreeSlots.Spare crtNoRank membs.cgmList (index :: membs.cgmFreeIndices) := by
  cases h with
  | free hfree => rwa [hfree] at hm
  | grown => exact .grown crtNoRank m.cgmList rankListReallocSize

theorem occupied :
    FreeSlots.occupied crtNoRank membs.cgmList = FreeSlots.occupied crtNoRank m.cgmList := by
  cases h with
  | free => rfl
  | grown => exact occupied_grow rankListReallocSize

theorem keeps {i x : ℕ} (hi : m.cgmList[i]? = some x) (hused : i ∉ m.cgmFreeIndices) :
    membs.cgmList[i]? = some x ∧ i ∉ index :: membs.cgmFreeIndices := by
  cases h with
  | free hfree =>
    rw [hfree] at hused
    exact ⟨hi, hused⟩
  | grown =>
    have hlt := (List.getElem?_eq_some_iff.mp hi).1
    refine ⟨by rwa [getElem?_append_left hlt], fun hmem => ?_⟩
    have hle : m.cgmList.length ≤ i := by
      rcases mem_cons.mp hmem with heq | hnew
      · exact heq.ge
      · exact (Nat.le_succ _).trans (mem_range'_1.mp hnew).1
    omega

theorem length_free : membs.cgmFreeIndices.length =
    if m.cgmFreeIndices = [] then rankListReallocSize - 1 else m.cgmFreeIndices.length - 1 := by
  cases h with
  | free hfree =>
    rw [hfree, if_neg (cons_ne_nil _ _)]
    rfl
  | grown hfree =>
    rw [hfree, if_pos rfl]
    exact length_range'

end

end Opened

/-! ### Several additions -/

/-- `g'` has `ranks` beyond what `g` has. -/
structure Over (ranks : List ℕ) (g g' : GrpPriv) : Prop where
  size : g'.gpSize = g.gpSize + ranks.length
  slots : ∀ rank ∈ ranks, rank ∈ g'.gpMembs.cgmList
  occupied : g'.occupied.diff ranks = g.occupied

/-- `g'` is `g` after the addition of `ranks`, to slots that are free no longer. -/
structure PutIn (ranks : List ℕ) (g g' : GrpPriv) : Prop where
  spare : FreeSlots.Spare crtNoRank g'.gpMembs.cgmList g'.gpMembs.cgmFreeIndices
  size : g'.gpSize = g.gpSize + ranks.length
  used : ∀ rank ∈ ranks, ∃ i, g'.gpMembs.cgmList[i]? = some rank ∧ i ∉ g'.gpMembs.cgmFreeIndices
  occupied : g'.occupied.diff ranks = g.occupied
  within : ∀ rank ∈ g'.occupied, rank ∈ g.occupied ∨ rank ∈ ranks
  room : ∃ times, g'.gpMembs.cgmFreeIndices.length + ranks.length =
    g.gpMembs.cgmFreeIndices.length + rankListReallocSize * times ∧
    (times ≠ 0 → g'.gpMembs.cgmFreeIndices.length < rankListReallocSize)

theorem PutIn.nil (h : g.SlotsOk) : PutIn [] g g :=
  ⟨h.free.spare, rfl, fun _ hrank => absurd hrank not_mem_nil, rfl, fun _ => .inl,
    0, rfl, absurd rfl⟩

theorem PutIn.over (h : PutIn ranks g g') : Over ranks g g' :=
  ⟨h.size, fun rank hrank => (h.used rank hrank).elim fun _ hi => mem_of_getElem? hi.1, h.occupied⟩

theorem PutIn.add (h : PutIn ranks g g') (hg : rank ∉ g.occupied) (hnew : rank ∉ ranks)
    (hopen : Opened g'.gpMembs index membs)
    (hmembs : g''.gpMembs.cgmFreeIndices = membs.cgmFreeIndices ∧
      g''.gpMembs.cgmList = membs.cgmList.set index rank)
    (hsize : g''.gpSize = g'.gpSize + 1) : PutIn (ranks ++ [rank]) g g'' := by
  obtain ⟨hfree, hlist⟩ := hmembs
  have hspare := hopen.spare h.spare
  have hempty : membs.cgmList[index]? = some crtNoRank := hspare.isEmpty index mem_cons_self
  have hocc : FreeSlots.occupied crtNoRank membs.cgmList = g'.occupied := hopen.occupied
  have hout : rank ∉ g'.occupied := fun hmem => (h.within rank hmem).elim hg hnew
  refine ⟨?_, ?_, fun r hr => ?_, ?_, fun r hr => ?_, ?_⟩
  · rw [hlist, hfree]
    exact hspare.fill rank
  · rw [hsize, h.size, length_append]
    rfl
  · rw [hlist, hfree]
    rcases mem_append.mp hr with hold | hlast
    · obtain ⟨i, hi, hused⟩ := h.used r hold
      obtain ⟨hkept, hfar⟩ := hopen.keeps hi hused
      rw [mem_cons, not_or] at hfar
      exact ⟨i, by rw [getElem?_set_ne (Ne.symm hfar.1), hkept], hfar.2⟩
    · rw [mem_singleton.mp hlast]
      have hlt := (List.getElem?_eq_some_iff.mp hempty).1
      exact ⟨index, getElem?_set_self hlt, (nodup_cons.mp hspare.nodup).1⟩
  · -- the last rank goes out first
    have hback : g''.occupied.erase rank = g'.occupied := by
      rw [GrpPriv.occupied, hlist, erase_occupied_fill hempty (by rwa [hocc]), hocc]
    rw [diff_append, diff_cons, diff_nil, diff_erase, hback, h.occupied]
  · rw [GrpPriv.occupied, hlist] at hr
    obtain ⟨hmem, hne⟩ := mem_occupied.mp hr
    rcases mem_or_eq_of_mem_set hmem with hold | rfl
    · have hr' : r ∈ g'.occupied := hocc ▸ mem_occupied.mpr ⟨hold, hne⟩
      exact (h.within r hr').imp_right (mem_append_left _)
    · exact .inr (mem_append_right _ (mem_singleton.mpr rfl))
  · obtain ⟨times, hroom, hless⟩ := h.room
    have hlen := hopen.length_free
    rw [← hfree] at hlen
    rw [length_append, length_singleton]
    split_ifs at hlen with hnil
    · rw [hnil, length_nil] at hroom
      refine ⟨times + 1, ?_, fun _ => ?_⟩
      · rw [hlen, rankListReallocSize] at *
        omega
      · rw [hlen, rankListReallocSize]
        omega
    · have hpos := length_pos_iff.mpr hnil
      exact ⟨times, by omega, fun htimes => by have := hless htimes; omega⟩

theorem PutIn.free_eq_nil_iff (h : PutIn ranks g g') : g'.gpMembs.cgmFreeIndices = [] ↔
    g.gpMembs.cgmFreeIndices.length ≤ ranks.length ∧
    rankListReallocSize ∣ ranks.length - g.gpMembs.cgmFreeIndices.length := by
  obtain ⟨times, hroom, hless⟩ := h.room
  rw [← length_eq_zero_iff]
  constructor
  · intro hnil
    rw [hnil, Nat.zero_add] at hroom
    exact ⟨by omega, times, by omega⟩
  · rintro ⟨hle, k, hk⟩
    rw [rankListReallocSize] at *
    by_cases htimes : times = 0
    · subst htimes
      omega
    · have := hless htimes
      omega

/-! ### Taking them back -/

theorem occupied_removeSlot (g : GrpPriv) (rank : ℕ) :
    (g.removeSlot rank).occupied = g.occupied.erase rank := by
  rw [removeSlot]
  split
  · rename_i hnone
    refine (erase_of_not_mem fun hmem => ?_).symm
    exact idxOf?_eq_none_iff.mp hnone (mem_occupied.mp hmem).1
  · rename_i i hsome
    exact occupied_clear_eq hsome

theorem Over.removeSlot (h : Over (rank :: ranks) g g') (hnew : rank ∉ ranks) :
    Over ranks g (g'.removeSlot rank) ∧
    (ranks = [] → g.gpSize = g.occupied.length → (g'.removeSlot rank).Listed) := by
  have hocc : (g'.removeSlot rank).occupied.diff ranks = g.occupied := by
    rw [occupied_removeSlot, ← diff_cons, h.occupied]
  have hsize := h.size
  rw [length_cons] at hsize
  rw [GrpPriv.removeSlot] at hocc ⊢
  split
  · rename_i hnone
    exact absurd (h.slots rank mem_cons_self) (idxOf?_eq_none_iff.mp hnone)
  · rename_i i hsome
    rw [hsome] at hocc
    refine ⟨⟨?_, fun r hr => ?_, hocc⟩, ?_⟩
    · show g'.gpSize - 1 = _
      omega
    · -- the slot was not that of another rank
      obtain ⟨hlt, hget, _⟩ := idxOf?_eq_some_iff.mp hsome
      obtain ⟨j, hj⟩ := getElem?_of_mem (h.slots r (mem_cons_of_mem _ hr))
      have hne : i ≠ j := by
        rintro rfl
        rw [getElem?_eq_getElem hlt, Option.some.injEq, hget] at hj
        exact hnew (hj ▸ hr)
      exact mem_of_getElem? ((getElem?_set_ne hne).trans hj)
    · rintro rfl hg
      have hlen : g'.gpSize - 1 = g.occupied.length := by
        rw [hsize, hg, length_nil]
        omega
      exact grpRegenLinearList_listed (hlen.trans (congrArg length hocc.symm))

end GrpPriv

end Cart
