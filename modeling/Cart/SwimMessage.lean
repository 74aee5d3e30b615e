/-
The messages of SWIM (`swim_updates_send`).

A message has the member it is about, self, and what is recent in the list of updates.
The loop over this list fills the message, drops members that are gone, counts how often
an entry has been passed on, and cuts the list once the message is full.

Main results: `updatesLoop_spec`, `swimUpdatesSend_cases`, `updates_send_message`.
-/
import Cart.SwimSpec

open List

namespace Cart

open SwimMemberUpdate

namespace SwimContext

variable {ctx : SwimContext} {id nupds : ℕ} {item : SwimItem} {items : List SwimItem}
  {upds upds' : List SwimMemberUpdate} {r : List SwimMemberUpdate × List SwimItem}

/-! ### The loop -/

/-- The entries of the list that can be put in a message about `id`. -/
def recent (ctx : SwimContext) (id : ℕ) (items : List SwimItem) : List SwimMemberUpdate :=
  items.filterMap fun item =>
    if item.siId ≠ id ∧ item.siId ≠ ctx.scSelf then
      (ctx.members item.siId).map fun state => ⟨item.siId, state⟩
    else none

/-- An entry that stays has been counted once more, and is that of a member. -/
structure PassedOn (ctx : SwimContext) (id : ℕ) (items : List SwimItem) (item' : SwimItem) : Prop where
  counted : ∃ item ∈ items, item' = { item with u := item.u + 1 }
  bound : item'.u ≤ ctx.scPiggybackTxMax
  who : item'.siId = id ∨ item'.siId = ctx.scSelf ∨ ctx.members item'.siId ≠ none

theorem PassedOn.cons {item' : SwimItem} (h : PassedOn ctx id items item') :
    PassedOn ctx id (item :: items) item' :=
  ⟨h.counted.imp fun _ hold => hold.imp_left (mem_cons_of_mem _), h.bound, h.who⟩

/-- The message and the list after the loop. -/
structure Looped (ctx : SwimContext) (id nupds : ℕ) (items : List SwimItem)
    (upds : List SwimMemberUpdate) (r : List SwimMemberUpdate × List SwimItem) : Prop where
  message : r.1 = upds ++ (ctx.recent id items).take (nupds - upds.length)
  sublist : (ids r.2).Sublist (ids items)
  passed : ∀ item' ∈ r.2, PassedOn ctx id items item'
  others : ((ids r.2).filter fun x => x ≠ id ∧ x ≠ ctx.scSelf).length ≤ nupds - upds.length

theorem Looped.drop (h : Looped ctx id nupds items upds r)
    (hmessage : (ctx.recent id (item :: items)).take (nupds - upds.length) =
      (ctx.recent id items).take (nupds - upds.length)) :
    Looped ctx id nupds (item :: items) upds r :=
  ⟨hmessage ▸ h.message, h.sublist.cons _, fun item' hmem => (h.passed item' hmem).cons, h.others⟩

/-- The entry has been passed on, and stays if this was not too often. -/
theorem Looped.pass (h : Looped ctx id nupds items upds' r)
    (hmessage : upds' ++ (ctx.recent id items).take (nupds - upds'.length) =
      upds ++ (ctx.recent id (item :: items)).take (nupds - upds.length))
    (hwho : item.siId = id ∨ item.siId = ctx.scSelf ∨ ctx.members item.siId ≠ none)
    (hroom : nupds - upds'.length + ([item.siId].filter fun x => x ≠ id ∧ x ≠ ctx.scSelf).length ≤
      nupds - upds.length) :
    Looped ctx id nupds (item :: items) upds
      (if ctx.scPiggybackTxMax < item.u + 1 then r else (r.1, { item with u := item.u + 1 } :: r.2)) := by
  have hothers := h.others
  split_ifs with hmax
  · exact ⟨h.message.trans hmessage, h.sublist.cons _, fun item' hmem => (h.passed item' hmem).cons,
      by omega⟩
  · refine ⟨h.message.trans hmessage, h.sublist.cons_cons _, ?_, ?_⟩
    · refine forall_mem_cons.mpr ⟨⟨⟨item, mem_cons_self, rfl⟩, not_lt.mp hmax, hwho⟩, ?_⟩
      exact fun item' hmem => (h.passed item' hmem).cons
    · rw [ids_cons, ← singleton_append, filter_append, length_append]
      exact (Nat.add_le_add_left hothers _).trans ((Nat.add_comm _ _).trans_le hroom)

theorem updatesLoop_spec (ctx : SwimContext) (id nupds : ℕ) (items : List SwimItem) :
    ∀ upds, Looped ctx id nupds items upds (updatesLoop ctx id nupds items upds) := by
  induction items with
  | nil => exact fun upds => ⟨by simp [updatesLoop, recent], .refl _, by simp [updatesLoop], Nat.zero_le _⟩
  | cons item items ih =>
    intro upds
    rw [updatesLoop]
    by_cases hfull : nupds ≤ upds.length
    · rw [if_pos hfull]
      refine (ih upds).drop ?_
      rw [Nat.sub_eq_zero_of_le hfull, take_zero, take_zero]
    rw [if_neg hfull]
    by_cases hother : item.siId ≠ id ∧ item.siId ≠ ctx.scSelf
    · rw [if_pos hother]
      cases hstate : ctx.members item.siId with
      | none => exact (ih upds).drop (by simp [recent, hother, hstate])
      | some state =>
        have hsub : nupds - upds.length = nupds - (upds.length + 1) + 1 := by omega
        refine (ih _).pass ?_ (.inr (.inr (hstate ▸ Option.some_ne_none _))) ?_
        · rw [hsub]
          simp [recent, hother, hstate]
        · simp [hother, hsub]
    · rw [if_neg hother]
      refine (ih upds).pass (by simp [recent, hother]) ?_ ?_
      · rw [← or_assoc]
        exact .inl (not_and_or.mp hother |>.imp not_not.mp not_not.mp)
      · rw [filter_cons_of_neg (by simpa using hother)]
        exact le_rfl

/-! ### Messages -/

/-- What the loop of a message about `id` starts with. -/
def firstUpdates (ctx : SwimContext) (id : ℕ) (state self : SwimMemberState) :
    List SwimMemberUpdate :=
  if id ≠ ctx.scSelf then [⟨id, state⟩, ⟨ctx.scSelf, self⟩] else [⟨id, state⟩]

/-- There is an error before the loop, and nothing changes, or there is a message, which may
not be sent. -/
theorem swimUpdatesSend_cases (alloc : Bool) (ctx : SwimContext) (id sendTo : ℕ) :
    (∃ e ≠ 0, ∀ rc, ctx.swimUpdatesSend ⟨alloc, rc⟩ id sendTo = (e, none, ctx)) ∨
    ∃ state self r, ctx.members id = some state ∧ ctx.members ctx.scSelf = some self ∧
      Looped ctx id (swimPiggybackEntries + (ctx.firstUpdates id state self).length)
        ctx.scUpdates (ctx.firstUpdates id state self) r ∧
      ∀ rc, ctx.swimUpdatesSend ⟨alloc, rc⟩ id sendTo =
        (rc, if rc ≠ 0 then none else some r.1, { ctx with scUpdates := r.2 }) := by
  by_cases hinval : id = swimIdInvalid ∨ sendTo = swimIdInvalid
  · exact .inl ⟨-eInval, by decide, fun rc => by rw [swimUpdatesSend, if_pos hinval]⟩
  by_cases halloc : alloc = false
  · exact .inl ⟨-eNomem, by decide, fun rc => by rw [swimUpdatesSend, if_neg hinval, if_pos halloc]⟩
  simp only [swimUpdatesSend, if_neg hinval, if_neg halloc]
  -- sending may fail after the loop
  have hsend (r : List SwimMemberUpdate × List SwimItem) (rc : ℤ) :
      (if rc ≠ 0 then (rc, none, { ctx with scUpdates := r.2 })
        else (0, some r.1, { ctx with scUpdates := r.2 })) =
      (rc, if rc ≠ 0 then none else some r.1, { ctx with scUpdates := r.2 }) := by
    by_cases hrc : rc = 0
    · simp [hrc]
    · simp [hrc]
  cases hid : ctx.members id with
  | none => exact .inl ⟨-derNonexist, by decide, fun rc => rfl⟩
  | some state =>
    dsimp only
    by_cases hne : id ≠ ctx.scSelf
    · cases hself : ctx.members ctx.scSelf with
      | none =>
        refine .inl ⟨-derNonexist, by decide, fun rc => ?_⟩
        rw [if_pos hne]
      | some self =>
        refine .inr ⟨state, self, _, rfl, rfl, updatesLoop_spec .., fun rc => ?_⟩
        rw [if_pos hne, firstUpdates, if_pos hne]
        exact hsend _ rc
    · refine .inr ⟨state, state, _, rfl, not_not.mp hne ▸ hid, updatesLoop_spec .., fun rc => ?_⟩
      rw [if_neg hne, firstUpdates, if_neg hne]
      exact hsend _ rc

theorem mem_recent {upd : SwimMemberUpdate} (h : upd ∈ ctx.recent id items) :
    (upd.smuId ≠ id ∧ upd.smuId ≠ ctx.scSelf) ∧ ctx.members upd.smuId = some upd.smuState := by
  obtain ⟨item, -, heq⟩ := mem_filterMap.mp h
  split at heq
  · rename_i hother
    obtain ⟨state, hstate, rfl⟩ := Option.map_eq_some_iff.mp heq
    exact ⟨hother, hstate⟩
  · cases heq

theorem recent_sublist (id : ℕ) (items : List SwimItem) :
    ((ctx.recent id items).map smuId).Sublist (ids items) := by
  induction items with
  | nil => exact .refl _
  | cons item items ih =>
    rw [recent, filterMap_cons, ids_cons]
    split
    · exact ih.cons _
    · rename_i upd heq
      have hid : upd.smuId = item.siId := by
        split at heq
        · obtain ⟨state, -, rfl⟩ := Option.map_eq_some_iff.mp heq
          rfl
        · cases heq
      rw [map_cons, hid]
      exact ih.cons_cons _

section

variable {state self : SwimMemberState} (hid : ctx.members id = some state)
  (hself : ctx.members ctx.scSelf = some self)
include hid hself

/-- The entries in front are those of the member and of self. -/
theorem firstUpdates_spec : ((ctx.firstUpdates id state self).map smuId).Nodup ∧
    (ctx.firstUpdates id state self).head? = some ⟨id, state⟩ ∧
    ctx.scSelf ∈ (ctx.firstUpdates id state self).map smuId ∧
    ∀ upd ∈ ctx.firstUpdates id state self, (upd.smuId = id ∨ upd.smuId = ctx.scSelf) ∧
      ctx.members upd.smuId = some upd.smuState := by
  rw [firstUpdates]
  split_ifs with hne
  · simp [hne, hid, hself]
  · simp [not_not.mp hne, ← hid]

/-- A message passes on what is stored. -/
theorem Looped.stored (h : Looped ctx id nupds items (ctx.firstUpdates id state self) r) :
    ∀ upd ∈ r.1, ctx.members upd.smuId = some upd.smuState := by
  rw [h.message]
  exact forall_mem_append.mpr ⟨fun upd hupd => ((firstUpdates_spec hid hself).2.2.2 upd hupd).2,
    fun upd hupd => (mem_recent (mem_of_mem_take hupd)).2⟩

end

/-- **A message.**  It has the member that it is about in front, and self, and the first eight
other entries of the list whose members are still there, all with the state that is stored.
Of the list ten entries are left at most, in their order, and all of members. -/
theorem updates_send_message {env : UpdatesEnv} {sendTo : ℕ} (hnodup : (ids ctx.scUpdates).Nodup)
    (hrc : (ctx.swimUpdatesSend env id sendTo).1 = 0) :
    ∃ upds ctx', ctx.swimUpdatesSend env id sendTo = (0, some upds, ctx') ∧
      (upds.map SwimMemberUpdate.smuId).Nodup ∧
      (upds.head?.map SwimMemberUpdate.smuId = some id ∧
        ctx.scSelf ∈ upds.map SwimMemberUpdate.smuId) ∧
      (∀ upd ∈ upds, ctx.members upd.smuId = some upd.smuState) ∧
      upds.filter (fun upd => upd.smuId ≠ id ∧ upd.smuId ≠ ctx.scSelf) =
        (ctx.recent id ctx.scUpdates).take swimPiggybackEntries ∧
      ctx'.scUpdates.length ≤ swimPiggybackEntries + 2 ∧ (ids ctx'.scUpdates).Nodup ∧
      (ids ctx'.scUpdates).Sublist (ids ctx.scUpdates) ∧
      ∀ item ∈ ctx'.scUpdates, ctx.members item.siId ≠ none := by
  obtain ⟨alloc, rc⟩ := env
  rcases swimUpdatesSend_cases alloc ctx id sendTo with
    ⟨e, hne, heq⟩ | ⟨state, self, r, hid, hself, hloop, heq⟩
  · exact absurd hrc (by rw [heq rc]; exact hne)
  have heq := heq rc
  obtain rfl : rc = 0 := by rwa [heq] at hrc
  have hmessage := hloop.message
  have hothers := hloop.others
  rw [Nat.add_sub_cancel] at hmessage hothers
  obtain ⟨hdistinct, hhead, hmem, hfirst⟩ := firstUpdates_spec hid hself
  have htake : ((ctx.recent id ctx.scUpdates).take swimPiggybackEntries).Sublist
      (ctx.recent id ctx.scUpdates) := take_sublist _ _
  have hleft := hnodup.sublist hloop.sublist
  refine ⟨_, _, heq, ?_, ⟨?_, ?_⟩, hloop.stored hid hself, ?_, ?_, hleft, hloop.sublist,
    fun item hitem => ?_⟩
  · rw [hmessage, map_append]
    refine nodup_append.mpr ⟨hdistinct, hnodup.sublist ((htake.map _).trans (recent_sublist _ _)), ?_⟩
    rintro _ hx _ hy rfl
    obtain ⟨upd, hupd, hx⟩ := List.mem_map.mp hx
    obtain ⟨upd', hupd', hy⟩ := List.mem_map.mp hy
    have hother := (mem_recent (htake.subset hupd')).1
    rw [hy, ← hx] at hother
    exact (hfirst upd hupd).1.elim hother.1 hother.2
  · rw [hmessage, head?_append, hhead]
    rfl
  · rw [hmessage, map_append]
    exact mem_append_left _ hmem
  · have hnone : (ctx.firstUpdates id state self).filter
        (fun upd => upd.smuId ≠ id ∧ upd.smuId ≠ ctx.scSelf) = [] := by
      refine filter_eq_nil_iff.mpr fun upd hupd hother => ?_
      exact (hfirst upd hupd).1.elim (of_decide_eq_true hother).1 (of_decide_eq_true hother).2
    rw [hmessage, filter_append, hnone, nil_append]
    exact filter_eq_self.mpr fun upd hupd =>
      decide_eq_true (mem_recent (htake.subset hupd)).1
  · -- besides those counted there are entries of the two members at most
    have htwo : (ids r.2).filter (fun x => ¬ (x ≠ id ∧ x ≠ ctx.scSelf)) ⊆ [id, ctx.scSelf] := by
      intro x hx
      have hx := of_decide_eq_true (mem_filter.mp hx).2
      rw [not_and_or, not_not, not_not] at hx
      simpa using hx
    have htwo := ((hleft.filter _).subperm htwo).length_le
    have hsplit := length_eq_length_filter_add (l := ids r.2)
      (fun x => decide (x ≠ id ∧ x ≠ ctx.scSelf))
    rw [ids, length_map] at hsplit
    simp only [length_cons, length_nil, decide_not] at htwo hsplit hothers ⊢
    rw [ids] at htwo hothers
    omega
  · rcases (hloop.passed item hitem).who with heq' | heq' | hwho
    · rw [heq', hid]
      exact Option.some_ne_none _
    · rw [heq', hself]
      exact Option.some_ne_none _
    · exact hwho

/-- Self and one member, about which there was a notification. -/
def notified : SwimContext :=
  ((swimInit 0 fun id => if id < 2 then some ⟨0, .alive⟩ else none).swimUpdatesNotify
    ⟨0, true, true⟩ 1 1 ⟨1, .alive⟩).2

/-- Entries about fourteen ids, of which twelve are members. -/
def crowded : SwimContext :=
  { swimInit 0 fun id => if id < 12 then some ⟨id, .alive⟩ else none with
    scUpdates := (List.range 14).map fun id => ⟨id, 0, 0⟩ }

theorem updates_send_crowded : ∃ upds ctx', crowded.swimUpdatesSend ⟨true, 0⟩ 3 5 = (0, some upds, ctx') ∧
    (upds.map SwimMemberUpdate.smuId).Nodup ∧
    (upds.filter fun upd => upd.smuId ≠ 3 ∧ upd.smuId ≠ crowded.scSelf).map SwimMemberUpdate.smuId =
      [1, 2, 4, 5, 6, 7, 8, 9] ∧ ctx'.scUpdates.length ≤ 10 := by
  have hrc : (crowded.swimUpdatesSend ⟨true, 0⟩ 3 5).1 = 0 := by decide
  obtain ⟨upds, ctx', heq, hdistinct, _, _, hothers, hlen, _⟩ := updates_send_message (by decide) hrc
  refine ⟨upds, ctx', heq, hdistinct, ?_, hlen⟩
  rw [hothers]
  decide

end SwimContext

end Cart
