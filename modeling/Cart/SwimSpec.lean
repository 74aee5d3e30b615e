/-
What one update about a member does.

The three functions that apply an update ignore it for the same reasons, given
by the stored state (`Ignores`), and otherwise write the new state and adjust the
lists (`Applied`).  All that is proved about the engine goes through these two.

Main result: `merge_eq`.
-/
import Cart.Swim

open List

namespace Cart

/-! ### Lists of items -/

/-- The members in a list of items. -/
def ids (l : List SwimItem) : List ℕ := l.map SwimItem.siId

@[simp] theorem ids_nil : ids [] = [] := rfl

@[simp] theorem ids_cons (i : SwimItem) (l : List SwimItem) : ids (i :: l) = i.siId :: ids l := rfl

@[simp] theorem ids_append (l l' : List SwimItem) : ids (l ++ l') = ids l ++ ids l' :=
  map_append

theorem hasItem_iff {id : ℕ} {l : List SwimItem} : hasItem id l = true ↔ id ∈ ids l := by
  simp [hasItem, ids]

theorem ids_updateItem {f : SwimItem → SwimItem} (hf : ∀ i, (f i).siId = i.siId) (id : ℕ)
    (l : List SwimItem) : ids (updateItem id f l) = ids l := by
  induction l with
  | nil => rfl
  | cons i l ih =>
    rw [updateItem]
    split
    · rw [ids_cons, hf, ids_cons]
    · rw [ids_cons, ih, ids_cons]

theorem ids_removeItem (id : ℕ) (l : List SwimItem) : ids (removeItem id l) = (ids l).erase id := by
  induction l with
  | nil => rfl
  | cons i l ih =>
    rw [removeItem, eraseP_cons, ids_cons, erase_cons]
    by_cases hi : i.siId = id
    · simp [hi]
    · simpa [hi, removeItem] using ih

theorem removeItem_of_notMem {id : ℕ} {l : List SwimItem} (h : id ∉ ids l) : removeItem id l = l := by
  refine eraseP_of_forall_not fun i hi hid => h ?_
  rw [← of_decide_eq_true hid]
  exact mem_map_of_mem hi

/-! ### Kinds of updates -/

/-- What a message can say about a member that is not ignored at once. -/
inductive UpdateKind where
  | alive
  | suspect
  | dead
  deriving DecidableEq

def UpdateKind.status : UpdateKind → SwimMemberStatus
  | .alive => .alive
  | .suspect => .suspect
  | .dead => .dead

/-- An update with the incarnation `nr` is old, or is about a dead member. -/
def Ignores (kind : UpdateKind) (nr : ℕ) (state : SwimMemberState) : Prop :=
  nr ≤ state.smsIncarnation ∧
    (state.smsStatus = .dead ∨ state.smsStatus = kind.status ∨ nr < state.smsIncarnation)
deriving Decidable

/-- The state after an update. -/
def SwimMemberState.merge (state : SwimMemberState) (kind : UpdateKind) (nr : ℕ) : SwimMemberState :=
  if Ignores kind nr state then state else ⟨nr, kind.status⟩

namespace SwimContext

variable {ctx ctx' ctx'' : SwimContext} {env : CallEnv} {frm id nr : ℕ}
  {state new : SwimMemberState}

/-- The function for a kind of update. -/
def swimMember (kind : UpdateKind) (env : CallEnv) (ctx : SwimContext) (frm id nr : ℕ) :
    ℤ × SwimContext :=
  match kind with
  | .alive => ctx.swimMemberAlive env frm id nr
  | .suspect => ctx.swimMemberSuspect env frm id nr
  | .dead => ctx.swimMemberDead env frm id nr

/-- What the state machine and the choice of targets depend on has not changed. -/
structure Frame (ctx ctx' : SwimContext) : Prop where
  self : ctx'.scSelf = ctx.scSelf
  state : ctx'.scState = ctx.scState
  target : ctx'.scTarget = ctx.scTarget

theorem Frame.refl (ctx : SwimContext) : Frame ctx ctx := ⟨rfl, rfl, rfl⟩

theorem Frame.trans (h : Frame ctx ctx') (h' : Frame ctx' ctx'') : Frame ctx ctx'' :=
  ⟨h'.self.trans h.self, h'.state.trans h.state, h'.target.trans h.target⟩

/-- The list of suspects after the state `new` of `id` was written: `id` is in it
if it is suspected. -/
inductive SuspectsAfter (id : ℕ) (new : SwimMemberState) (l l' : List SwimItem) : Prop
  | removed (hstatus : new.smsStatus ≠ .suspect) (hl : l' = removeItem id l)
  | kept (hstatus : new.smsStatus = .suspect) (hid : id ∈ ids l) (hl : l' = l)
  | added (hstatus : new.smsStatus = .suspect) (hid : id ∉ ids l) (item : SwimItem)
      (hitem : item.siId = id) (hl : l' = l ++ [item])

/-- The member `id` has the new state `new`. -/
structure Applied (id : ℕ) (new : SwimMemberState) (ctx ctx' : SwimContext) : Prop where
  members : ctx'.members = Function.update ctx.members id (some new)
  suspects : SuspectsAfter id new ctx.scSuspects ctx'.scSuspects
  updates : (ids ctx.scUpdates).Nodup → (ids ctx'.scUpdates).Nodup
  frame : Frame ctx ctx'

section

variable (h : Applied id new ctx ctx') (hnd : (ids ctx.scSuspects).Nodup)

include h hnd

theorem Applied.nodup : (ids ctx'.scSuspects).Nodup := by
  cases h.suspects with
  | removed _ hl =>
    rw [hl, ids_removeItem]
    exact hnd.erase id
  | kept _ _ hl =>
    rw [hl]
    exact hnd
  | added _ hid item hitem hl =>
    rw [hl, ids_append, ids_cons, ids_nil, hitem]
    simpa using hnd.concat hid

/-- Who is in the list of suspects was in it before, or has just got there. -/
theorem Applied.mem {x : ℕ} (hx : x ∈ ids ctx'.scSuspects) :
    x = id ∧ new.smsStatus = .suspect ∨ x ≠ id ∧ x ∈ ids ctx.scSuspects := by
  cases h.suspects with
  | removed _ hl =>
    rw [hl, ids_removeItem, hnd.mem_erase_iff] at hx
    exact .inr hx
  | kept hstatus _ hl =>
    rw [hl] at hx
    by_cases hxid : x = id
    · exact .inl ⟨hxid, hstatus⟩
    · exact .inr ⟨hxid, hx⟩
  | added hstatus _ item hitem hl =>
    rw [hl, ids_append, ids_cons, ids_nil, hitem] at hx
    by_cases hxid : x = id
    · exact .inl ⟨hxid, hstatus⟩
    · rw [mem_append, mem_singleton, or_iff_left hxid] at hx
      exact .inr ⟨hxid, hx⟩

end

/-- `swim_updates_notify` for a member. -/
theorem swimUpdatesNotify_spec (hid : ctx.members id = some state) (env : CallEnv) (frm : ℕ)
    (new : SwimMemberState) : (ctx.swimUpdatesNotify env frm id new).1 = 0 ∧
    (ctx.swimUpdatesNotify env frm id new).2.members = Function.update ctx.members id (some new) ∧
    (ctx.swimUpdatesNotify env frm id new).2.scSuspects = ctx.scSuspects ∧
    ((ids ctx.scUpdates).Nodup → (ids (ctx.swimUpdatesNotify env frm id new).2.scUpdates).Nodup) ∧
    Frame ctx (ctx.swimUpdatesNotify env frm id new).2 := by
  rw [swimUpdatesNotify, setMemberState]
  rw [hid]
  refine ⟨rfl, rfl, rfl, fun hnd => ?_, ⟨rfl, rfl, rfl⟩⟩
  dsimp only
  split
  · have hsame := ids_updateItem (f := fun item => { item with siFrom := frm, u := 0 }) (fun _ => rfl) id
      ctx.scUpdates
    rw [hsame]
    exact hnd
  · rename_i hno
    split
    · exact nodup_cons.mpr ⟨fun hmem => hno (hasItem_iff.mpr hmem), hnd⟩
    · exact hnd

/-- The same after the list of suspects was adjusted. -/
theorem Applied.of_notify {ctx₁ : SwimContext} (hid : ctx.members id = some state)
    (hmembers : ctx₁.members = ctx.members) (hupdates : ctx₁.scUpdates = ctx.scUpdates)
    (hframe : Frame ctx ctx₁) (hsuspects : SuspectsAfter id new ctx.scSuspects ctx₁.scSuspects)
    (env : CallEnv) (frm : ℕ) : Applied id new ctx (ctx₁.swimUpdatesNotify env frm id new).2 := by
  obtain ⟨_, hm, hs, hu, hf⟩ := swimUpdatesNotify_spec (hmembers ▸ hid) env frm new
  exact ⟨hmembers ▸ hm, hs ▸ hsuspects, fun hnd => hu (hupdates ▸ hnd), hframe.trans hf⟩

section

variable (kind : UpdateKind) (env : CallEnv) (ctx : SwimContext) (frm id nr : ℕ)

/-- **One update** is about nobody, ignored, finds no memory, or is applied. -/
theorem swimMember_cases : ctx.members id = none ∧ (ctx.swimMember kind env frm id nr).2 = ctx ∨
    ∃ state, ctx.members id = some state ∧
      ((Ignores kind nr state ∧ (ctx.swimMember kind env frm id nr).2 = ctx) ∨
       ¬ Ignores kind nr state ∧ kind = .suspect ∧ env.allocSuspect = false ∧
          (ctx.swimMember kind env frm id nr).2 = ctx ∨
       ¬ Ignores kind nr state ∧
          Applied id ⟨nr, kind.status⟩ ctx (ctx.swimMember kind env frm id nr).2) := by
  cases hid : ctx.members id with
  | none =>
    refine .inl ⟨rfl, ?_⟩
    cases kind with
    | alive => rw [swimMember, swimMemberAlive, hid]
    | suspect => rw [swimMember, swimMemberSuspect, if_neg (by decide), hid]
    | dead => rw [swimMember, swimMemberDead, hid]
  | some state =>
    refine .inr ⟨state, rfl, ?_⟩
    by_cases hig : Ignores kind nr state
    · refine .inl ⟨hig, ?_⟩
      obtain ⟨hle, hor⟩ := hig
      cases kind with
      | alive =>
        rw [swimMember, swimMemberAlive, hid]
        exact congrArg Prod.snd (if_pos ⟨hle, hor⟩)
      | suspect =>
        rw [swimMember, swimMemberSuspect, if_neg (by decide), hid]
        exact congrArg Prod.snd (if_pos ⟨hle, hor⟩)
      | dead =>
        rw [swimMember, swimMemberDead, hid]
        exact congrArg Prod.snd (if_pos ⟨hle, by simpa [UpdateKind.status] using hor⟩)
    · right
      have hguard := hig
      rw [Ignores] at hguard
      cases kind with
      | alive =>
        refine .inr ⟨hig, ?_⟩
        dsimp only [UpdateKind.status] at hguard ⊢
        rw [swimMember, swimMemberAlive, hid]
        dsimp only
        rw [if_neg hguard]
        split
        · refine .of_notify hid ?_ ?_ ?_ ?_ env frm
          exacts [rfl, rfl, ⟨rfl, rfl, rfl⟩, .removed (by simp) rfl]
        · rename_i hno
          refine .of_notify hid rfl rfl (.refl ctx) (.removed (by simp) ?_) env frm
          exact (removeItem_of_notMem fun hmem => hno (hasItem_iff.mpr hmem)).symm
      | suspect =>
        dsimp only [UpdateKind.status] at hguard ⊢
        rw [swimMember, swimMemberSuspect, if_neg (by decide), hid]
        dsimp only
        rw [if_neg hguard]
        split
        · rename_i hmem
          exact .inr ⟨hig, .of_notify hid rfl rfl (.refl ctx) (.kept rfl (hasItem_iff.mp hmem) rfl)
            env frm⟩
        rename_i hno
        split_ifs with halloc
        · exact .inl ⟨hig, rfl, halloc, rfl⟩
        · refine .inr ⟨hig, .of_notify hid ?_ ?_ ?_ ?_ env frm⟩
          exacts [rfl, rfl, ⟨rfl, rfl, rfl⟩,
            .added rfl (fun hmem => hno (hasItem_iff.mpr hmem)) _ rfl rfl]
      | dead =>
        refine .inr ⟨hig, ?_⟩
        dsimp only [UpdateKind.status] at hguard ⊢
        rw [swimMember, swimMemberDead, hid]
        dsimp only
        rw [if_neg fun h => hguard ⟨h.1, .inr h.2⟩]
        refine .of_notify hid ?_ ?_ ?_ ?_ env frm
        exacts [rfl, rfl, ⟨rfl, rfl, rfl⟩, .removed (by simp) rfl]

theorem swimMember_or : (ctx.swimMember kind env frm id nr).2 = ctx ∨
    ∃ state, ctx.members id = some state ∧ ¬ Ignores kind nr state ∧
      Applied id ⟨nr, kind.status⟩ ctx (ctx.swimMember kind env frm id nr).2 := by
  rcases swimMember_cases kind env ctx frm id nr with
    ⟨_, heq⟩ | ⟨state, hid, ⟨_, heq⟩ | ⟨_, _, _, heq⟩ | ⟨hnew, happ⟩⟩
  · exact .inl heq
  · exact .inl heq
  · exact .inl heq
  · exact .inr ⟨state, hid, hnew, happ⟩

end

theorem merge_eq (hid : ctx.members id = some state) {kind : UpdateKind}
    (halloc : env.allocSuspect = true) :
    (ctx.swimMember kind env frm id nr).2.members id = some (state.merge kind nr) := by
  rw [SwimMemberState.merge]
  rcases swimMember_cases kind env ctx frm id nr with ⟨hnone, _⟩ | ⟨state', hid', hcases⟩
  · exact absurd (hid.symm.trans hnone) (by simp)
  obtain rfl := Option.some.inj (hid.symm.trans hid')
  rcases hcases with ⟨hig, heq⟩ | ⟨_, _, hno, _⟩ | ⟨hig, happ⟩
  · rw [if_pos hig, heq, hid]
  · exact absurd (halloc.symm.trans hno) (by simp)
  · rw [if_neg hig, happ.members, Function.update_self]

end SwimContext

/-- Three members that are alive. -/
def threeMembers (id : ℕ) : Option SwimMemberState := if id < 3 then some ⟨0, .alive⟩ else none

end Cart
