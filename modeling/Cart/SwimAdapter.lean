/-
SWIM below the group management (`crt_swim.c`).

The states of the members are kept in a ring of the primary group.  Ranks get into it and out
of it behind the engine's back, and a message that asks for an acknowledgement writes a state
when it completes; the engine's list of suspects knows nothing of this.

Main results: `swim_expiry_kills_suspects`, `swim_expiry_drains`.
-/
import Cart.SwimKill

open Function List Option

namespace Cart

/-! ### The ring of targets -/

/-- `csmHead` has the ids in the ring. -/
structure CrtSwimMembs where
  csmHead : List ℕ
  csmTarget : Option ℕ
  csmCtx : SwimNode
  wacks : List ℕ

/-- `D_CIRCLEQ_LOOP_NEXT`. -/
def loopNext (ring : List ℕ) (id : ℕ) : ℕ :=
  match ring.dropWhile fun x => x ≠ id with
  | _ :: next :: _ => next
  | _ => ring.headD id

/-- `D_CIRCLEQ_INSERT_AFTER`. -/
def insertAfter (target id : ℕ) : List ℕ → List ℕ
  | [] => [id]
  | x :: ring => if x = target then x :: id :: ring else x :: insertAfter target id ring

theorem insertAfter_perm (target id : ℕ) (ring : List ℕ) :
    (insertAfter target id ring).Perm (id :: ring) := by
  induction ring with
  | nil => exact .refl _
  | cons x ring ih =>
    rw [insertAfter]
    split
    · exact .swap id x ring
    · exact (ih.cons x).trans (.swap id x ring)

namespace CrtSwimMembs

variable (env : RankAddEnv) (m : CrtSwimMembs) (rank id : ℕ)

/-- `swim_self_set`. -/
def setSelf : CrtSwimMembs :=
  { m with csmCtx := { m.csmCtx with ctx := { m.csmCtx.ctx with scSelf := id } } }

/-- Writes the state in the ring, or takes it out. -/
def putState (state : Option SwimMemberState) : CrtSwimMembs :=
  { m with csmCtx := { m.csmCtx with
      ctx := { m.csmCtx.ctx with members := Function.update m.csmCtx.ctx.members id state } } }

def crtSwimRankDel : ℤ × CrtSwimMembs :=
  if rank ∈ m.csmHead then
    let next := m.csmTarget.map (loopNext m.csmHead)
    let m := { m with csmHead := m.csmHead.erase rank }.putState rank none
    (0, if m.csmHead = [] then { m.setSelf swimIdInvalid with csmTarget := none }
      else if m.csmTarget = some rank then { m with csmTarget := next }
      else m)
  else (-derNonexist, m)

/-- What an addition meets: the two allocations, and how far the target moves on. -/
structure RankAddEnv where
  allocFirst : Bool
  allocSecond : Bool
  turns : ℕ

/-- The rank is put behind the target, and the target moves on. -/
def insertRank : CrtSwimMembs :=
  let ring := insertAfter (m.csmTarget.getD 0) rank m.csmHead
  { m.putState rank (some ⟨0, .inactive⟩) with
    csmHead := ring
    csmTarget := m.csmTarget.map (loopNext ring)^[env.turns] }

def crtSwimRankAdd (gpSelf : ℕ) (m : CrtSwimMembs) (rank : ℕ) : ℤ × CrtSwimMembs :=
  let checkSelf := fun m : CrtSwimMembs =>
    if m.csmCtx.ctx.scSelf ≠ gpSelf then m.setSelf gpSelf else m
  if gpSelf = crtNoRank then (-derInval, m)
  else if env.allocFirst = false then (-derNomem, m)
  else
    match m.csmHead with
    | [] =>
      let m := { m.putState gpSelf (some ⟨0, .alive⟩) with csmHead := [gpSelf], csmTarget := some gpSelf }
      if rank ≠ gpSelf then
        if env.allocSecond = false then (-derNomem, (m.crtSwimRankDel gpSelf).2)
        else (0, checkSelf (m.insertRank env rank))
      else (0, checkSelf m)
    | _ :: _ =>
      if rank ∈ m.csmHead then (-derAlready, checkSelf m)
      else if rank ≠ gpSelf then (0, checkSelf (m.insertRank env rank))
      else (0, checkSelf m)

def crtSwimRankDelAll : CrtSwimMembs :=
  { m with
    csmHead := []
    csmTarget := none
    csmCtx := { m.csmCtx with ctx := { m.csmCtx.ctx with scSelf := swimIdInvalid, members := fun _ => none } } }

/-- For a request with acknowledgement. -/
def crtSwimCliCb (cciRc : ℤ) : CrtSwimMembs :=
  if cciRc ≠ 0 then
    match m.csmCtx.ctx.members id with
    | none => m
    | some state => m.putState id (some ⟨u64 (state.smsIncarnation + 1), .dead⟩)
  else m

/-- The requests of `crt_swim_send_message` with acknowledgement. -/
def withAck (msgs : List SwimMessage) : List ℕ :=
  (msgs.filter fun msg => msg.upds.head?.any fun upd => upd.smuState.smsStatus = .inactive).map
    fun msg => u32 msg.dst

end CrtSwimMembs

/-! ### Runs -/

/-- Steps of the engine, and calls of the functions above. -/
inductive AdapterEvent where
  | engine (e : SwimEvent)
  | rankAdd (env : CrtSwimMembs.RankAddEnv) (rank : ℕ)
  | rankDel (rank : ℕ)
  | rankDelAll
  | cliCb (id : ℕ) (cciRc : ℤ)
  -- `crt_swim_enable`, and `crt_swim_disable` or a shutdown
  | enable
  | disable

namespace CrtSwimMembs

def step (gpSelf : ℕ) (m : CrtSwimMembs) : AdapterEvent → CrtSwimMembs
  | .engine e =>
    let (node, msgs) := m.csmCtx.step e
    { m with csmCtx := node, wacks := m.wacks ++ withAck msgs }
  | .rankAdd env rank => (m.crtSwimRankAdd env gpSelf rank).2
  | .rankDel rank => (m.crtSwimRankDel rank).2
  | .rankDelAll => m.crtSwimRankDelAll
  | .cliCb id cciRc => { m with wacks := m.wacks.erase id }.crtSwimCliCb id cciRc
  | .enable => m.setSelf gpSelf
  | .disable => m.setSelf swimIdInvalid

/-- A request completes once. -/
def Enabled (m : CrtSwimMembs) : AdapterEvent → Prop
  | .engine e => m.csmCtx.Enabled e
  | .cliCb id _ => id ∈ m.wacks
  | .rankAdd _ _ | .rankDel _ | .rankDelAll | .enable | .disable => True

def crtSwimInit : CrtSwimMembs where
  csmHead := []
  csmTarget := none
  csmCtx := ⟨.swimInit swimIdInvalid fun _ => none, []⟩
  wacks := []

end CrtSwimMembs

/-- The runs of the engine with the functions of the adapter. -/
@[reducible]
def adapterLts (gpSelf : ℕ) : Lts CrtSwimMembs AdapterEvent where
  init m := m = .crtSwimInit
  enabled m e := m.Enabled e
  step m e := some (m.step gpSelf e)

instance (m : CrtSwimMembs) (e : AdapterEvent) : Decidable (m.Enabled e) := by
  cases e <;> dsimp only [CrtSwimMembs.Enabled] <;> infer_instance

/-! ### What the adapter writes -/

namespace CrtSwimMembs

variable {m : CrtSwimMembs} {gpSelf : ℕ} {new : ℕ → Prop}

/-- The states of the members. -/
def states (m : CrtSwimMembs) : ℕ → Option SwimMemberState := m.csmCtx.ctx.members

/-- The list of suspects of the engine. -/
def suspects (m : CrtSwimMembs) : List SwimItem := m.csmCtx.ctx.scSuspects

@[simp] theorem putState_states (m : CrtSwimMembs) (id : ℕ) (state : Option SwimMemberState) :
    (m.putState id state).states = Function.update m.states id state := rfl

/-- Suspects are as before, and so are the states but for who is gone, dead, or `new`. -/
structure Writes (new : ℕ → Prop) (m m' : CrtSwimMembs) : Prop where
  suspects : m'.suspects = m.suspects
  states : ∀ id state, m'.states id = some state →
    m.states id = some state ∨ state.smsStatus = .dead ∨ new id

theorem Writes.refl (new : ℕ → Prop) (m : CrtSwimMembs) : Writes new m m :=
  ⟨rfl, fun _ _ h => .inl h⟩

theorem Writes.trans {m' m'' : CrtSwimMembs} (h : Writes new m m')
    (h' : Writes new m' m'') : Writes new m m'' := by
  refine ⟨h'.suspects.trans h.suspects, fun id state hid => ?_⟩
  rcases h'.states id state hid with hid | hor
  · exact h.states id state hid
  · exact .inr hor

theorem writes_setSelf (new : ℕ → Prop) (m : CrtSwimMembs) (id : ℕ) : Writes new m (m.setSelf id) :=
  ⟨rfl, fun _ _ h => .inl h⟩

theorem writes_putState {id : ℕ} {state : Option SwimMemberState}
    (h : ∀ s, state = some s → s.smsStatus = .dead ∨ new id) : Writes new m (m.putState id state) := by
  refine ⟨rfl, fun x s hx => ?_⟩
  rw [putState_states] at hx
  by_cases hid : x = id
  · rw [hid, update_self] at hx
    exact .inr (hid ▸ h s hx)
  · rw [update_of_ne hid] at hx
    exact .inl hx

theorem writes_rankDel (new : ℕ → Prop) (m : CrtSwimMembs) (rank : ℕ) :
    Writes new m (m.crtSwimRankDel rank).2 := by
  rw [crtSwimRankDel]
  split
  swap
  · exact .refl new m
  have hput : Writes new m (m.putState rank none) := writes_putState fun s hs => by cases hs
  dsimp only
  split
  · exact ⟨hput.suspects, hput.states⟩
  split <;> exact ⟨hput.suspects, hput.states⟩

theorem writes_cliCb (new : ℕ → Prop) (m : CrtSwimMembs) (id : ℕ) (cciRc : ℤ) :
    Writes new m (m.crtSwimCliCb id cciRc) := by
  rw [crtSwimCliCb]
  split
  · split
    · exact .refl new m
    · refine writes_putState fun s hs => .inl ?_
      rw [← some.inj hs]
  · exact .refl new m

theorem writes_rankAdd (env : RankAddEnv) (gpSelf : ℕ) (m : CrtSwimMembs) (rank : ℕ)
    (hnew : ∀ id ∈ (m.crtSwimRankAdd env gpSelf rank).2.csmHead, id ∉ m.csmHead → new id) :
    Writes new m (m.crtSwimRankAdd env gpSelf rank).2 := by
  have hcheck : ∀ m' : CrtSwimMembs, Writes new m m' →
      Writes new m (if m'.csmCtx.ctx.scSelf ≠ gpSelf then m'.setSelf gpSelf else m') := by
    intro m' h
    split
    · exact h.trans (writes_setSelf _ m' gpSelf)
    · exact h
  have hhead : ∀ m' : CrtSwimMembs,
      (if m'.csmCtx.ctx.scSelf ≠ gpSelf then m'.setSelf gpSelf else m').csmHead = m'.csmHead := by
    intro m'
    split <;> rfl
  have hring : ∀ (m' : CrtSwimMembs) id, id ∈ (m'.insertRank env rank).csmHead ↔ id ∈ rank :: m'.csmHead :=
    fun _ _ => (insertAfter_perm _ rank _).mem_iff
  have hput : ∀ {id : ℕ} (state : SwimMemberState) (m' : CrtSwimMembs), Writes new m m' → new id →
      Writes new m (m'.putState id (some state)) :=
    fun _ _ h hid => h.trans (writes_putState fun _ _ => .inr hid)
  generalize hr : m.crtSwimRankAdd env gpSelf rank = r at hnew ⊢
  rw [crtSwimRankAdd] at hr
  split at hr
  · cases hr
    exact .refl new m
  split at hr
  · cases hr
    exact .refl new m
  split at hr
  · rename_i hempty
    rw [hempty] at hnew
    split at hr
    · split at hr
      · -- the state of the process goes with it
        cases hr
        have hnone : Writes new m (m.putState gpSelf none) := writes_putState fun _ h => by cases h
        refine ⟨(writes_rankDel new _ gpSelf).suspects, fun id state hid => hnone.states id state ?_⟩
        simpa [crtSwimRankDel, states, putState, setSelf] using hid
      · cases hr
        simp only [hhead, hring] at hnew
        have hself := hput ⟨0, .alive⟩ m (.refl new m) (hnew gpSelf (by simp) not_mem_nil)
        have hrank := hput ⟨0, .inactive⟩ _ hself (hnew rank mem_cons_self not_mem_nil)
        exact hcheck _ ⟨hrank.suspects, hrank.states⟩
    · cases hr
      rw [hhead] at hnew
      have hself := hput ⟨0, .alive⟩ m (.refl new m) (hnew gpSelf (by simp) not_mem_nil)
      exact hcheck _ ⟨hself.suspects, hself.states⟩
  · split at hr
    · cases hr
      exact hcheck m (.refl new m)
    · rename_i hin
      split at hr
      · cases hr
        simp only [hhead, hring] at hnew
        have hrank := hput ⟨0, .inactive⟩ m (.refl new m) (hnew rank mem_cons_self hin)
        exact hcheck _ ⟨hrank.suspects, hrank.states⟩
      · cases hr
        exact hcheck m (.refl new m)

/-- **A call of the adapter** leaves the list of suspects alone. -/
theorem step_writes {e : AdapterEvent} (he : ∀ ev, e ≠ .engine ev) (gpSelf : ℕ) (m : CrtSwimMembs) :
    Writes (fun id => id ∈ (m.step gpSelf e).csmHead ∧ id ∉ m.csmHead) m (m.step gpSelf e) := by
  cases e with
  | engine ev => exact absurd rfl (he ev)
  | rankAdd env rank => exact writes_rankAdd env gpSelf m rank fun _ => And.intro
  | rankDel rank => exact writes_rankDel _ m rank
  | rankDelAll => exact ⟨rfl, fun id state h => by cases h⟩
  | cliCb id cciRc =>
    have h := writes_cliCb (fun id' => id' ∈ (m.step gpSelf (.cliCb id cciRc)).csmHead ∧ id' ∉ m.csmHead)
      { m with wacks := m.wacks.erase id } id cciRc
    exact ⟨h.suspects, h.states⟩
  | enable => exact writes_setSelf _ m gpSelf
  | disable => exact writes_setSelf _ m swimIdInvalid

end CrtSwimMembs

/-! ### Suspicions that expire -/

/-- The engine has no entry for a rank that comes into the ring. -/
def NoOldEntry (gpSelf : ℕ) (m : CrtSwimMembs) (e : AdapterEvent) : Prop :=
  ∀ id ∈ ids m.suspects, id ∈ (m.step gpSelf e).csmHead → id ∈ m.csmHead
deriving Decidable

theorem listed_invariant (gpSelf : ℕ) :
    ((adapterLts gpSelf).restrict (NoOldEntry gpSelf)).Invariant fun m => m.csmCtx.ctx.Listed := by
  refine ⟨?_, ?_⟩
  · rintro m rfl
    exact SwimContext.listed_swimInit _ _
  · rintro m e m' hlisted ⟨_, hold⟩ hstep
    cases hstep
    by_cases he : ∀ ev, e ≠ .engine ev
    · obtain ⟨hsuspects, hstates⟩ := CrtSwimMembs.step_writes he gpSelf m
      refine ⟨?_, fun id hid state hst => ?_⟩
      · exact (congrArg (fun l => (ids l).Nodup) hsuspects) ▸ hlisted.nodup
      · have hmem : id ∈ ids m.suspects := hsuspects ▸ hid
        rcases hstates id state hst with hst | hdead | ⟨hin, hout⟩
        · exact hlisted.down id hmem state hst
        · exact .inr hdead
        · exact absurd (hold id hmem hin) hout
    · push Not at he
      obtain ⟨ev, rfl⟩ := he
      exact (step_changes m.csmCtx ev hlisted.nodup).preserves hlisted fun _ _ h hch => h.change hch

/-- **Expiry and membership**: if ranks are added without an entry in the list of suspects,
expiry kills only `SWIM_MEMBER_SUSPECT`. -/
theorem swim_expiry_kills_suspects (gpSelf : ℕ) (m : CrtSwimMembs)
    (hm : ((adapterLts gpSelf).restrict (NoOldEntry gpSelf)).Reach m) (now limit : ℕ) (env : TaskEnv)
    (id : ℕ) (state state' : SwimMemberState) (hid : m.states id = some state)
    (hid' : (m.step gpSelf (.engine (.run (.suspects now limit) env))).states id = some state')
    (hdead : state'.smsStatus = .dead) (hne : state.smsStatus ≠ .dead) :
    state.smsStatus = .suspect := by
  have hlisted := (listed_invariant gpSelf).reach hm
  exact (SwimContext.swimMemberUpdateSuspected_kills hlisted env.calls env.allocTarget now).only
    id state state' hid hid' hdead hne

/-- The ranks 1 and 2 join the rank 0. -/
def twoJoin : List AdapterEvent := [.rankAdd ⟨true, true, 1⟩ 1, .rankAdd ⟨true, true, 1⟩ 2]

/-- The rank 1 is alive, and then does not answer a ping. -/
def suspectsOne : List AdapterEvent :=
  twoJoin ++ .engine (.message 1 [⟨1, ⟨0, .alive⟩⟩] easyParse) :: unansweredPing.map .engine

theorem swim_expiry_kills_unanswered : ∃ m,
    ((adapterLts 0).restrict (NoOldEntry 0)).Reach m ∧ .suspects 10202 0 ∈ m.csmCtx.tasks ∧
      (m.step 0 (.engine (.run (.suspects 10202 0) (easyEnv 10202 2)))).states 1 = some ⟨0, .dead⟩ ∧
      ∃ state, m.states 1 = some state ∧ state.smsStatus = .suspect := by
  obtain ⟨m, hreach, htasks, hbefore, hafter⟩ : ∃ m, ((adapterLts 0).restrict (NoOldEntry 0)).Reach m ∧
      .suspects 10202 0 ∈ m.csmCtx.tasks ∧ m.states 1 = some ⟨0, .suspect⟩ ∧
      (m.step 0 (.engine (.run (.suspects 10202 0) (easyEnv 10202 2)))).states 1 = some ⟨0, .dead⟩ :=
    Lts.exists_reach_of_exec (suspectsOne ++ [.engine (.progress 10202 0)]) _ rfl (by decide +kernel)
  exact ⟨m, hreach, htasks, hafter, _, hbefore,
    swim_expiry_kills_suspects 0 m hreach _ _ _ 1 _ _ hbefore hafter rfl (by simp)⟩

/-- Rank 1 is removed and added while it is suspected, and the old suspicion kills it. -/
theorem swim_expiry_kills_added : ∃ m, (adapterLts 0).Reach m ∧ .suspects 10202 0 ∈ m.csmCtx.tasks ∧
    m.states 1 = some ⟨0, .inactive⟩ ∧
    (m.step 0 (.engine (.run (.suspects 10202 0) (easyEnv 10202 2)))).states 1 = some ⟨0, .dead⟩ :=
  Lts.exists_reach_of_exec (suspectsOne ++
    [.rankDel 1, .rankAdd ⟨true, true, 1⟩ 1, .engine (.progress 10202 0)]) _ rfl (by decide +kernel)

/-! ### Entries that stay -/

namespace SwimContext

section

variable (calls : ℕ → CallEnv) (allocTarget : ℕ → Bool)

include calls allocTarget

/-- An expired suspicion of one's own leaves the list unless the member is dead. -/
theorem suspectedRound_own {now : ℕ} (s : ℤ × List (ℕ × ℕ) × SwimContext) {item : SwimItem} (hnd :
    (ids s.2.2.scSuspects).Nodup) (hmem : item.siId ∈ ids s.2.2.scSuspects)
    (hfrom : item.siFrom = s.2.2.scSelf) (hnow : item.u < now) :
    item.siId ∈ ids (suspectedRound calls allocTarget now s item).2.2.scSuspects ↔
      ∃ state, s.2.2.members item.siId = some state ∧ state.smsStatus = .dead := by
  obtain ⟨rc, targets, ctx⟩ := s
  rw [suspectedRound]
  rw [if_pos hnow, if_neg (not_not.mpr hfrom)]
  cases hid : ctx.members item.siId with
  | none =>
    rw [ids_removeItem, hnd.mem_erase_iff]
    simp
  | some state =>
    rcases swimMember_cases .dead (calls item.siId) ctx item.siFrom item.siId state.smsIncarnation with
      ⟨hnone, _⟩ | ⟨state', hid', hcases⟩
    · exact absurd (hid.symm.trans hnone) (by simp)
    obtain rfl := some.inj (hid.symm.trans hid')
    rcases hcases with ⟨hig, heq⟩ | ⟨_, hno, _⟩ | ⟨hnew, happ⟩
    · have hdead : state.smsStatus = .dead := by
        rcases hig.2 with hdead | hdead | hlt
        · exact hdead
        · exact hdead
        · exact absurd hlt (lt_irrefl _)
      rw [swimMember] at heq
      rw [heq]
      exact ⟨fun _ => ⟨state, rfl, hdead⟩, fun _ => hmem⟩
    · cases hno
    · constructor
      · intro hin
        rcases happ.mem hnd hin with ⟨_, hstatus⟩ | ⟨hne, _⟩
        · cases hstatus
        · exact absurd rfl hne
      · rintro ⟨state', heq, hdead⟩
        cases heq
        exact absurd ⟨le_rfl, .inl hdead⟩ hnew

theorem suspectedRound_nodup (now : ℕ) (s : ℤ × List (ℕ × ℕ) × SwimContext) {item : SwimItem}
    (hnd : (ids s.2.2.scSuspects).Nodup) (hmem : item.siId ∈ ids s.2.2.scSuspects) :
    (ids (suspectedRound calls allocTarget now s item).2.2.scSuspects).Nodup :=
  Changes.preserves (P := fun ctx => (ids ctx.scSuspects).Nodup)
    (suspectedRound_changes (e := .run (.suspects now 0) ⟨calls, allocTarget, ⟨0, fun _ => 0, fun _ => true⟩,
      ⟨0, true, true⟩, ⟨true, 0⟩, 0⟩) calls allocTarget now s trivial hmem) hnd fun _ _ h hch => hch.nodup h

theorem suspectedLoop_keeps (now : ℕ) (l : List SwimItem) {id : ℕ} (hid : id ∉ ids l) :
    ∀ s : ℤ × List (ℕ × ℕ) × SwimContext,
    id ∈ ids (l.foldl (suspectedRound calls allocTarget now) s).2.2.scSuspects ↔
      id ∈ ids s.2.2.scSuspects := by
  induction l with
  | nil => exact fun s => Iff.rfl
  | cons item l ih =>
    intro s
    rw [ids_cons, mem_cons, not_or] at hid
    exact (ih hid.2 _).trans (suspectedRound_keeps calls allocTarget now s item hid.1).2

/-- The loop of `swim_member_update_suspected`. -/
theorem suspectedLoop_own (now : ℕ) (l : List SwimItem) :
    ∀ s : ℤ × List (ℕ × ℕ) × SwimContext, (ids l).Nodup → (ids s.2.2.scSuspects).Nodup →
      (∀ id ∈ ids l, id ∈ ids s.2.2.scSuspects) →
      ∀ item ∈ l, item.siFrom = s.2.2.scSelf → item.u < now →
        (item.siId ∈ ids (l.foldl (suspectedRound calls allocTarget now) s).2.2.scSuspects ↔
          ∃ state, s.2.2.members item.siId = some state ∧ state.smsStatus = .dead) := by
  induction l with
  | nil => exact fun _ _ _ _ item hitem => absurd hitem not_mem_nil
  | cons first l ih =>
    intro s hl hnd hmem item hitem hfrom hnow
    rw [ids_cons, nodup_cons] at hl
    have hfirst := hmem first.siId mem_cons_self
    rw [foldl_cons]
    rcases mem_cons.mp hitem with rfl | hitem
    · rw [suspectedLoop_keeps calls allocTarget now l hl.1]
      exact suspectedRound_own calls allocTarget s hnd hfirst hfrom hnow
    · -- the round for the first entry does not touch this one
      have hother : ∀ id ∈ ids l, id ≠ first.siId := fun id hid heq => hl.1 (heq ▸ hid)
      have hin : item.siId ∈ ids l := List.mem_map_of_mem hitem
      have hkeeps := suspectedRound_keeps calls allocTarget now s first (hother _ hin)
      rw [← hkeeps.1]
      refine ih _ hl.2 (suspectedRound_nodup calls allocTarget now s hnd hfirst) (fun id hid => ?_) item hitem
        (hfrom.trans (suspectedRound_frame calls allocTarget now s first).self.symm) hnow
      exact (suspectedRound_keeps calls allocTarget now s first (hother id hid)).2.mpr
        (hmem id (mem_cons_of_mem _ hid))

end

end SwimContext

theorem suspects_nodup_invariant (gpSelf : ℕ) :
    (adapterLts gpSelf).Invariant fun m => (ids m.suspects).Nodup := by
  refine ⟨?_, ?_⟩
  · rintro m rfl
    exact nodup_nil
  · rintro m e m' hnd _ hstep
    cases hstep
    by_cases he : ∀ ev, e ≠ .engine ev
    · rw [(CrtSwimMembs.step_writes he gpSelf m).suspects]
      exact hnd
    · push Not at he
      obtain ⟨ev, rfl⟩ := he
      exact SwimContext.Changes.preserves (P := fun ctx => (ids ctx.scSuspects).Nodup)
        (step_changes m.csmCtx ev hnd) hnd
        fun _ _ h hch => hch.nodup h

/-- **Expired entries** are out of the list if and only if none is about a dead member. -/
theorem swim_expiry_drains (gpSelf : ℕ) (m : CrtSwimMembs) (hm : (adapterLts gpSelf).Reach m)
    (calls : ℕ → CallEnv) (allocTarget : ℕ → Bool) (now : ℕ) :
    (∀ item ∈ m.suspects, item.siFrom = m.csmCtx.ctx.scSelf → item.u < now →
      item.siId ∉ ids (m.csmCtx.ctx.swimMemberUpdateSuspected calls allocTarget now).2.2.scSuspects) ↔
    ∀ item ∈ m.suspects, item.siFrom = m.csmCtx.ctx.scSelf → item.u < now →
      ∀ state, m.states item.siId = some state → state.smsStatus ≠ .dead := by
  have hnd := (suspects_nodup_invariant gpSelf).reach hm
  have hloop := SwimContext.suspectedLoop_own calls allocTarget now m.suspects (0, [], m.csmCtx.ctx) hnd hnd
    fun _ h => h
  refine forall₂_congr fun item hitem => forall₂_congr fun hfrom hnow => ?_
  refine (not_congr (hloop item hitem hfrom hnow)).trans ?_
  push Not
  rfl

theorem swim_expiry_drains_suspect : ∃ m, (adapterLts 0).Reach m ∧ ids m.suspects = [1] ∧
    1 ∉ ids (m.csmCtx.ctx.swimMemberUpdateSuspected (easyEnv 10202 2).calls (fun _ => true)
      10202).2.2.scSuspects := by
  obtain ⟨m, hreach, hsuspects, hself, hstate⟩ : ∃ m, (adapterLts 0).Reach m ∧
      m.suspects = [⟨1, 0, 10201⟩] ∧ m.csmCtx.ctx.scSelf = 0 ∧ m.states 1 = some ⟨0, .suspect⟩ :=
    Lts.exists_reach_of_exec suspectsOne _ rfl (by decide +kernel)
  refine ⟨m, hreach, by simp [hsuspects], ?_⟩
  refine (swim_expiry_drains 0 m hreach (easyEnv 10202 2).calls (fun _ => true) 10202).mpr ?_
    ⟨1, 0, 10201⟩ (by simp [hsuspects]) hself.symm (by simp)
  intro item hitem _ _ state hst
  rw [hsuspects, mem_singleton] at hitem
  rw [hitem, hstate] at hst
  rw [← Option.some.inj hst]
  simp

/-- Rank 1 joins and is suspected; the suspicion expires, and then its ping fails. -/
def failsLate : List AdapterEvent :=
  let sent : List SwimEvent :=
    .progress 1 9000 :: (easyRound 1 9001 1).append (easyRound 2 9001 1)
  let late : List AdapterEvent :=
    [.engine (.run (.progressSend 9001 false 1 1) (easyEnv 3 1)),
      .engine (.message 2 [⟨2, ⟨0, .alive⟩⟩, ⟨1, ⟨0, .suspect⟩⟩] easyParse),
      .engine (.progress 7201 0), .engine (.run (.suspects 7201 0) (easyEnv 7201 2)),
      .cliCb 1 (-derUnreach)]
  twoJoin ++ sent.map .engine ++ late

/-- The rank is stored as dead with a higher incarnation, and its entry stays. -/
theorem swim_expiry_keeps_dead : ∃ m, (adapterLts 0).Reach m ∧ m.suspects = [⟨1, 0, 8000⟩] ∧
    m.csmCtx.ctx.scSelf = 0 ∧
    (m.csmCtx.ctx.swimMemberUpdateSuspected (easyEnv 9000 2).calls (fun _ => true) 9000).2.2.scSuspects =
      [⟨1, 0, 8000⟩] :=
  Lts.exists_reach_of_exec failsLate _ rfl (by decide +kernel)

end Cart
