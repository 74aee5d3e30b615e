/-
A network of SWIM contexts.

Every node runs the engine on its own store; a message that was sent stays in the soup, and
can be delivered any number of times or never.  Only a member itself raises its incarnation,
so that nobody stores or sends a higher one (`Owned`), and one step up refutes a suspicion.

Main result: `swim_refutation`.
-/
import Cart.SwimSuspects

open Function List Option

namespace Cart

open SwimContext SwimNode

variable {upds : List SwimMemberUpdate} {env : ParseEnv} {state own' own : SwimMemberState} {id : ℕ}
  {ctx ctx' : SwimContext}

/-! ### The network -/

/-- The nodes, and the messages that were sent. -/
structure SwimNet where
  node : ℕ → SwimNode
  sent : List SwimMessage

namespace SwimNet

/-- A node takes a step. -/
def step (net : SwimNet) (x : ℕ) (e : SwimEvent) : SwimNet where
  node := Function.update net.node x ((net.node x).step e).1
  sent := net.sent ++ ((net.node x).step e).2

@[simp] theorem step_node_self (net : SwimNet) (x : ℕ) (e : SwimEvent) :
    (net.step x e).node x = ((net.node x).step e).1 := update_self ..

theorem step_node_of_ne (net : SwimNet) {x y : ℕ} (h : y ≠ x) (e : SwimEvent) :
    (net.step x e).node y = net.node y := update_of_ne h ..

/-- A message is processed by the node it was sent to. -/
def Delivered (net : SwimNet) (x : ℕ) : SwimEvent → Prop
  | .message frm upds _ => ⟨frm, x, upds⟩ ∈ net.sent
  | .progress _ _ | .run _ _ => True

/-- All incarnations are 0, and no message was sent. -/
def Fresh (net : SwimNet) : Prop :=
  net.sent = [] ∧ ∀ x, (net.node x).tasks = [] ∧ ∃ members, (net.node x).ctx = .swimInit x members ∧
    ∀ id state, members id = some state → state.smsIncarnation = 0

instance (net : SwimNet) (x : ℕ) (e : SwimEvent) : Decidable (net.Delivered x e) := by
  apply SwimEvent.casesOn (motive := (Decidable <| net.Delivered x ·)) e <;> intros <;>
    dsimp only [Delivered] <;> infer_instance

end SwimNet

/-- The runs of a network. -/
def swimNetLts : Lts SwimNet (ℕ × SwimEvent) where
  init := SwimNet.Fresh
  enabled net ev := (net.node ev.1).Enabled ev.2 ∧ net.Delivered ev.1 ev.2
  step net ev := some (net.step ev.1 ev.2)

/-- The next incarnation of the node is a number of 64 bits. -/
def NoWrap (net : SwimNet) (ev : ℕ × SwimEvent) : Prop :=
  ∀ own ∈ (net.node ev.1).ctx.members ev.1, own.smsIncarnation + 1 < 2 ^ 64

instance (net : SwimNet) (ev : ℕ × SwimEvent) :
    Decidable ((swimNetLts.restrict NoWrap).enabled net ev) :=
  inferInstanceAs (Decidable ((_ ∧ _) ∧ ∀ own ∈ (net.node ev.1).ctx.members ev.1, _))

/-! ### Messages -/

namespace SwimContext

theorem swimUpdatesSend_stored (env : UpdatesEnv) (ctx : SwimContext) (id sendTo : ℕ)
    (h : (ctx.swimUpdatesSend env id sendTo).2.1 = some upds) :
    ∀ upd ∈ upds, ctx.members upd.smuId = some upd.smuState := by
  obtain ⟨alloc, rc⟩ := env
  rcases swimUpdatesSend_cases alloc ctx id sendTo with ⟨_, -, heq⟩ | ⟨_, _, r, hid, hself, hloop, heq⟩
  · rw [heq rc] at h
    cases h
  · rw [heq rc] at h
    split at h
    · cases h
    · rw [← some.inj h]
      exact hloop.stored hid hself

end SwimContext

theorem SwimNode.sendTo_stored (env : TaskEnv) (ctx : SwimContext) (id dst : ℕ) :
    ∀ msg ∈ (sendTo env ctx id dst).2.1, msg.src = ctx.scSelf ∧
      ∀ upd ∈ msg.upds, ctx.members upd.smuId = some upd.smuState := by
  intro msg hmsg
  rw [sendTo] at hmsg
  obtain ⟨upds, hupds, rfl⟩ := List.mem_map.mp hmsg
  exact ⟨rfl, swimUpdatesSend_stored env.updates ctx id dst (mem_toList.mp hupds)⟩

/-- The messages of a step carry the states that are stored. -/
theorem step_stored (n : SwimNode) (e : SwimEvent) : ∀ msg ∈ (n.step e).2, msg.src = n.ctx.scSelf ∧
    ∀ upd ∈ msg.upds, n.ctx.members upd.smuId = some upd.smuState := by
  have hnil : ∀ msg ∈ ([] : List SwimMessage), msg.src = n.ctx.scSelf ∧
      ∀ upd ∈ msg.upds, n.ctx.members upd.smuId = some upd.smuState :=
    fun _ h => absurd h not_mem_nil
  cases e with
  | progress now timeout | message frm upds env => exact hnil
  | run task env =>
    cases task with
    | suspects now limit | ipings now limit | forward origin => exact hnil
    | confirm now limit rc targets =>
      cases targets with
      | nil => exact hnil
      | cons target targets => exact sendTo_stored env n.ctx _ _
    | target now limit =>
      rw [step, runTask]
      generalize n.ctx.swimProgressTarget env.target env.call now = res
      obtain ⟨_ | (_ | _), _⟩ := res
      · exact hnil
      · exact hnil
      · exact hnil
    | progressSend limit timedout id dst | answer id dst origin =>
      exact sendTo_stored env n.ctx _ _

/-! ### Incarnations -/

/-- Nobody is ahead of a member's own incarnation. -/
structure Owned (net : SwimNet) : Prop where
  same : ∀ x, (net.node x).ctx.scSelf = x
  sound : ∀ x, (net.node x).ctx.Sound
  stored : ∀ x own, (net.node x).ctx.members x = some own → ∀ y state,
    (net.node y).ctx.members x = some state → state.smsIncarnation ≤ own.smsIncarnation
  sent : ∀ x own, (net.node x).ctx.members x = some own → ∀ msg ∈ net.sent, ∀ upd ∈ msg.upds,
    upd.smuId = x → upd.smuState.smsIncarnation ≤ own.smsIncarnation

/-- The own incarnation goes up by one at most, and nobody else's is made up. -/
structure Follows (net : SwimNet) (x nr : ℕ) (ctx : SwimContext) : Prop where
  same : ctx.scSelf = x
  lower : ∀ own, ctx.members x = some own → nr ≤ own.smsIncarnation
  upper : ∀ own', ctx.members x = some own' → ∃ own, (net.node x).ctx.members x = some own ∧
    own'.smsIncarnation ≤ own.smsIncarnation + 1
  others : ∀ id, id ≠ x → ∀ own, (net.node id).ctx.members id = some own → ∀ state,
    ctx.members id = some state → state.smsIncarnation ≤ own.smsIncarnation

variable {net : SwimNet} {x nr : ℕ} {e : SwimEvent}

theorem Owned.follows (h : Owned net) (hnr : ∀ own, (net.node x).ctx.members x = some own →
    nr ≤ own.smsIncarnation) : Follows net x nr (net.node x).ctx :=
  ⟨h.same x, hnr, fun own' hown => ⟨own', hown, Nat.le_succ _⟩,
    fun id _ own hown state hid => h.stored id own hown x state hid⟩

theorem Follows.of_eq (h : Follows net x nr ctx) (hmembers : ctx'.members = ctx.members)
    (hself : ctx'.scSelf = ctx.scSelf) : Follows net x nr ctx' :=
  ⟨hself.trans h.same, fun own hown => h.lower own (hmembers ▸ hown),
    fun own hown => h.upper own (hmembers ▸ hown),
    fun id hne own hown state hid => h.others id hne own hown state (hmembers ▸ hid)⟩

theorem Follows.update (h : Follows net x nr ctx) {new : SwimMemberState}
    (hmembers : ctx'.members = Function.update ctx.members id (some new))
    (hsame : ctx'.scSelf = ctx.scSelf)
    (hself : id = x → nr ≤ new.smsIncarnation ∧ ∃ own, (net.node x).ctx.members x = some own ∧
      new.smsIncarnation ≤ own.smsIncarnation + 1)
    (hother : id ≠ x → ∀ own, (net.node id).ctx.members id = some own →
      new.smsIncarnation ≤ own.smsIncarnation) : Follows net x nr ctx' := by
  have hold : ∀ y state, ctx'.members y = some state → y = id ∧ state = new ∨
      ctx.members y = some state := by
    intro y state hy
    rw [hmembers] at hy
    by_cases hyid : y = id
    · rw [hyid, update_self] at hy
      exact .inl ⟨hyid, (some.inj hy).symm⟩
    · rw [update_of_ne hyid] at hy
      exact .inr hy
  refine ⟨hsame.trans h.same, fun own hown => ?_, fun own hown => ?_, fun y hne own hown state hy => ?_⟩
  · rcases hold x own hown with ⟨rfl, rfl⟩ | hown
    · exact (hself rfl).1
    · exact h.lower own hown
  · rcases hold x own hown with ⟨rfl, rfl⟩ | hown
    · exact (hself rfl).2
    · exact h.upper own hown
  · rcases hold y state hy with ⟨rfl, rfl⟩ | hy
    · exact hother hne own hown
    · exact h.others y hne own hown state hy

/-- The status of a member is written, with the incarnation it has. -/
theorem Follows.applied (h : Follows net x nr ctx)
    {status : SwimMemberStatus} (hid : ctx.members id = some state)
    (happ : Applied id ⟨state.smsIncarnation, status⟩ ctx ctx') : Follows net x nr ctx' := by
  refine h.update happ.members happ.frame.self (fun hx => ?_) fun hne own hown => ?_
  · subst hx
    exact ⟨h.lower state hid, h.upper state hid⟩
  · exact h.others id hne own hown state hid

/-- What an event reports was sent. -/
theorem Owned.reports (h : Owned net) (hdel : net.Delivered x e) {kind : UpdateKind} {m : ℕ}
    (hreports : e.Reports kind id m)
    (hown : (net.node id).ctx.members id = some own) : m ≤ own.smsIncarnation := by
  cases e with
  | progress _ _ | run _ _ => exact absurd hreports not_false
  | message frm upds env => exact h.sent id own hown _ hdel _ hreports rfl

section

variable (h : Follows net x nr ctx) (howned : Owned net) (hdel : net.Delivered x e)
  (hwrap : ∀ own ∈ (net.node x).ctx.members x, own.smsIncarnation + 1 < 2 ^ 64)

include h howned hdel hwrap

/-- **One change** at a node. -/
theorem Follows.change (hch : ctx.Change e ctx') : Follows net x nr ctx' := by
  cases hch with
  | said kind id m state hreports hself hid hnew happ =>
    refine h.update happ.members happ.frame.self (fun hx => ?_) fun _ own hown => ?_
    · exact absurd (hx.trans h.same.symm) hself
    · exact howned.reports hdel hreports hown
  | suspected state _ _ hid _ happ | killed id state _ hid _ happ => exact h.applied hid happ
  | refuted m state hreports hid hge hmembers _ _ hframe =>
    rw [h.same] at hreports hid hmembers
    obtain ⟨own, hown, hle⟩ := h.upper state hid
    have hm : m ≤ own.smsIncarnation := howned.reports hdel hreports hown
    have hlt := hwrap own hown
    have hu : u64 (state.smsIncarnation + 1) = state.smsIncarnation + 1 := u64_of_lt (by omega)
    have hlow := h.lower state hid
    refine h.update hmembers hframe.self (fun _ => ⟨?_, own, hown, ?_⟩) fun hne => absurd rfl hne
    · dsimp only
      omega
    · dsimp only
      omega
  | dropped _ _ hmembers _ _ hframe => exact h.of_eq hmembers hframe.self
  | other hmembers _ _ hself => exact h.of_eq hmembers hself

theorem Follows.changes (hch : ctx.Changes e ctx') : Follows net x nr ctx' :=
  hch.preserves h fun _ _ hfol hone => hfol.change howned hdel hwrap hone

end

section

variable (h : Owned net) (hdel : net.Delivered x e)
  (hwrap : ∀ own ∈ (net.node x).ctx.members x, own.smsIncarnation + 1 < 2 ^ 64)

include h hdel hwrap

/-- **One step** of the network: nobody's own incarnation decreases. -/
theorem Owned.own_le {z : ℕ} (hown' : ((net.step x e).node z).ctx.members z = some own') :
    ∃ own, (net.node z).ctx.members z = some own ∧ own.smsIncarnation ≤ own'.smsIncarnation := by
  by_cases hz : z = x
  · subst hz
    rw [SwimNet.step_node_self] at hown'
    have hch := step_changes (net.node z) e (h.sound z).suspects
    cases hown : (net.node z).ctx.members z with
    | none =>
      have hstart : Follows net z 0 (net.node z).ctx := h.follows fun _ _ => Nat.zero_le _
      have hfol := hstart.changes h hdel hwrap hch
      obtain ⟨own, hsome, _⟩ := hfol.upper own' hown'
      exact absurd (hown.symm.trans hsome) (by simp)
    | some own =>
      have hstart : Follows net z own.smsIncarnation (net.node z).ctx :=
        h.follows fun own'' hown'' => (some.inj (hown.symm.trans hown'')) ▸ le_rfl
      exact ⟨own, rfl, (hstart.changes h hdel hwrap hch).lower own' hown'⟩
  · rw [net.step_node_of_ne hz] at hown'
    exact ⟨own', hown', le_rfl⟩

theorem Owned.step : Owned (net.step x e) := by
  have hch := step_changes (net.node x) e (h.sound x).suspects
  have hfol : Follows net x 0 ((net.node x).step e).1.ctx :=
    (h.follows fun _ _ => Nat.zero_le _).changes h hdel hwrap hch
  refine ⟨fun y => ?_, fun y => ?_, fun z own' hown' y state hid => ?_, fun z own' hown' msg hmsg upd hupd hz => ?_⟩
  · by_cases hy : y = x
    · subst hy
      rw [SwimNet.step_node_self]
      exact hfol.same
    · rw [net.step_node_of_ne hy]
      exact h.same y
  · by_cases hy : y = x
    · subst hy
      rw [SwimNet.step_node_self]
      exact hch.preserves (h.sound y) fun _ _ hsound hone => hsound.change hone
    · rw [net.step_node_of_ne hy]
      exact h.sound y
  · obtain ⟨own, hown, hle⟩ := h.own_le hdel hwrap hown'
    by_cases hy : y = x
    · by_cases hz : z = y
      · -- what a node stores about itself
        subst hz
        exact (some.inj (hown'.symm.trans hid)) ▸ le_rfl
      · subst hy
        rw [SwimNet.step_node_self] at hid
        exact (hfol.others z hz own hown state hid).trans hle
    · rw [net.step_node_of_ne hy] at hid
      exact (h.stored z own hown y state hid).trans hle
  · obtain ⟨own, hown, hle⟩ := h.own_le hdel hwrap hown'
    rcases mem_append.mp hmsg with hold | hnew
    · exact (h.sent z own hown msg hold upd hupd hz).trans hle
    · have hstored := (step_stored (net.node x) e msg hnew).2 upd hupd
      exact (h.stored z own hown x _ (hz ▸ hstored)).trans hle

end

theorem owned_invariant : (swimNetLts.restrict NoWrap).Invariant Owned := by
  refine ⟨?_, ?_⟩
  · rintro net ⟨hsent, hnodes⟩
    have hzero : ∀ y id state, (net.node y).ctx.members id = some state → state.smsIncarnation = 0 := by
      intro y id state hid
      obtain ⟨_, members, hctx, hzero⟩ := hnodes y
      rw [hctx] at hid
      exact hzero id state hid
    refine ⟨fun y => ?_, fun y => ?_, fun z own _ y state hid => ?_, fun z own _ msg hmsg => ?_⟩
    · obtain ⟨_, members, hctx, _⟩ := hnodes y
      rw [hctx]
      rfl
    · obtain ⟨_, members, hctx, _⟩ := hnodes y
      rw [hctx]
      exact sound_swimInit y members
    · rw [hzero y z state hid]
      exact Nat.zero_le _
    · rw [hsent] at hmsg
      exact absurd hmsg not_mem_nil
  · rintro net ⟨y, ev⟩ net' howned ⟨⟨_, hdel⟩, hwrap⟩ hstep
    cases hstep
    exact howned.step hdel hwrap

/-- **A run** of the network: nobody's own incarnation decreases. -/
theorem Owned.run (h : Owned net) {net' : SwimNet} {evs : List (ℕ × SwimEvent)}
    (hrun : (swimNetLts.restrict NoWrap).Run net evs net')
    (hown : (net.node x).ctx.members x = some own) :
    ∃ own', (net'.node x).ctx.members x = some own' ∧ own.smsIncarnation ≤ own'.smsIncarnation := by
  induction hrun generalizing own with
  | nil s => exact ⟨own, hown, le_rfl⟩
  | @cons s s' s'' ev evs henabled hstep _ ih =>
    obtain ⟨y, ev⟩ := ev
    obtain ⟨⟨_, hdel⟩, hwrap⟩ := henabled
    cases hstep
    -- members stay members
    have hsome : ((s.step y ev).node x).ctx.members x ≠ none := by
      intro hnone
      by_cases hx : x = y
      · subst hx
        rw [SwimNet.step_node_self] at hnone
        have hpre := (step_changes (s.node x) ev (h.sound x).suspects).members_none hnone
        exact absurd (hown.symm.trans hpre) (by simp)
      · rw [s.step_node_of_ne hx] at hnone
        exact absurd (hown.symm.trans hnone) (by simp)
    obtain ⟨own₁, hown₁⟩ := ne_none_iff_exists'.mp hsome
    obtain ⟨own₀, hown₀, hle⟩ := h.own_le hdel hwrap hown₁
    obtain rfl := some.inj (hown.symm.trans hown₀)
    obtain ⟨own', hown', hle'⟩ := ih (h.step hdel hwrap) hown₁
    exact ⟨own', hown', hle.trans hle'⟩

/-! ### Refutation -/

/-- A suspicion of the member itself, once processed, has a lower incarnation than
its own. -/
theorem parseUpdate_refutes {frm n : ℕ} {env : CallEnv} {state state' : SwimContextState}
    (h : Follows net x n ctx)
    (hwrap : ∀ own ∈ (net.node x).ctx.members x, own.smsIncarnation + 1 < 2 ^ 64)
    (hle : ∀ own, (net.node x).ctx.members x = some own → n ≤ own.smsIncarnation)
    (hpar : parseUpdate env frm ⟨x, ⟨n, .suspect⟩⟩ ctx state = .ok (state', ctx'))
    (hown' : ctx'.members x = some own') : n < own'.smsIncarnation := by
  rw [parseUpdate] at hpar
  dsimp only at hpar
  rw [if_pos h.same.symm] at hpar
  cases hid : ctx.members ctx.scSelf with
  | none =>
    rw [hid] at hpar
    cases hpar
  | some own =>
    rw [hid] at hpar
    dsimp only at hpar
    split at hpar
    · rename_i hlt
      obtain ⟨_, rfl⟩ := Prod.mk.inj (Except.ok.inj hpar)
      rw [h.same] at hid
      exact (some.inj (hid.symm.trans hown')) ▸ hlt
    · rename_i hge
      obtain ⟨hrc, hmembers, _⟩ := swimUpdatesNotify_spec hid env ctx.scSelf
        { own with smsIncarnation := u64 (own.smsIncarnation + 1) }
      rw [if_neg (not_not.mpr hrc)] at hpar
      obtain ⟨_, rfl⟩ := Prod.mk.inj (Except.ok.inj hpar)
      rw [hmembers, h.same, update_self] at hown'
      obtain rfl := some.inj hown'
      rw [h.same] at hid
      have hlow := h.lower own hid
      obtain ⟨first, hfirst, hup⟩ := h.upper own hid
      have hlt := hwrap first hfirst
      have hn := hle first hfirst
      have hu : u64 (own.smsIncarnation + 1) = own.smsIncarnation + 1 := u64_of_lt (by omega)
      dsimp only
      omega

/-- The updates of a message, one after the other. -/
theorem parseLoop_refutes {frm n : ℕ} {rest : List SwimMemberUpdate}
    {calls : ℕ → CallEnv} {state state' : SwimContextState} (howned : Owned net)
    (hdel : net.Delivered x (.message frm upds env))
    (hwrap : ∀ own ∈ (net.node x).ctx.members x, own.smsIncarnation + 1 < 2 ^ 64)
    (hle : ∀ own, (net.node x).ctx.members x = some own → n ≤ own.smsIncarnation)
    (hsub : ∀ upd ∈ rest, upd ∈ upds) (hn : ⟨x, ⟨n, .suspect⟩⟩ ∈ rest) (h : Follows net x n ctx)
    (hpar : parseLoop frm calls rest ctx state = .ok (state', ctx')) :
    ∃ own', ctx'.members x = some own' ∧ n < own'.smsIncarnation := by
  induction rest generalizing calls ctx state with
  | nil => exact absurd hn not_mem_nil
  | cons upd rest ih =>
    rw [parseLoop] at hpar
    have hone := parseUpdate_changes (e := .message frm upds env) (calls 0) frm upd ctx state
      fun kind hkind => by
        rw [SwimEvent.Reports, ← hkind]
        exact hsub upd mem_cons_self
    cases hres : parseUpdate (calls 0) frm upd ctx state with
    | error _ =>
      rw [hres] at hpar
      cases hpar
    | ok res =>
      obtain ⟨state₁, ctx₁⟩ := res
      rw [hres] at hpar hone
      have hfol := h.changes howned hdel hwrap hone.1
      rcases mem_cons.mp hn with rfl | hn
      swap
      · exact ih (fun upd hupd => hsub upd (mem_cons_of_mem _ hupd)) hn hfol hpar
      -- from here on the incarnation is above `n`, and stays there
      have habove : Follows net x (n + 1) ctx₁ :=
        { hfol with lower := fun own' hown' => parseUpdate_refutes h hwrap hle hres hown' }
      have hrest := parseLoop_changes (e := .message frm upds env) frm
        (fun i => calls (i + 1)) rest ctx₁ state₁
        fun kind id nr hin => hsub _ (mem_cons_of_mem _ hin)
      dsimp only at hpar
      rw [hpar] at hrest
      have hend := habove.changes howned hdel hwrap hrest.1
      -- the update was about a member, since it was processed without an error
      have hmember : ctx.members x ≠ none := by
        intro hnone
        rw [parseUpdate] at hres
        dsimp only at hres
        rw [if_pos h.same.symm, h.same, hnone] at hres
        cases hres
      have hsome : ctx'.members x ≠ none := fun hnone =>
        hmember ((hone.1.trans hrest.1).members_none hnone)
      obtain ⟨own', hown'⟩ := ne_none_iff_exists'.mp hsome
      exact ⟨own', hown', hend.lower own' hown'⟩

/-- `swim_parse_message` without an error. -/
theorem swimParseMessage_refutes {frm n : ℕ}
    {rc : ℤ} {send : Option (ℕ × ℕ)} (howned : Owned net) (hdel : net.Delivered x (.message frm upds env))
    (hwrap : ∀ own ∈ (net.node x).ctx.members x, own.smsIncarnation + 1 < 2 ^ 64)
    (hx : x ≠ swimIdInvalid) (hn : ⟨x, ⟨n, .suspect⟩⟩ ∈ upds)
    (hres : ((net.node x).ctx.swimParseMessage env frm upds).1 = .done rc send) :
    ∃ own', ((net.node x).ctx.swimParseMessage env frm upds).2.members x = some own' ∧
      n < own'.smsIncarnation := by
  have hle : ∀ own, (net.node x).ctx.members x = some own → n ≤ own.smsIncarnation :=
    fun own hown => howned.sent x own hown _ hdel _ hn rfl
  cases upds with
  | nil => exact absurd hn not_mem_nil
  | cons first upds =>
    obtain ⟨state, _, hparse⟩ := swimParseMessage_cons ((howned.same x).trans_ne hx) env frm first upds
    rw [hparse] at hres ⊢
    cases hpar : parseLoop frm env.calls (first :: upds) (net.node x).ctx state with
    | error res =>
      rw [hpar] at hres
      cases hres
    | ok res =>
      obtain ⟨state', ctx₁⟩ := res
      rw [(answer_same env frm first ctx₁).1]
      exact parseLoop_refutes howned hdel hwrap hle (fun _ h => h) hn (howned.follows hle) hpar

/-- News that a member is alive override what is stored with a lower incarnation. -/
theorem swimMemberAlive_overrides (hid : ctx.members x = some state)
    (hlt : state.smsIncarnation < nr) (env : CallEnv) (frm : ℕ) :
    (ctx.swimMemberAlive env frm x nr).2.members x = some ⟨nr, .alive⟩ := by
  rcases swimMember_cases .alive env ctx frm x nr with ⟨hnone, _⟩ | ⟨state', hid', hcases⟩
  · exact absurd (hid.symm.trans hnone) (by simp)
  obtain rfl := some.inj (hid.symm.trans hid')
  rcases hcases with ⟨hig, _⟩ | ⟨_, hno, _⟩ | ⟨_, happ⟩
  · exact absurd hig.1 (not_le.mpr hlt)
  · cases hno
  · exact (congrFun happ.members x).trans (update_self ..)

/-- **Refutation**: no stored or sent incarnation is above the member's own, which rises above a
suspicion that it has processed. -/
theorem swim_refutation (net : SwimNet) (hnet : (swimNetLts.restrict NoWrap).Reach net) (x : ℕ) :
    (∀ own, (net.node x).ctx.members x = some own →
      (∀ y state, (net.node y).ctx.members x = some state →
        state.smsIncarnation ≤ own.smsIncarnation) ∧
      (∀ msg ∈ net.sent, ∀ upd ∈ msg.upds, upd.smuId = x →
        upd.smuState.smsIncarnation ≤ own.smsIncarnation) ∧
      ∀ evs net', (swimNetLts.restrict NoWrap).Run net evs net' → ∃ own',
        (net'.node x).ctx.members x = some own' ∧ own.smsIncarnation ≤ own'.smsIncarnation) ∧
    ∀ frm upds env n rc send, x ≠ swimIdInvalid →
      (swimNetLts.restrict NoWrap).enabled net (x, .message frm upds env) →
      ⟨x, ⟨n, .suspect⟩⟩ ∈ upds →
      ((net.node x).ctx.swimParseMessage env frm upds).1 = .done rc send →
      (∃ own', ((net.step x (.message frm upds env)).node x).ctx.members x = some own' ∧
        n < own'.smsIncarnation) ∧
      ∀ evs net', (swimNetLts.restrict NoWrap).Run (net.step x (.message frm upds env)) evs net' →
        ∀ e, ∀ msg ∈ ((net'.node x).step e).2, ∀ nr, ⟨x, ⟨nr, .alive⟩⟩ ∈ msg.upds →
          n < nr ∧ ∀ (ctx : SwimContext) (env : CallEnv) (frm : ℕ) (state : SwimMemberState),
            ctx.members x = some state → state.smsIncarnation ≤ n →
              (ctx.swimMemberAlive env frm x nr).2.members x = some ⟨nr, .alive⟩ := by
  have howned := owned_invariant.reach hnet
  refine ⟨fun own hown => ⟨howned.stored x own hown, howned.sent x own hown,
    fun evs net' hrun => howned.run hrun hown⟩, ?_⟩
  rintro frm upds env n rc send hx ⟨⟨_, hdel⟩, hwrap⟩ hn hres
  obtain ⟨own', hown', hlt⟩ := swimParseMessage_refutes howned hdel hwrap hx hn hres
  have hown₁ : ((net.step x (.message frm upds env)).node x).ctx.members x = some own' := by
    rw [SwimNet.step_node_self]
    exact hown'
  refine ⟨⟨own', hown₁, hlt⟩, fun evs net' hrun e msg hmsg nr hnr => ?_⟩
  obtain ⟨own₂, hown₂, hle⟩ := (howned.step hdel hwrap).run hrun hown₁
  have hstored := (step_stored (net'.node x) e msg hmsg).2 _ hnr
  obtain rfl := Option.some.inj (hown₂.symm.trans hstored)
  have hnew : n < nr := hlt.trans_le hle
  exact ⟨hnew, fun ctx env frm state hid hold =>
    swimMemberAlive_overrides hid (hold.trans_lt hnew) env frm⟩

/-- The node 0 suspects the member 1 and asks the node 2 to ping it; the ping
carries the suspicion to the member. -/
def suspicionTravels : List (ℕ × SwimEvent) :=
  (unansweredPing ++ easyRound 3001 9001 1).map (fun e => (0, e)) ++
  [(0, .run (.progressSend 9001 true 1 2) (easyEnv 3002 1)),
    (2, .message 0 [⟨1, ⟨0, .suspect⟩⟩, ⟨0, ⟨0, .alive⟩⟩] easyParse),
    (2, .run (.answer 1 1 none) (easyEnv 3003 1))]

theorem swim_refutation_of_one : ∃ net, (swimNetLts.restrict NoWrap).Reach net ∧
    (∃ own, (net.node 1).ctx.members 1 = some own ∧ own.smsIncarnation = 0) ∧
    ∃ own', ((net.step 1 (.message 2 [⟨1, ⟨0, .suspect⟩⟩, ⟨2, ⟨0, .alive⟩⟩] easyParse)).node 1).ctx.members 1 =
      some own' ∧ 0 < own'.smsIncarnation := by
  have hzero : ∀ id state, threeMembers id = some state → state.smsIncarnation = 0 := by
    intro id state hid
    rw [threeMembers] at hid
    split at hid
    · rw [← Option.some.inj hid]
    · cases hid
  obtain ⟨net, hreach, hown, hsent, hres⟩ : ∃ net, (swimNetLts.restrict NoWrap).Reach net ∧
      (net.node 1).ctx.members 1 = some ⟨0, .alive⟩ ∧
      ⟨2, 1, [⟨1, ⟨0, .suspect⟩⟩, ⟨2, ⟨0, .alive⟩⟩]⟩ ∈ net.sent ∧ ((net.node 1).ctx.swimParseMessage
        easyParse 2 [⟨1, ⟨0, .suspect⟩⟩, ⟨2, ⟨0, .alive⟩⟩]).1 = .done 0 (some (1, 2)) :=
    Lts.exists_reach_of_exec suspicionTravels ⟨fun x => ⟨.swimInit x threeMembers, []⟩, []⟩
      ⟨rfl, fun x => ⟨rfl, threeMembers, rfl, hzero⟩⟩ (by decide +kernel)
  refine ⟨net, hreach, ⟨_, hown, rfl⟩, ?_⟩
  refine ((swim_refutation net hreach 1).2 2 _ easyParse 0 0 (some (1, 2)) (by decide) ⟨⟨trivial, ?_⟩, ?_⟩
    (by simp) hres).1
  · exact hsent
  · intro own hmem
    obtain rfl := Option.some.inj (hown.symm.trans hmem)
    simp

end Cart
