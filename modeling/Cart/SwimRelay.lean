/-
The relay of responses to indirect pings (`swim_parse_message`).

A member that was asked to ping another one has the request in `sc_ipings`.  When the other one
responds, the first request is taken off the list under the lock, and the rest one by one
after each message.

Main result: `iping_relay`.
-/
import Cart.SwimKill

namespace Cart

open List

namespace SwimContext

variable {ctx ctx' : SwimContext}

/-! ### What leaves the requests alone -/

theorem scIpings_notify (env : CallEnv) (ctx : SwimContext) (frm id : ℕ) (state : SwimMemberState) :
    (ctx.swimUpdatesNotify env frm id state).2.scIpings = ctx.scIpings := by
  rw [swimUpdatesNotify, setMemberState]
  split
  · rfl
  · rfl

theorem scIpings_swimMember (kind : UpdateKind) (env : CallEnv) (ctx : SwimContext) (frm id nr : ℕ) :
    (ctx.swimMember kind env frm id nr).2.scIpings = ctx.scIpings := by
  cases kind with
  | alive => grind [swimMember, swimMemberAlive, scIpings_notify]
  | suspect => grind [swimMember, swimMemberSuspect, swimMemberDead, scIpings_notify]
  | dead => grind [swimMember, swimMemberDead, scIpings_notify]

theorem scIpings_parseUpdate {env : CallEnv} {frm : ℕ} {upd : SwimMemberUpdate}
    {state state' : SwimContextState} (h : parseUpdate env frm upd ctx state = .ok (state', ctx')) :
    ctx'.scIpings = ctx.scIpings := by
  have hmember (kind : UpdateKind) := scIpings_swimMember kind env ctx frm upd.smuId
    upd.smuState.smsIncarnation
  have halive := hmember .alive
  have hsuspect := hmember .suspect
  have hdead := hmember .dead
  simp only [swimMember] at halive hsuspect hdead
  grind [parseUpdate, scIpings_notify]

theorem scIpings_parseLoop {frm : ℕ} {upds : List SwimMemberUpdate} {calls : ℕ → CallEnv}
    {state state' : SwimContextState} (h : parseLoop frm calls upds ctx state = .ok (state', ctx')) :
    ctx'.scIpings = ctx.scIpings := by
  induction upds generalizing calls ctx state with
  | nil =>
    obtain ⟨_, rfl⟩ := Prod.mk.inj (Except.ok.inj h)
    rfl
  | cons upd upds ih =>
    rw [parseLoop] at h
    cases hone : parseUpdate (calls 0) frm upd ctx state with
    | error _ =>
      rw [hone] at h
      cases h
    | ok res =>
      rw [hone] at h
      exact (ih h).trans (scIpings_parseUpdate hone)

theorem scIpings_swimUpdatesSend (env : UpdatesEnv) (ctx : SwimContext) (id sendTo : ℕ) :
    (ctx.swimUpdatesSend env id sendTo).2.2.scIpings = ctx.scIpings := by
  obtain ⟨alloc, rc⟩ := env
  rcases swimUpdatesSend_cases alloc ctx id sendTo with ⟨_, -, heq⟩ | ⟨_, _, r, -, -, -, heq⟩
  · rw [heq rc]
  · rw [heq rc]

end SwimContext

/-! ### The relay -/

/-- The requests for a member, and the others. -/
def asked (id : ℕ) (l : List SwimItem) : List SwimItem := l.filter fun item => item.siId = id

def notAsked (id : ℕ) (l : List SwimItem) : List SwimItem := l.filter fun item => item.siId ≠ id

/-- The first request for a member is taken off the list. -/
theorem takeIping_cases (ctx : SwimContext) (id : ℕ) :
    asked id ctx.scIpings = [] ∧ ctx.takeIping id = (none, ctx) ∨
    ∃ item rest ctx', asked id ctx.scIpings = item :: rest ∧
      ctx.takeIping id = (some item.siFrom, ctx') ∧ asked id ctx'.scIpings = rest ∧
      notAsked id ctx'.scIpings = notAsked id ctx.scIpings := by
  rw [SwimContext.takeIping]
  cases hfind : ctx.scIpings.find? fun item => item.siId = id with
  | none =>
    refine .inl ⟨filter_eq_nil_iff.mpr (find?_eq_none.mp hfind), rfl⟩
  | some item =>
    obtain ⟨hid, as, bs, hsplit, has⟩ := find?_eq_some_iff_append.mp hfind
    have hid : item.siId = id := of_decide_eq_true hid
    have has : ∀ a ∈ as, a.siId ≠ id := by simpa using has
    have herase : removeItem id ctx.scIpings = as ++ bs := by
      rw [removeItem, hsplit, eraseP_append_right _ (by simpa using has)]
      simp [hid]
    have hnone : asked id as = [] := filter_eq_nil_iff.mpr (by simpa using has)
    rw [asked] at hnone
    refine .inr ⟨item, asked id bs, _, ?_, rfl, ?_, ?_⟩
    · rw [hsplit, asked, filter_append, hnone]
      simp [asked, hid]
    · rw [herase, asked, filter_append, hnone]
      rfl
    · rw [herase, hsplit]
      simp [notAsked, hid]

/-- The call of `swim_updates_send` in a section of `swim_parse_message`. -/
def SwimTask.calls : SwimTask → List (ℕ × ℕ)
  | .answer id sendTo _ => [(id, sendTo)]
  | _ => []

/-- A thread goes on to its end, if `n` sections are enough: the calls it makes, what is left to
do, and the context. -/
def runThread (envs : ℕ → TaskEnv) : ℕ → List SwimTask → SwimContext →
    List (ℕ × ℕ) × List SwimTask × SwimContext
  | 0, tasks, ctx => ([], tasks, ctx)
  | _ + 1, [], ctx => ([], [], ctx)
  | n + 1, task :: tasks, ctx =>
    let (next, _, ctx) := SwimNode.runTask (envs n) ctx task
    let (calls, left, ctx) := runThread envs n (next ++ tasks) ctx
    (task.calls ++ calls, left, ctx)

theorem runThread_nil (envs : ℕ → TaskEnv) (n : ℕ) (ctx : SwimContext) :
    runThread envs n [] ctx = ([], [], ctx) := by
  cases n with
  | zero | succ n => rfl

/-- A request is answered, and the next one is looked for. -/
theorem runThread_answer (envs : ℕ → TaskEnv) (n frm sendTo : ℕ) (ctx : SwimContext) :
    ∃ ctx₁ : SwimContext, ctx₁.scIpings = ctx.scIpings ∧
      runThread envs (n + 2) [.answer frm sendTo (some frm)] ctx =
        (let r := runThread envs n ((ctx₁.takeIping frm).1.toList.map fun dst =>
          .answer frm dst (some frm)) (ctx₁.takeIping frm).2
        ((frm, sendTo) :: r.1, r.2)) := by
  refine ⟨(ctx.swimUpdatesSend (envs (n + 1)).updates frm sendTo).2.2,
    SwimContext.scIpings_swimUpdatesSend .., ?_⟩
  simp [runThread, SwimNode.runTask, SwimNode.sendTo, SwimTask.calls]

/-- Two sections for each request. -/
theorem runThread_relay (envs : ℕ → TaskEnv) (frm : ℕ) (rest : List SwimItem) :
    ∀ (n sendTo : ℕ) (ctx : SwimContext), asked frm ctx.scIpings = rest → 2 * rest.length + 2 ≤ n →
    ∃ ctx', runThread envs n [.answer frm sendTo (some frm)] ctx =
        ((frm, sendTo) :: rest.map fun item => (frm, item.siFrom), [], ctx') ∧
      asked frm ctx'.scIpings = [] ∧ notAsked frm ctx'.scIpings = notAsked frm ctx.scIpings := by
  induction rest with
  | nil =>
    intro n sendTo ctx hasked hn
    obtain ⟨n, rfl⟩ := Nat.exists_eq_add_of_le' (show 2 ≤ n from hn)
    obtain ⟨ctx₁, hkept, hrun⟩ := runThread_answer envs n frm sendTo ctx
    rw [← hkept] at hasked ⊢
    rcases takeIping_cases ctx₁ frm with ⟨-, htake⟩ | ⟨item, rest, ctx₂, hcons, -⟩
    · refine ⟨ctx₁, ?_, hasked, rfl⟩
      rw [hrun, htake]
      simp [runThread_nil]
    · cases hasked.symm.trans hcons
  | cons item rest ih =>
    intro n sendTo ctx hasked hn
    rw [length_cons] at hn
    obtain ⟨n, rfl⟩ := Nat.exists_eq_add_of_le' (show 2 ≤ n by omega)
    obtain ⟨ctx₁, hkept, hrun⟩ := runThread_answer envs n frm sendTo ctx
    rw [← hkept] at hasked ⊢
    rcases takeIping_cases ctx₁ frm with ⟨hnil, -⟩ | ⟨item', rest', ctx₂, hcons, htake, hrest, hothers⟩
    · cases hasked.symm.trans hnil
    · obtain ⟨rfl, rfl⟩ := cons.inj (hasked.symm.trans hcons)
      obtain ⟨ctx₃, hrun', hnone, hothers'⟩ := ih n item.siFrom ctx₂ hrest (by omega)
      refine ⟨ctx₃, ?_, hnone, hothers'.trans hothers⟩
      rw [hrun, htake]
      simp [hrun']

/-- **The relay of responses to indirect pings.**  A response to a direct ping is passed on
once for each request about the sender, to the member that has asked and in the order of the
requests, whatever comes of it, and the other requests stay as they are. -/
theorem iping_relay {env : SwimContext.ParseEnv} {envs : ℕ → TaskEnv} {ctx : SwimContext} {frm n : ℕ}
    {first : SwimMemberUpdate} {upds : List SwimMemberUpdate} (hself : ctx.scSelf ≠ swimIdInvalid)
    (hknown : ctx.members ctx.scSelf ≠ none) (hfirst : first.smuId = frm) (hother : frm ≠ ctx.scSelf)
    (halive : ∀ upd ∈ first :: upds, upd.smuId = ctx.scSelf → upd.smuState.smsStatus ≠ .dead)
    (hn : 2 * (asked frm ctx.scIpings).length ≤ n) :
    ∃ ctx', runThread envs n (SwimNode.afterParse ctx.scSelf frm (first :: upds)
          (ctx.swimParseMessage env frm (first :: upds)).1)
          (ctx.swimParseMessage env frm (first :: upds)).2 =
        ((asked frm ctx.scIpings).map fun item => (frm, item.siFrom), [], ctx') ∧
      ctx'.scIpings = notAsked frm ctx.scIpings := by
  obtain ⟨state, _, hparse⟩ := SwimContext.swimParseMessage_cons hself env frm first upds
  rw [hparse]
  obtain ⟨⟨state', ctx₁⟩, hloop⟩ := SwimContext.parseLoop_ok frm env.calls state
    fun upd hupd hself => ⟨halive upd hupd hself, fun _ => hknown⟩
  have hchanges := SwimContext.parseLoop_changes (e := .message frm (first :: upds) env) frm env.calls
    (first :: upds) ctx state fun _ _ _ hin => hin
  rw [hloop] at hchanges ⊢
  have hself₁ := hchanges.2.self
  have hipings := SwimContext.scIpings_parseLoop hloop
  dsimp only
  rw [SwimContext.answer]
  rw [hfirst, hself₁, if_neg hother, if_pos rfl, ← hipings]
  rw [← hipings] at hn
  -- there is nothing left of the requests about the sender
  have hall {ctx' : SwimContext} (hnone : asked frm ctx'.scIpings = []) :
      notAsked frm ctx'.scIpings = ctx'.scIpings := by
    refine List.filter_eq_self.mpr fun item hitem => ?_
    simpa using List.filter_eq_nil_iff.mp hnone item hitem
  rcases takeIping_cases ctx₁ frm with ⟨hnil, htake⟩ | ⟨item, rest, ctx₂, hcons, htake, hrest, hothers⟩
  · rw [htake, hnil]
    exact ⟨{ ctx₁ with scState := state' }, runThread_nil envs n _, (hall hnil).symm⟩
  · rw [hcons, List.length_cons] at hn
    obtain ⟨ctx₃, hrun, hnone, hothers'⟩ := runThread_relay envs frm rest n item.siFrom
      { ctx₂ with scState := state' } hrest (by omega)
    refine ⟨ctx₃, ?_, ?_⟩
    · rw [htake, hcons, List.map_cons, ← hrun]
      simp [SwimNode.afterParse, hfirst, hother]
    · rw [← hall hnone, hothers']
      exact hothers

/-- Members 2 and 3 have asked for member 1, and another one for member 4. -/
def SwimContext.asked : SwimContext :=
  { notified with scIpings := [⟨1, 2, 0⟩, ⟨4, 5, 0⟩, ⟨1, 3, 0⟩] }

/-- Member 1 responds. -/
theorem iping_relay_twice : ∃ ctx', runThread (fun _ => ⟨fun _ => ⟨0, true, true⟩, fun _ => true,
      ⟨1, fun _ => 1, fun _ => true⟩, ⟨0, true, true⟩, ⟨true, 0⟩, 0⟩) 4
      (SwimNode.afterParse 0 1 [⟨1, ⟨1, .alive⟩⟩] (SwimContext.asked.swimParseMessage
        ⟨fun _ => ⟨0, true, true⟩, 0, true⟩ 1 [⟨1, ⟨1, .alive⟩⟩]).1)
      (SwimContext.asked.swimParseMessage
        ⟨fun _ => ⟨0, true, true⟩, 0, true⟩ 1 [⟨1, ⟨1, .alive⟩⟩]).2 =
      ([(1, 2), (1, 3)], [], ctx') ∧ ctx'.scIpings = [⟨4, 5, 0⟩] := by
  have hself : SwimContext.asked.scSelf ≠ swimIdInvalid := by decide
  exact iping_relay hself (by decide) rfl (by decide) (by decide) (by decide)

end Cart
