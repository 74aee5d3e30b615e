/-
One fetch in flight for one key (`crt_iv.c`).

One RPC at most is outstanding, whoever comes meanwhile is queued, and the response completes
the queue in order.  This holds as long as queued fetches get their record, transfers their
bulk handle, and the RPC is really sent; if not, the entry can stay marked.

Main results: `single_flight`, `issue_failure_clean_iff`.
-/
import Cart.IvKeys

open List Option

namespace Cart

open IvNode

variable {V : Type} {f : IvFetch} {ns : IvNamespace} {key : DIov}

/-! ### One key -/

/-- All keys are the same. -/
def oneKey : DIov → Unit := fun _ => ()

/-- The fetches of a key in a class. -/
def OfKey (classId : ℕ) (key : DIov) (f : IvFetch) : Prop := f.classId = classId ∧ f.ivKey = key

theorem keyClasses_one {ns : IvNamespace} {ok : IvFetch → Prop} {key : DIov}
    (hkey : ∀ f, ok f → f.ivKey = key ∧ ns.keysMatch f.classId key key = true) :
    KeyClasses ns ok oneKey where
  find f g hf hg := by
    rw [(hkey f hf).1, (hkey g hg).1, (hkey g hg).2]
    exact iff_of_true rfl rfl
  wire _ _ _ _ _ := rfl

theorem crtIvKeysMatch_self (key : DIov) : crtIvKeysMatch key key = true :=
  decide_eq_true ⟨rfl, rfl⟩

theorem DIov.Full.wire {key : DIov} (h : key.Full) : key.wire = key := by
  cases key
  simp only [DIov.wire, DIov.mk.injEq, true_and]
  exact h.symm

section OneKey

variable {ok : IvFetch → Prop} {entries : List KipEntry} {nextAddr : ℕ} {out : List IvFetch}
  {e : KipEntry} {g : KipEntry → KipEntry}

theorem length_le_one {α : Type*} {l : List α} {p : α → Unit} (h : (l.map p).Nodup) :
    l.length ≤ 1 := by
  simpa using h.length_le_card

theorem Keyed.entries_eq (h : Keyed ok oneKey entries nextAddr out) (he : e ∈ entries) :
    entries = [e] := by
  have hlength := length_le_one h.norms
  cases entries with
  | nil => cases he
  | cons b rest =>
    cases rest with
    | nil => rw [mem_singleton.mp he]
    | cons b' rest => simp at hlength

@[simp] theorem modifyEntry_singleton : modifyEntry e g [e] = [g e] := by
  simp [modifyEntry, KeyedList.modifyAt]

@[simp] theorem queuedOf_singleton : queuedOf [e] = e.kipPendingFetchList := by
  simp [queuedOf]

theorem queuedOf_unset_of_one (he : e.kipPendingFetchList = []) :
    queuedOf (crtIvfKeyInProgressUnset e [e]) = [] := by
  by_cases hone : e.kipRefcnt = 1
  · rw [unset_of_eq_one hone]
    simp [KeyedList.eraseAt, queuedOf]
  · rw [unset_of_ne_one hone, modifyEntry_singleton, queuedOf_singleton]
    exact he

end OneKey

/-! ### Single flight -/

/-- Fetches of one key, with records, RPCs and bulk handles for all. -/
def SingleKeyStep (ns : IvNamespace) (classId : ℕ) (key : DIov) (s : IvNode V) : IvEvent V → Prop
  | .fetch f env => OfKey classId key f ∧ env.pendingAllocated = true
  | .issueFail _ _ => False
  | .respond f rc env => (IvEvent.respond f rc env).BulkCreated ns s
  | _ => True

/-- At most one RPC is outstanding, and who waits is queued in order and completed once by its
response. -/
structure SingleFlight (ns : IvNamespace) (classId : ℕ) (key : DIov) (s : IvNode V) : Prop where
  atMostOne : s.outstanding.length ≤ 1
  neverLeft : s.queued ≠ [] → s.outstanding ≠ []
  inOrder : s.queued.Sublist s.arrived
  once : ∀ f ∈ s.arrived, s.completed.count f + s.underway.count f = 1
  queues : ∀ f env acts, OfKey classId key f → env.pendingAllocated = true →
    env.start f.child = .forwarded acts → s.outstanding ≠ [] →
      (s.fetch ns f env).queued = s.queued ++ [f] ∧
        (s.fetch ns f env).outstanding = s.outstanding
  drains : ∀ f rc env, f ∈ s.sent → (IvEvent.respond f rc env).BulkCreated ns s →
    let s' := s.handleIvfetchResponse ns f rc env
    s'.queued = [] ∧ s'.outstanding = [] ∧
      s'.completed = s.completed ++ ((if rc = 0 then [f] else []) ++ s.queued) ∧
      (rc ≠ 0 → (f, rc) ∈ s'.failing)

/-- What carries it through a run. -/
structure FlightInv (classId : ℕ) (key : DIov) (s : IvNode V) : Prop where
  ledger : Ledger s
  keyed : Keyed (OfKey classId key) oneKey s.entries s.nextAddr s.outstanding
  busy : ∀ e ∈ s.entries, e.kipRpcInProgress = true → s.outstanding ≠ []
  inOrder : s.queued.Sublist s.arrived

section Flight

variable {classId : ℕ} {s s' : IvNode V} {ev : IvEvent V}

section

variable (h : SingleKeyStep ns classId key s ev)

include h

theorem SingleKeyStep.bulkCreated : ev.BulkCreated ns s := by
  cases ev with
  | respond f rc env => exact h
  | _ => trivial

theorem SingleKeyStep.fetchOk : ev.FetchOk (OfKey classId key) := by
  cases ev with
  | fetch f env => exact h.1
  | _ => trivial

end

theorem Keyed.entry_wire {s : IvNode V}
    (h : Keyed (OfKey classId key) oneKey s.entries s.nextAddr s.outstanding)
    (hwire : ns.keysMatch classId key key.wire = true) (hf : f ∈ s.outstanding) :
    ∃ e, s.entries = [e] ∧ crtIvfKeyInProgressFind ns f.classId f.ivKey.wire s.entries = some e := by
  obtain ⟨e, he, _⟩ := h.marked f hf
  obtain ⟨f₀, hf₀, hkey⟩ := h.keys e he
  obtain ⟨hclass, hkey'⟩ := h.allOk f hf
  have heq := h.entries_eq he
  refine ⟨e, heq, ?_⟩
  rw [crtIvfKeyInProgressFind, heq, hclass, hkey']
  exact find?_cons_of_pos (by rw [hkey, hf₀.2, hwire])

/-- A marked entry has an RPC. -/
theorem busy_apply (hkeyed : Keyed (OfKey classId key) oneKey s.entries s.nextAddr s.outstanding)
    (hwire : ns.keysMatch classId key key.wire = true) (hallowed : SingleKeyStep ns classId key s ev)
    (henabled : ev.Enabled s) (hstep : ev.apply ns s = some s')
    (h : ∀ e ∈ s.entries, e.kipRpcInProgress = true → s.outstanding ≠ []) :
    ∀ e ∈ s'.entries, e.kipRpcInProgress = true → s'.outstanding ≠ [] := by
  cases ev with
  | fetch f env =>
    have harrival := s.arrival_fetch ns f env
    rw [some.inj hstep] at harrival
    cases harrival with
    | refused | answered => exact h
    | queued _ hfind hprogress => exact fun _ _ _ => h _ (mem_of_find hfind) hprogress
    | marked | set => exact fun _ _ _ => ne_nil_of_mem ((issue_perm s f).mem_iff.mpr mem_cons_self)
  | send f =>
    cases hstep
    exact fun _ _ _ => ne_nil_of_mem ((send_perm henabled).mem_iff.mpr (mem_append_left _ henabled))
  | issueFail f rc => exact hallowed.elim
  | respond f rc env =>
    -- the response finds the only entry
    cases hstep
    obtain ⟨e, heq, hfind⟩ := hkeyed.entry_wire hwire (mem_append_right _ henabled)
    rw [handleIvfetchResponse, hfind]
    show ∀ b ∈ modifyEntry e .drain s.entries, _
    rw [heq, modifyEntry_singleton]
    exact forall_mem_singleton.mpr fun hbusy => Bool.noConfusion hbusy
  | retire addr after =>
    obtain ⟨e, he, _, rfl⟩ := retire_eq_some hstep
    split_ifs with hprogress
    · exact h
    · intro b hb hbusy
      rcases (hkeyed.table.mem_unset he).mp hb with ⟨_, rfl⟩ | ⟨hb, _⟩
      · exact absurd hbusy hprogress
      · exact h b hb hbusy
  | finish f rc value transfer | transferDone t bciRc =>
    cases hstep
    exact h

/-- The queue only grows at its end, by the fetch that arrives, or goes. -/
theorem queue_inOrder (hkeyed : Keyed (OfKey classId key) oneKey s.entries s.nextAddr s.outstanding)
    (hstep : ev.apply ns s = some s') (h : s.queued.Sublist s.arrived) :
    s'.queued.Sublist s'.arrived := by
  have hunset {e : KipEntry} (he : e ∈ s.entries) (hnil : e.kipPendingFetchList = []) :
      queuedOf (crtIvfKeyInProgressUnset e s.entries) = [] := by
    rw [hkeyed.entries_eq he]
    exact queuedOf_unset_of_one hnil
  cases ev with
  | fetch f env =>
    have harrival := s.arrival_fetch ns f env
    rw [some.inj hstep] at harrival
    cases harrival with
    | refused => exact h
    | answered => exact h.trans (sublist_append_left _ _)
    | @queued _ e _ hfind _ =>
      have heq := hkeyed.entries_eq (mem_of_find hfind)
      rw [queued, heq, queuedOf_singleton] at h
      show (queuedOf (modifyEntry e (.queue f) s.entries)).Sublist (s.arrived ++ [f])
      rw [heq, modifyEntry_singleton, queuedOf_singleton]
      exact h.append_right [f]
    | @marked _ e _ hfind _ =>
      have heq := hkeyed.entries_eq (mem_of_find hfind)
      rw [queued, heq, queuedOf_singleton] at h
      show (queuedOf (modifyEntry e (.mark f) s.entries)).Sublist (s.arrived ++ [f])
      rw [heq, modifyEntry_singleton, queuedOf_singleton]
      exact h.trans (sublist_append_left _ _)
    | set =>
      show (queuedOf (s.entries ++ [_])).Sublist (s.arrived ++ [f])
      rw [queuedOf, flatMap_append]
      exact h.append (nil_sublist _)
  | send f | finish f rc value transfer | transferDone t bciRc =>
    cases hstep
    exact h
  | issueFail f rc =>
    cases hstep
    refine issueFail_entries_of (motive := fun es => (queuedOf es).Sublist s.arrived) h
      fun e hfind hnil => ?_
    rw [hunset (mem_of_find hfind) hnil]
    exact nil_sublist _
  | respond f rc env =>
    cases hstep
    rw [handleIvfetchResponse]
    cases hfind : crtIvfKeyInProgressFind ns f.classId f.ivKey.wire s.entries with
    | some e =>
      show (queuedOf (modifyEntry e .drain s.entries)).Sublist s.arrived
      rw [hkeyed.entries_eq (mem_of_find hfind), modifyEntry_singleton, queuedOf_singleton]
      exact nil_sublist _
    | none => exact h
  | retire addr after =>
    obtain ⟨e, he, _, rfl⟩ := retire_eq_some hstep
    show (queuedOf (if _ then _ else _)).Sublist s.arrived
    split_ifs with hprogress
    · exact h
    · rw [hunset he (not_not.mp fun hnil => hprogress (hkeyed.table.marked e he hnil))]
      exact nil_sublist _

section

variable (h : FlightInv classId key s)

include h

theorem FlightInv.apply (hns : KeyClasses ns (OfKey classId key) oneKey)
    (hwire : ns.keysMatch classId key key.wire = true) (hallowed : SingleKeyStep ns classId key s ev)
    (henabled : ev.Enabled s) (hstep : ev.apply ns s = some s') : FlightInv classId key s' where
  ledger := h.ledger.apply hallowed.bulkCreated henabled hstep
  keyed := h.keyed.apply hns hallowed.fetchOk henabled hstep
  busy := busy_apply h.keyed hwire hallowed henabled hstep h.busy
  inOrder := queue_inOrder h.keyed hstep h.inOrder

theorem FlightInv.entry (hout : s.outstanding ≠ []) :
    ∃ e, s.entries = [e] ∧ e.kipRpcInProgress = true ∧ s.queued = e.kipPendingFetchList := by
  obtain ⟨f, hf⟩ := exists_mem_of_ne_nil _ hout
  obtain ⟨e, he, _, hprogress⟩ := h.keyed.marked f hf
  have heq := h.keyed.entries_eq he
  refine ⟨e, heq, hprogress, ?_⟩
  rw [queued, heq, queuedOf_singleton]

theorem FlightInv.queues (hns : KeyClasses ns (OfKey classId key) oneKey) {env : FetchEnv V}
    {acts : List (IvAct V)} (hf : OfKey classId key f) (halloc : env.pendingAllocated = true)
    (hstart : env.start f.child = .forwarded acts) (hout : s.outstanding ≠ []) :
    (s.fetch ns f env).queued = s.queued ++ [f] ∧
      (s.fetch ns f env).outstanding = s.outstanding := by
  obtain ⟨e, heq, hprogress, hqueued⟩ := h.entry hout
  have hfind : crtIvfKeyInProgressFind ns f.classId f.ivKey s.entries = some e :=
    h.keyed.find_of_norm hns hf (heq ▸ mem_singleton_self e) rfl
  rw [fetch_of_forwarded hstart, crtIvfRpcIssue, arrive_entries, hfind, hqueued]
  simp only [hprogress, if_true, halloc]
  refine ⟨?_, rfl⟩
  show queuedOf (modifyEntry e (.queue f) s.entries) = _
  rw [heq, modifyEntry_singleton, queuedOf_singleton]
  rfl

theorem FlightInv.drains (hwire : ns.keysMatch classId key key.wire = true) {rc : ℤ} {env : ResponseEnv V} (hf : f ∈ s.sent)
    (hcreated : (IvEvent.respond f rc env).BulkCreated ns s) :
    let s' := s.handleIvfetchResponse ns f rc env
    s'.queued = [] ∧ s'.outstanding = [] ∧
      s'.completed = s.completed ++ ((if rc = 0 then [f] else []) ++ s.queued) ∧
      (rc ≠ 0 → (f, rc) ∈ s'.failing) := by
  intro s'
  have hmem : f ∈ s.outstanding := mem_append_right _ hf
  obtain ⟨e, heq, hfind⟩ := h.keyed.entry_wire hwire hmem
  have hqueued : s.queued = e.kipPendingFetchList := by
    rw [queued, heq, queuedOf_singleton]
  have hs' : s' = s.handleIvfetchResponse ns f rc env := rfl
  rw [handleIvfetchResponse, hfind] at hs'
  refine ⟨?_, ?_, ?_, fun hrc => ?_⟩
  · rw [hs']
    show queuedOf (modifyEntry e .drain s.entries) = []
    rw [heq, modifyEntry_singleton, queuedOf_singleton]
    rfl
  · have hlength := (sent_perm hf).length_eq
    have hone := length_le_one h.keyed.once
    rw [length_cons] at hlength
    rw [hs']
    show s.issuing ++ s.sent.erase f = []
    exact length_eq_zero_iff.mp (by omega)
  · have hfirst := (Ledger.count_first f hcreated.1).1
    have hdone := forall_mem_append.mpr
      ⟨hfirst, pendingReqs_answered (hcreated.2 e hfind)⟩
    rw [hs', hqueued]
    refine (completed_perform f.classId _ s).trans ?_
    rw [tally_completes hdone, map_append, pendingReqs_fst]
    congr 2
    split_ifs <;> rfl
  · rw [hs']
    refine mem_append_left _ ?_
    rw [filterMap_append]
    refine mem_append_right _ ?_
    rw [if_neg hrc]
    exact mem_singleton_self _

end

end Flight

/-- **Single flight**, for one key of a class with the default comparison. -/
theorem single_flight {ns : IvNamespace} {classId : ℕ} {key : DIov}
    (hdefault : ns.ivoKeysMatch classId = none) (hfull : key.Full) {s : IvNode V}
    (hs : ((ivNodeLts V ns).restrict fun s ev => SingleKeyStep ns classId key s ev).Reach s) :
    SingleFlight ns classId key s := by
  have hmatch : ns.keysMatch classId key key = true := by
    rw [IvNamespace.keysMatch, hdefault]
    exact crtIvKeysMatch_self key
  have hns : KeyClasses ns (OfKey classId key) oneKey :=
    keyClasses_one fun f hf => ⟨hf.2, hf.1 ▸ hmatch⟩
  have hwire : ns.keysMatch classId key key.wire = true := by
    rw [hfull.wire]
    exact hmatch
  have hinv : ((ivNodeLts V ns).restrict fun s ev => SingleKeyStep ns classId key s ev).Invariant
      (FlightInv classId key) := by
    refine ⟨fun s hs => ?_, fun s ev s' h henabled hstep => ?_⟩
    · obtain rfl := hs
      exact ⟨.empty, .empty, forall_mem_nil _, nil_sublist _⟩
    · exact h.apply hns hwire henabled.2 henabled.1 hstep
  have h := hinv.reach hs
  refine ⟨length_le_one h.keyed.once, fun hqueued => ?_, h.inOrder, fun f hf => ?_,
    fun f env acts hf halloc hstart hout => h.queues hns hf halloc hstart hout,
    fun f rc env hf hcreated => h.drains hwire hf hcreated⟩
  · obtain ⟨g, hg⟩ := exists_mem_of_ne_nil _ hqueued
    obtain ⟨e, he, hge⟩ := mem_flatMap.mp hg
    exact h.busy e he (h.keyed.table.marked e he (ne_nil_of_mem hge))
  · rw [h.ledger.balance f]
    exact count_eq_one_of_mem h.ledger.nodup hf

/-! A fetch of the node itself, and one of a child that is queued behind it -/

/-- Classes that leave the comparison to the library. -/
def defaultNamespace : IvNamespace := ⟨fun _ => none⟩

/-- A key of one byte. -/
def sampleKey : DIov := ⟨[7], 1, 1, rfl⟩

/-- The node's own fetch. -/
def sampleFetch : IvFetch := ⟨0, false, 0, sampleKey⟩

/-- The child's. -/
def sampleChild : IvFetch := ⟨1, true, 0, sampleKey⟩

theorem ivNode_safe_default : ((ivNodeLts ℕ defaultNamespace).restrict fun s ev => Disciplined
    defaultNamespace (OfKey 0 sampleKey) s ev ∧ ev.NoOverflow defaultNamespace s).Safe :=
  ivNode_safe (keyClasses_one fun _ hf => ⟨hf.2, rfl⟩)

/-- Nothing is in the way of a transfer. -/
def sampleTransfer : TransferEnv := ⟨0, true, 0⟩

/-- A fetch that has to be forwarded, with all the memory it asks for. -/
def sampleForward : FetchEnv ℕ :=
  ⟨true, true, true, true, 0, true, 0, -derIvcbForward, 0, 0, 0, false, 0, true, true, true,
    sampleTransfer⟩

/-- The value 5 arrives. -/
def sampleResponse : ResponseEnv ℕ := ⟨5, sampleTransfer, fun _ => ⟨0, 0, 5, sampleTransfer⟩⟩

theorem single_flight_sample :
    let s := (((.empty : IvNode ℕ).fetch defaultNamespace sampleFetch sampleForward).fetch
      defaultNamespace sampleChild sampleForward).send sampleFetch
    s.queued = [sampleChild] ∧ s.sent = [sampleFetch] ∧
      SingleFlight defaultNamespace 0 sampleKey s := by
  have hfull : sampleKey.Full := rfl
  refine ⟨rfl, rfl, single_flight rfl hfull ⟨.empty, [.fetch sampleFetch sampleForward,
    .fetch sampleChild sampleForward, .send sampleFetch], rfl, ?_⟩⟩
  exact .cons ⟨by decide, ⟨rfl, rfl⟩, rfl⟩ rfl
    (.cons ⟨by decide, ⟨rfl, rfl⟩, rfl⟩ rfl (.cons ⟨by decide, trivial⟩ rfl (.nil _)))

/-- No bulk handle can be created for the child: it is off the queue, and nothing is done for
it. -/
theorem queued_child_lost :
    ∃ s, (ivNodeLts ℕ defaultNamespace).Run .empty
        [.fetch sampleFetch sampleForward, .fetch sampleChild sampleForward, .send sampleFetch,
          .respond sampleFetch 0
            ⟨5, sampleTransfer, fun _ => ⟨0, 0, 5, ⟨-derNomem, true, 0⟩⟩⟩] s ∧
      sampleChild ∈ s.arrived ∧ s.completed = [sampleFetch] ∧ s.underway = [] ∧
        s.transfers = [] := by
  exact ⟨_, Lts.run_of_exec rfl, by decide, rfl, rfl, rfl⟩

/-! ### An RPC that cannot be issued -/

/-- The fetches of a key, by classes that agree on whether it matches itself. -/
def SameKey (ns : IvNamespace) (key : DIov) (matchesItself : Bool) (f : IvFetch) : Prop :=
  f.ivKey = key ∧ ns.keysMatch f.classId key key = matchesItself

section Failure

variable {s : IvNode V} {f g : IvFetch}

/-- A key that does not match itself is never found, and nobody waits. -/
theorem unmatched_invariant (V : Type) (ns : IvNamespace) (key : DIov) :
    ((ivNodeLts V ns).restrict fun _ ev => ev.FetchOk (SameKey ns key false)).Invariant fun s =>
      WellKept s.entries s.nextAddr ∧
        ∀ e ∈ s.entries, e.kipKey = key ∧ e.kipPendingFetchList = [] := by
  refine ⟨fun s hs => ?_, fun s ev s' h henabled hstep => ?_⟩
  · obtain rfl := hs
    exact ⟨.empty, forall_mem_nil _⟩
  have htable := h.1.apply ns ev hstep
  refine ⟨htable, ?_⟩
  have hunset {e : KipEntry} (he : e ∈ s.entries) :
      ∀ b ∈ crtIvfKeyInProgressUnset e s.entries, b.kipKey = key ∧ b.kipPendingFetchList = [] := by
    intro b hb
    rcases (h.1.mem_unset he).mp hb with ⟨_, rfl⟩ | ⟨hb, _⟩
    · exact h.2 e he
    · exact h.2 b hb
  cases ev with
  | fetch f env =>
    have hfind : crtIvfKeyInProgressFind ns f.classId f.ivKey s.entries = none := by
      refine List.find?_eq_none.mpr fun e he => ?_
      have hok : SameKey ns key false f := henabled.2
      rw [(h.2 e he).1, hok.1, hok.2]
      exact Bool.false_ne_true
    have harrival := s.arrival_fetch ns f env
    rw [show s.fetch ns f env = s' from some.inj hstep] at harrival
    cases harrival with
    | refused | answered => exact h.2
    | queued _ hfind' _ | marked _ hfind' _ =>
      rw [hfind] at hfind'
      cases hfind'
    | set =>
      exact forall_mem_append.mpr
        ⟨h.2, forall_mem_singleton.mpr ⟨henabled.2.1, rfl⟩⟩
  | send f | finish f rc value transfer | transferDone t bciRc =>
    cases hstep
    exact h.2
  | issueFail f rc =>
    cases hstep
    exact issueFail_entries_of (motive := (∀ b ∈ ·, b.kipKey = key ∧ b.kipPendingFetchList = []))
      h.2 fun e hfind _ => hunset (mem_of_find hfind)
  | respond f rc env =>
    cases hstep
    rw [handleIvfetchResponse]
    cases hfind : crtIvfKeyInProgressFind ns f.classId f.ivKey.wire s.entries with
    | some e =>
      intro b hb
      rcases (h.1.mem_modifyEntry (mem_of_find hfind)).mp hb with rfl | ⟨hb, _⟩
      · exact ⟨(h.2 e (mem_of_find hfind)).1, rfl⟩
      · exact h.2 b hb
    | none => exact h.2
  | retire addr after =>
    obtain ⟨e, he, _, rfl⟩ := retire_eq_some hstep
    split_ifs
    · exact h.2
    · exact hunset he

/-- The entry of the RPC is left marked, unless it goes. -/
theorem issueFail_clean_iff_of_keyed
    (h : Keyed (SameKey ns key true) oneKey s.entries s.nextAddr s.outstanding) (hf : f ∈ s.issuing)
    (rc : ℤ) (hg : SameKey ns key true g) : ((s.issueFail ns f rc).queued = [] ∧
        ∀ e, crtIvfKeyInProgressFind ns g.classId g.ivKey (s.issueFail ns f rc).entries = some e →
          e.kipRpcInProgress = false) ↔
      ∀ e, crtIvfKeyInProgressFind ns f.classId f.ivKey s.entries = some e →
        e.kipPendingFetchList = [] ∧ e.kipRefcnt = 1 := by
  have hns : KeyClasses ns (SameKey ns key true) oneKey := keyClasses_one fun _ h => h
  obtain ⟨e, he, hfind, _, hprogress⟩ := h.entry hns (mem_append_left _ hf)
  have heq := h.entries_eq he
  have hafter := h.issueFail hns hf rc
  rw [hfind, queued]
  simp only [some.injEq, forall_eq']
  simp only [issueFail, hfind] at hafter ⊢
  by_cases hnil : e.kipPendingFetchList = []
  · rw [if_pos hnil] at hafter ⊢
    by_cases hone : e.kipRefcnt = 1
    · refine iff_of_true ⟨?_, ?_⟩ ⟨hnil, hone⟩
      · rw [heq]
        exact queuedOf_unset_of_one hnil
      · rw [heq, unset_of_eq_one hone]
        simp [KeyedList.eraseAt, crtIvfKeyInProgressFind]
    · refine iff_of_false (fun hclean => ?_) fun hgood => hone hgood.2
      have hmem : e.decref ∈ crtIvfKeyInProgressUnset e s.entries :=
        (h.table.mem_unset he).mpr (Or.inl ⟨hone, rfl⟩)
      have hfalse := hclean.2 e.decref (hafter.find_of_norm hns hg hmem rfl)
      exact Bool.noConfusion (hfalse.symm.trans hprogress)
  · rw [if_neg hnil]
    refine iff_of_false (fun hclean => hnil ?_) fun hgood => hnil hgood.1
    rw [heq, queuedOf_singleton] at hclean
    exact hclean.1

/-- **What a failure to issue leaves behind**: nothing exactly if nobody has been queued in the
meantime and the entry had one reference. -/
theorem issue_failure_clean_iff {matchesItself : Bool}
    (hs : ((ivNodeLts V ns).restrict fun _ ev =>
      ev.FetchOk (SameKey ns key matchesItself)).Reach s)
    (hf : f ∈ s.issuing) (rc : ℤ) (hg : SameKey ns key matchesItself g) (hnew : g ∉ s.arrived)
    {env : FetchEnv V} {acts : List (IvAct V)} (hstart : env.start g.child = .forwarded acts)
    (halloc : env.entryAllocated = true) :
    ((s.issueFail ns f rc).queued = [] ∧
        g ∈ ((s.issueFail ns f rc).fetch ns g env).issuing) ↔
      ∀ e, crtIvfKeyInProgressFind ns f.classId f.ivKey s.entries = some e →
        e.kipPendingFetchList = [] ∧ e.kipRefcnt = 1 := by
  obtain ⟨hok, hout⟩ := (arrived_invariant V ns (SameKey ns key matchesItself)).reach hs
  have hnew' : g ∉ (s.issueFail ns f rc).issuing :=
    fun hmem => hnew (hout (mem_append_left _ (mem_of_mem_erase hmem)))
  rw [IvNode.mem_issuing_fetch hstart halloc hnew']
  cases matchesItself with
  | true =>
    have hns : KeyClasses ns (SameKey ns key true) oneKey := keyClasses_one fun _ h => h
    have hinv : ((ivNodeLts V ns).restrict fun _ ev =>
        ev.FetchOk (SameKey ns key true)).Invariant fun s =>
          Keyed (SameKey ns key true) oneKey s.entries s.nextAddr s.outstanding := by
      refine ⟨fun s hs => ?_, fun s ev s' h henabled hstep => ?_⟩
      · obtain rfl := hs
        exact .empty
      · exact h.apply hns henabled.2 henabled.1 hstep
    exact issueFail_clean_iff_of_keyed (hinv.reach hs) hf rc hg
  | false =>
    obtain ⟨_, hentries⟩ := (unmatched_invariant V ns key).reach hs
    have hfind (f : IvFetch) (hf : SameKey ns key false f) :
        crtIvfKeyInProgressFind ns f.classId f.ivKey s.entries = none := by
      refine List.find?_eq_none.mpr fun e he => ?_
      rw [(hentries e he).1, hf.1, hf.2]
      exact Bool.false_ne_true
    have hfail := hfind f (hok f (hout (mem_append_left _ hf)))
    simp only [IvNode.queued, issueFail, hfail, hfind g hg]
    refine iff_of_true ⟨?_, by simp⟩ (by simp)
    exact flatMap_eq_nil_iff.mpr fun e he => (hentries e he).2

end Failure

theorem issue_failure_sample :
    let s := (.empty : IvNode ℕ).fetch defaultNamespace sampleFetch sampleForward
    (s.issueFail defaultNamespace sampleFetch (-derNomem)).queued = [] ∧
      sampleChild ∈ ((s.issueFail defaultNamespace sampleFetch (-derNomem)).fetch
        defaultNamespace sampleChild sampleForward).issuing := by
  have hchild : SameKey defaultNamespace sampleKey true sampleChild := ⟨rfl, rfl⟩
  refine (issue_failure_clean_iff ⟨.empty, [.fetch sampleFetch sampleForward], rfl, ?_⟩
    (by decide) _ hchild (by decide) rfl rfl).mpr ?_
  · exact .cons ⟨by decide, rfl, rfl⟩ rfl (.nil _)
  · rintro _ ⟨⟩
    exact ⟨rfl, rfl⟩

/-- A fetch is queued before the RPC turns out not to be sent, and stays there. -/
theorem queued_behind_nothing :
    ∃ s, (ivNodeLts ℕ defaultNamespace).Run .empty
        [.fetch sampleFetch sampleForward, .fetch sampleChild sampleForward,
          .issueFail sampleFetch (-derNomem),
          .fetch ⟨2, false, 0, sampleKey⟩ sampleForward] s ∧
      s.queued = [sampleChild, ⟨2, false, 0, sampleKey⟩] ∧ s.outstanding = [] ∧
        s.failing = [] := by
  exact ⟨_, Lts.run_of_exec rfl, rfl, rfl, rfl⟩

end Cart
