/-
Every fetch is in one place, or has been completed (`crt_iv.c`).

The fetches that have arrived are the completed ones and those about to be sent, sent, queued,
or failed and about to be finalized.  Every event moves fetches between these places, as long
as the calls that do not look at what `crt_ivf_bulk_transfer` returns get their bulk handle.

Main result: `ledger_invariant`.
-/
import Cart.IvNode

open List Option

namespace Cart

open KipEntry IvNode IvAct

variable {V : Type} {f : IvFetch} {entries : List KipEntry} {acts : List (IvAct V)} {rc : ℤ}
  {nextAddr : ℕ} {done : List (IvFetch × List (IvAct V))} {env : IvNode.ResponseEnv V}
  {e : KipEntry}

/-! ### The books -/

/-- The fetches that wait. -/
def queuedOf (entries : List KipEntry) : List IvFetch :=
  entries.flatMap kipPendingFetchList

namespace IvNode

variable (s : IvNode V)

/-- The fetches that wait at the node. -/
def queued : List IvFetch := queuedOf s.entries

/-- The fetches whose RPC is outstanding: it has been sent, or is about to be. -/
def outstanding : List IvFetch := s.issuing ++ s.sent

/-- The fetches whose RPC has failed, and that are finalized after the queue. -/
def failing : List (IvFetch × ℤ) := s.retiring.filterMap Prod.snd ++ s.finishing

/-- The fetches that are not completed yet. -/
def underway : List IvFetch :=
  s.outstanding ++ s.queued ++ s.failing.map Prod.fst

/-- The fetches that have been completed, in this order. -/
def completed : List IvFetch :=
  (s.log.filter fun r => r.act.completes).map IvRecord.fetch

/-- The fetches that have been replied to. -/
def replied : List IvFetch :=
  (s.log.filter fun r => r.act.replies).map IvRecord.fetch

/-- The fetches whose value is being transferred. -/
def transferring : List IvFetch := s.transfers.map IvTransfer.fetch

end IvNode

/-- The fetches for which something of a kind is done. -/
def tally (p : IvAct V → Bool) (done : List (IvFetch × List (IvAct V))) : List IvFetch :=
  done.flatMap fun d => List.replicate (d.2.countP p) d.1

/-- The value is sent to the child. -/
def IvAct.transfers : IvAct V → Bool
  | .transfer _ _ => true
  | .get _ _ | .put _ | .compCb _ _ | .reply _ | .transferred _ => false

@[simp] theorem tally_nil (p : IvAct V → Bool) : tally p [] = [] := rfl

@[simp] theorem tally_cons (p : IvAct V → Bool) (f : IvFetch) (acts : List (IvAct V))
    (done : List (IvFetch × List (IvAct V))) :
    tally p ((f, acts) :: done) = replicate (acts.countP p) f ++ tally p done := rfl

theorem filter_records (p : IvAct V → Bool) (classId : ℕ) (done : List (IvFetch × List (IvAct V))) :
    ((done.flatMap fun d => d.2.map fun act => (⟨d.1, classId, act⟩ : IvRecord V)).filter
      fun r => p r.act).map IvRecord.fetch = tally p done := by
  induction done with
  | nil => rfl
  | cons d done ih =>
    rw [flatMap_cons, filter_append, map_append, ih, tally_cons]
    congr 1
    rw [List.filter_map, List.map_map, countP_eq_length_filter]
    exact map_const'

theorem fetch_startedTransfers (f : IvFetch) (classId : ℕ) (acts : List (IvAct V)) :
    (startedTransfers f classId acts).map IvTransfer.fetch =
      replicate (acts.countP transfers) f := by
  induction acts with
  | nil => rfl
  | cons act acts ih =>
    cases act with
    | transfer buf value =>
      rw [countP_cons_of_pos rfl, replicate_succ, ← ih]
      rfl
    | _ =>
      rw [countP_cons_of_neg (by simp [IvAct.transfers]), ← ih]
      rfl

namespace IvNode

variable (classId : ℕ) (done : List (IvFetch × List (IvAct V))) (s : IvNode V)

theorem completed_perform :
    (s.perform classId done).completed = s.completed ++ tally completes done := by
  rw [completed, perform, filter_append, map_append, filter_records]
  rfl

theorem replied_perform :
    (s.perform classId done).replied = s.replied ++ tally replies done := by
  rw [replied, perform, filter_append, map_append, filter_records]
  rfl

theorem transferring_perform :
    (s.perform classId done).transferring = s.transferring ++ tally IvAct.transfers done := by
  rw [transferring, perform, map_append, map_flatMap]
  simp only [fetch_startedTransfers]
  rfl

end IvNode

/-! ### What is done for the fetches of a round -/

/-- Each of them is completed once. -/
def AllAnswered (done : List (IvFetch × List (IvAct V))) : Prop :=
  ∀ d ∈ done, Answers d.1.child 1 d.2

theorem tally_completes (h : AllAnswered done) :
    tally completes done = done.map Prod.fst := by
  induction done with
  | nil => rfl
  | cons d done ih =>
    obtain ⟨hd, hdone⟩ := forall_mem_cons.mp h
    rw [tally, flatMap_cons, hd.completes, map_cons, ← ih hdone]
    rfl

/-- A child is told by a reply or by a transfer. -/
theorem countP_completes_of_addressed (h : ∀ act ∈ acts, act.addressed true = true) :
    acts.countP IvAct.completes = acts.countP IvAct.replies + acts.countP IvAct.transfers := by
  induction acts with
  | nil => rfl
  | cons act acts ih =>
    obtain ⟨hact, hacts⟩ := forall_mem_cons.mp h
    have ih := ih hacts
    simp only [countP_cons]
    cases act with
    | compCb rc value | transferred rc => cases hact
    | _ =>
      simp only [IvAct.completes, IvAct.replies, IvAct.transfers, if_true, Bool.false_eq_true,
        if_false]
      omega

theorem count_tally_child (hchild : f.child = true)
    (h : ∀ d ∈ done, ∀ act ∈ d.2, act.addressed d.1.child = true) :
    (tally completes done).count f =
      (tally replies done).count f + (tally transfers done).count f := by
  induction done with
  | nil => rfl
  | cons d done ih =>
    obtain ⟨g, acts⟩ := d
    obtain ⟨hd, hdone⟩ := forall_mem_cons.mp h
    simp only [tally_cons, count_append, ih hdone, count_replicate]
    by_cases hg : g = f
    · subst hg
      have hcount : acts.countP completes = _ :=
        countP_completes_of_addressed fun act hact => hchild ▸ hd act hact
      simp only [beq_self_eq_true, if_true]
      omega
    · simp [beq_false_of_ne hg]

theorem pendingReqs_fst (env : IvFetch → PendingEnv V) (rcValue : ℤ) (queue : List IvFetch) :
    (crtIvfPendingReqsProcess env rcValue queue).map Prod.fst = queue := by
  induction queue generalizing rcValue with
  | nil => rfl
  | cons f queue ih => exact congrArg _ (ih _)

/-- The loop gets the bulk handles that it asks for, with `rc_value` as it goes along. -/
def PendingCreated (env : IvFetch → PendingEnv V) : ℤ → List IvFetch → Prop
  | _, [] => True
  | rcValue, f :: queue => (env f).Creates f.child rcValue ∧
    PendingCreated env (pendingStep f.child rcValue (env f)).2 queue

instance (env : IvFetch → PendingEnv V) (rcValue : ℤ) (queue : List IvFetch) :
    Decidable (PendingCreated env rcValue queue) := by
  induction queue generalizing rcValue with
  | nil => exact .isTrue trivial
  | cons f queue ih => exact instDecidableAnd

theorem pendingReqs_answered {env : IvFetch → PendingEnv V} {rcValue : ℤ} {queue : List IvFetch}
    (h : PendingCreated env rcValue queue) :
    AllAnswered (crtIvfPendingReqsProcess env rcValue queue) := by
  induction queue generalizing rcValue with
  | nil => exact forall_mem_nil _
  | cons f queue ih =>
    exact forall_mem_cons.mpr ⟨answers_pendingStep rcValue h.1, ih h.2⟩

/-! ### The queue of an entry -/

theorem count_queuedOf_modify
    {g : KipEntry → KipEntry} (h : WellKept entries nextAddr) (he : e ∈ entries) (f : IvFetch) :
    (queuedOf (modifyEntry e g entries)).count f + e.kipPendingFetchList.count f =
      (queuedOf entries).count f + (g e).kipPendingFetchList.count f := by
  have hbefore := ((KeyedList.perm_cons_eraseAt h.nodup he).flatMap_right
    kipPendingFetchList).count_eq f
  have hafter := ((KeyedList.modifyAt_perm (g := g) h.nodup he).flatMap_right
    kipPendingFetchList).count_eq f
  rw [flatMap_cons, count_append] at hbefore hafter
  rw [queuedOf, queuedOf, modifyEntry, hbefore, hafter]
  omega

theorem count_queuedOf_unset (h : WellKept entries nextAddr) (he : e ∈ entries)
    (hnil : e.kipPendingFetchList = []) (f : IvFetch) :
    (queuedOf (crtIvfKeyInProgressUnset e entries)).count f = (queuedOf entries).count f := by
  by_cases hone : e.kipRefcnt = 1
  · have hbefore := ((KeyedList.perm_cons_eraseAt h.nodup he).flatMap_right
      kipPendingFetchList).count_eq f
    rw [flatMap_cons, count_append, hnil, count_nil, Nat.zero_add] at hbefore
    rw [unset_of_eq_one hone]
    exact hbefore.symm
  · have hmodify := count_queuedOf_modify (g := decref) h he f
    rw [unset_of_ne_one hone]
    exact Nat.add_right_cancel hmodify

/-! ### The books are balanced -/

/-- Whoever does not look at what `crt_ivf_bulk_transfer` returns gets the bulk
handle for a child's value. -/
def IvEvent.BulkCreated (ns : IvNamespace) (s : IvNode V) : IvEvent V → Prop
  | .respond f rc env => (rc = 0 → env.transfer.Created f.child) ∧
    ∀ e ∈ crtIvfKeyInProgressFind ns f.classId f.ivKey.wire s.entries,
      PendingCreated env.pending rc e.kipPendingFetchList
  | _ => True

instance (ns : IvNamespace) (s : IvNode V) (ev : IvEvent V) : Decidable (ev.BulkCreated ns s) := by
  apply IvEvent.casesOn (motive := (Decidable <| IvEvent.BulkCreated ns s ·)) ev <;> intros <;>
    dsimp only [IvEvent.BulkCreated] <;> infer_instance

/-- Completed and under way add up to what has arrived. -/
structure Ledger (s : IvNode V) : Prop where
  table : WellKept s.entries s.nextAddr
  nodup : s.arrived.Nodup
  failed : ∀ p ∈ s.failing, p.2 ≠ 0
  balance : ∀ f, s.completed.count f + s.underway.count f = s.arrived.count f
  replies : ∀ f, f.child = true →
    s.completed.count f = s.replied.count f + s.transferring.count f

namespace Ledger

variable {ns : IvNamespace} {s s' : IvNode V}

theorem count_underway (s : IvNode V) (f : IvFetch) :
    s.underway.count f = s.issuing.count f + s.sent.count f + (queuedOf s.entries).count f +
      (s.failing.map Prod.fst).count f := by
  simp only [underway, outstanding, queued, count_append]

/-- What an event has to get right: the fetches that it completes, and those that
it takes in, are accounted for. -/
theorem moved (h : Ledger s) (classId : ℕ) (done : List (IvFetch × List (IvAct V)))
    (hdone : ∀ d ∈ done, ∃ n, Answers d.1.child n d.2)
    (hlog : s'.log = (s.perform classId done).log)
    (htransfers : s'.transfers = (s.perform classId done).transfers)
    (htable : WellKept s'.entries s'.nextAddr) (hnodup : s'.arrived.Nodup)
    (hfailed : ∀ p ∈ s'.failing, p.2 ≠ 0)
    (hmoved : ∀ f, (tally completes done).count f + s'.underway.count f +
      s.arrived.count f = s.underway.count f + s'.arrived.count f) : Ledger s' := by
  have hcompleted : s'.completed = s.completed ++ tally completes done := by
    rw [← completed_perform classId, completed, hlog, completed]
  have hreplied : s'.replied = s.replied ++ tally IvAct.replies done := by
    rw [← replied_perform classId, replied, hlog, replied]
  have htransferring : s'.transferring = s.transferring ++ tally transfers done := by
    rw [← transferring_perform classId, transferring, htransfers,
      transferring]
  refine ⟨htable, hnodup, hfailed, fun f => ?_, fun f hchild => ?_⟩
  · have hbalance := h.balance f
    have hmoved := hmoved f
    rw [hcompleted, count_append]
    omega
  · have hold := h.replies f hchild
    have hnew := count_tally_child hchild fun d hd => (hdone d hd).choose_spec.addressed
    rw [hcompleted, hreplied, htransferring, count_append, count_append,
      count_append]
    omega

theorem arrive (h : Ledger s) (hf : f ∉ s.arrived) {n : ℕ} (hacts : Answers f.child n acts)
    {issuing : List IvFetch} (htable : WellKept entries nextAddr)
    (hmoved : ∀ g, issuing.count g + (queuedOf entries).count g + n * [f].count g =
      s.issuing.count g + (queuedOf s.entries).count g + [f].count g) :
    Ledger { s.arrive f acts with entries, nextAddr, issuing } := by
  refine h.moved f.classId [(f, acts)] (forall_mem_singleton.mpr ⟨n, hacts⟩) rfl rfl htable
    ?_ h.failed fun g => ?_
  · show (s.arrived ++ [f]).Nodup
    rw [← concat_eq_append]
    exact h.nodup.concat hf
  · have hmoved := hmoved g
    rw [count_underway, count_underway]
    show _ + (issuing.count g + s.sent.count g + (queuedOf entries).count g +
      (s.failing.map Prod.fst).count g) + _ = _ + (s.arrived ++ [f]).count g
    rw [tally_cons, tally_nil, append_nil, hacts.completes, count_append]
    have hreplicate : (replicate n f).count g = n * [f].count g := by
      rw [count_replicate, count_singleton]
      split_ifs <;> simp
    omega

theorem fetch (h : Ledger s) (env : FetchEnv V) (hf : f ∉ s.arrived) :
    Ledger (s.fetch ns f env) := by
  have harrival := s.arrival_fetch ns f env
  generalize s.fetch ns f env = s' at harrival
  cases harrival with
  | refused => exact h
  | answered hacts =>
    refine h.arrive hf hacts h.table fun g => ?_
    show s.issuing.count g + (queuedOf s.entries).count g + _ = _
    omega
  | queued hacts hfind hprogress =>
    have he := mem_of_find hfind
    refine h.arrive hf hacts (h.table.modify he (fun _ => rfl) fun _ => hprogress) fun g => ?_
    have hcount := count_queuedOf_modify (g := .queue f) h.table he g
    rw [queue, count_append] at hcount
    show s.issuing.count g + _ + _ = _
    omega
  | marked hacts hfind hprogress =>
    have he := mem_of_find hfind
    refine h.arrive hf hacts (h.table.modify he (fun _ => rfl) fun _ => rfl) fun g => ?_
    have hcount := Nat.add_right_cancel (count_queuedOf_modify (g := .mark f) h.table he g)
    rw [count_append]
    omega
  | set hacts hfind =>
    refine h.arrive hf hacts (h.table.set f) fun g => ?_
    rw [count_append, queuedOf, queuedOf, flatMap_append, count_append]
    show _ + (_ + ([] : List IvFetch).count g) + _ = _
    rw [count_nil]
    omega

theorem count_erase_add {l : List IvFetch} (hf : f ∈ l) (g : IvFetch) :
    (l.erase f).count g + [f].count g = l.count g := by
  have hperm := (perm_cons_erase hf).count_eq g
  rw [count_cons] at hperm
  rw [count_singleton]
  omega

theorem send (h : Ledger s) (hf : f ∈ s.issuing) : Ledger (s.send f) := by
  refine h.moved f.classId [] (forall_mem_nil _) ?_ ?_ h.table h.nodup h.failed fun g => ?_
  · exact (append_nil _).symm
  · exact (append_nil _).symm
  · have herase := count_erase_add hf g
    rw [count_underway, count_underway]
    show 0 + ((s.issuing.erase f).count g + (s.sent ++ [f]).count g +
      (queuedOf s.entries).count g + (s.failing.map Prod.fst).count g) + s.arrived.count g = _
    rw [count_append]
    show _ = _ + s.arrived.count g
    omega

theorem tally_single (hacts : Answers f.child 1 acts) :
    tally completes [(f, acts)] = [f] := by
  rw [tally_cons, hacts.completes]
  rfl

theorem issueFail (h : Ledger s) (hf : f ∈ s.issuing) : Ledger (s.issueFail ns f rc) := by
  have htable : WellKept (s.issueFail ns f rc).entries s.nextAddr :=
    h.table.apply ns (.issueFail f rc) rfl
  have hqueued (g : IvFetch) :
      (queuedOf (s.issueFail ns f rc).entries).count g = (queuedOf s.entries).count g :=
    issueFail_entries_of (motive := fun es => (queuedOf es).count g = _) rfl fun e hfind hnil =>
      count_queuedOf_unset h.table (mem_of_find hfind) hnil g
  have hacts : Answers f.child 1 (issueFailed f.child rc : List (IvAct V)) :=
    answers_issueFailed _ _
  refine h.moved f.classId [(f, issueFailed f.child rc)]
    (forall_mem_singleton.mpr ⟨1, hacts⟩) rfl rfl htable h.nodup h.failed fun g => ?_
  have herase := count_erase_add hf g
  rw [count_underway, count_underway, hqueued g, tally_single hacts]
  show [f].count g + ((s.issuing.erase f).count g + s.sent.count g + (queuedOf s.entries).count g +
    (s.failing.map Prod.fst).count g) + s.arrived.count g = _ + s.arrived.count g
  omega

/-- A fetch that has succeeded is completed at once, and one that has failed is
kept for later. -/
theorem count_first (f : IvFetch) (hcreated : rc = 0 → env.transfer.Created f.child) :
    AllAnswered (if rc = 0 then [(f, crtIvfFinalize f.child rc env.value env.transfer)] else []) ∧
      ∀ g, ((if rc = 0 then [(f, crtIvfFinalize f.child rc env.value env.transfer)] else []).map
          Prod.fst).count g +
        ((if rc = 0 then none else some (f, rc)).toList.map Prod.fst).count g = [f].count g := by
  by_cases hrc : rc = 0
  · simp only [if_pos hrc]
    exact ⟨forall_mem_singleton.mpr (answers_crtIvfFinalize env.value hcreated), fun g => rfl⟩
  · simp only [if_neg hrc]
    exact ⟨forall_mem_nil _, fun g => Nat.zero_add _⟩

/-- The fetches to be finalized after a response. -/
theorem failing_after (h : Ledger s) {failing : List (IvFetch × ℤ)}
    (hperm : failing.Perm ((if rc = 0 then none else some (f, rc)).toList ++ s.failing)) :
    ∀ p ∈ failing, p.2 ≠ 0 := by
  intro p hp
  rcases mem_append.mp (hperm.mem_iff.mp hp) with hp | hp
  · split_ifs at hp with hrc
    · cases hp
    · rw [toList_some, mem_singleton] at hp
      rw [hp]
      exact hrc
  · exact h.failed p hp

theorem count_of_perm_append {l l₁ l₂ : List (IvFetch × ℤ)} (h : l.Perm (l₁ ++ l₂))
    (g : IvFetch) : (l.map Prod.fst).count g =
      (l₁.map Prod.fst).count g + (l₂.map Prod.fst).count g := by
  rw [(h.map Prod.fst).count_eq g, map_append, count_append]

section

variable (h : Ledger s)

include h

theorem respond (hf : f ∈ s.sent) (hcreated : (IvEvent.respond f rc env).BulkCreated ns s) :
    Ledger (s.handleIvfetchResponse ns f rc env) := by
  have htable : WellKept (s.handleIvfetchResponse ns f rc env).entries
      (s.handleIvfetchResponse ns f rc env).nextAddr :=
    h.table.apply ns (.respond f rc env) rfl
  obtain ⟨hfirst, hcount⟩ := count_first f hcreated.1
  revert htable
  rw [handleIvfetchResponse]
  cases hfind : crtIvfKeyInProgressFind ns f.classId f.ivKey.wire s.entries with
  | some e =>
    intro htable
    have hdone := forall_mem_append.mpr
      ⟨hfirst, pendingReqs_answered (hcreated.2 e hfind)⟩
    have hfailing : (filterMap Prod.snd (s.retiring ++
        [(e.addr, if rc = 0 then none else some (f, rc))]) ++ s.finishing).Perm
          ((if rc = 0 then none else some (f, rc)).toList ++ s.failing) := by
      rw [filterMap_append, failing, ← append_assoc]
      refine Perm.append_right _ (perm_append_comm.trans ?_)
      by_cases hrc : rc = 0
      · simp [hrc]
      · simp [hrc]
    refine h.moved f.classId _ (fun d hd => ⟨1, hdone d hd⟩) rfl rfl htable h.nodup
      (h.failing_after hfailing) fun g => ?_
    have herase := count_erase_add hf g
    have hcount := hcount g
    have hqueue := count_queuedOf_modify (g := .drain) h.table (mem_of_find hfind) g
    have hmoved := count_of_perm_append hfailing g
    rw [count_underway, count_underway, tally_completes hdone, map_append, pendingReqs_fst,
      count_append]
    show _ + (s.issuing.count g + (s.sent.erase f).count g +
      (queuedOf (modifyEntry e .drain s.entries)).count g + count g (map Prod.fst
        (filterMap Prod.snd (s.retiring ++ [_]) ++ s.finishing))) + _ = _ + s.arrived.count g
    rw [hmoved]
    simp only [drain, count_nil] at hqueue
    omega
  | none =>
    intro htable
    have hfailing : (filterMap Prod.snd s.retiring ++ (s.finishing ++
        (if rc = 0 then none else some (f, rc)).toList)).Perm
          ((if rc = 0 then none else some (f, rc)).toList ++ s.failing) := by
      rw [failing, ← append_assoc]
      exact perm_append_comm
    refine h.moved f.classId _ (fun d hd => ⟨1, hfirst d hd⟩) rfl rfl htable h.nodup
      (h.failing_after hfailing) fun g => ?_
    have herase := count_erase_add hf g
    have hcount := hcount g
    have hmoved := count_of_perm_append hfailing g
    rw [count_underway, count_underway, tally_completes hfirst]
    show _ + (s.issuing.count g + (s.sent.erase f).count g + (queuedOf s.entries).count g +
      count g (map Prod.fst (filterMap Prod.snd s.retiring ++
        (s.finishing ++ _)))) + _ = _ + s.arrived.count g
    rw [hmoved]
    omega

theorem retire {addr : ℕ} {after : Option (IvFetch × ℤ)} (hmem : (addr, after) ∈ s.retiring)
    (hstep : s.retire addr after = some s') : Ledger s' := by
  have htable := h.table.retire hstep
  obtain ⟨e, he, _, rfl⟩ := retire_eq_some hstep
  have hqueued (g : IvFetch) :
      (queuedOf (if e.kipRpcInProgress = true then s.entries else
        crtIvfKeyInProgressUnset e s.entries)).count g = (queuedOf s.entries).count g := by
    split_ifs with hprogress
    · rfl
    · refine count_queuedOf_unset h.table he ?_ g
      exact not_not.mp fun hnil => hprogress (h.table.marked e he hnil)
  have hfailing : (filterMap Prod.snd (s.retiring.erase (addr, after)) ++
      (s.finishing ++ after.toList)).Perm s.failing := by
    have herase := (perm_cons_erase hmem).filterMap Prod.snd
    have hhead : filterMap Prod.snd ((addr, after) :: s.retiring.erase (addr, after)) =
        after.toList ++ filterMap Prod.snd (s.retiring.erase (addr, after)) := by
      cases after <;> rfl
    rw [hhead] at herase
    refine Perm.trans ?_ (herase.append_right s.finishing).symm
    rw [← append_assoc, append_assoc after.toList]
    exact perm_append_comm
  refine h.moved 0 [] (forall_mem_nil _) (append_nil _).symm (append_nil _).symm
    htable h.nodup (fun p hp => h.failed p (hfailing.mem_iff.mp hp)) fun g => ?_
  have hmoved := (hfailing.map Prod.fst).count_eq g
  rw [count_underway, count_underway]
  show 0 + (s.issuing.count g + s.sent.count g + count g (queuedOf (if _ then _ else _)) +
    count g (map Prod.fst (filterMap Prod.snd (s.retiring.erase (addr, after)) ++
      (s.finishing ++ after.toList)))) + _ = _ + s.arrived.count g
  rw [hmoved, hqueued]
  omega

theorem finish {value : V} {transfer : TransferEnv} (hmem : (f, rc) ∈ s.finishing) :
    Ledger (s.finish f rc value transfer) := by
  have hrc : rc ≠ 0 := h.failed (f, rc) (mem_append_right _ hmem)
  have hacts : Answers f.child 1 (crtIvfFinalize f.child rc value transfer) :=
    answers_crtIvfFinalize value fun h0 => absurd h0 hrc
  have hfailing : ((f, rc) :: (filterMap Prod.snd s.retiring ++
      s.finishing.erase (f, rc))).Perm s.failing :=
    (perm_middle.symm.trans ((perm_cons_erase hmem).symm.append_left _))
  refine h.moved f.classId [(f, crtIvfFinalize f.child rc value transfer)]
    (forall_mem_singleton.mpr ⟨1, hacts⟩) rfl rfl h.table h.nodup
    (fun p hp => h.failed p (hfailing.mem_iff.mp (mem_cons_of_mem _ hp))) fun g => ?_
  have hmoved : ((filterMap Prod.snd s.retiring ++ s.finishing.erase (f, rc)).map
      Prod.fst).count g + (if f == g then 1 else 0) = _ :=
    count_cons.symm.trans ((hfailing.map Prod.fst).count_eq g)
  rw [count_underway, count_underway, tally_single hacts, count_singleton]
  show _ + (s.issuing.count g + s.sent.count g + (queuedOf s.entries).count g +
    count g (map Prod.fst (filterMap Prod.snd s.retiring ++
      s.finishing.erase (f, rc)))) + _ = _ + s.arrived.count g
  omega

theorem transferDone {t : IvTransfer} {bciRc : ℤ} (hmem : t ∈ s.transfers) :
    Ledger (s.transferDone t bciRc) := by
  have hcompleted : (s.transferDone t bciRc).completed = s.completed := by
    rw [IvNode.transferDone, IvNode.completed_perform]
    exact append_nil _
  have hreplied : (s.transferDone t bciRc).replied = s.replied ++ [t.fetch] := by
    rw [IvNode.transferDone, IvNode.replied_perform]
    rfl
  have htransferring : (s.transferDone t bciRc).transferring =
      (s.transfers.erase t).map IvTransfer.fetch := by
    rw [IvNode.transferDone, IvNode.transferring_perform]
    exact append_nil _
  refine ⟨h.table, h.nodup, h.failed, fun f => ?_, fun f hchild => ?_⟩
  · rw [hcompleted]
    exact h.balance f
  · have hold := h.replies f hchild
    have herase := ((perm_cons_erase hmem).map IvTransfer.fetch).count_eq f
    rw [map_cons, count_cons] at herase
    rw [hcompleted, hreplied, htransferring, count_append, count_singleton]
    rw [transferring] at hold
    omega

theorem apply {ev : IvEvent V} (hcreated : ev.BulkCreated ns s) (henabled : ev.Enabled s)
    (hstep : ev.apply ns s = some s') : Ledger s' := by
  cases ev with
  | fetch f env => exact some.inj hstep ▸ h.fetch env henabled
  | send f => exact some.inj hstep ▸ h.send henabled
  | issueFail f rc => exact some.inj hstep ▸ h.issueFail henabled.1
  | respond f rc env => exact some.inj hstep ▸ h.respond henabled hcreated
  | retire addr after => exact h.retire henabled hstep
  | finish f rc value transfer => exact some.inj hstep ▸ h.finish henabled
  | transferDone t bciRc => exact some.inj hstep ▸ h.transferDone henabled

end

theorem empty : Ledger (.empty : IvNode V) :=
  ⟨.empty, nodup_nil, forall_mem_nil _, fun _ => rfl, fun _ _ => rfl⟩

end Ledger

/-- **The books are balanced in every run** in which the bulk handles can be
created that nobody checks. -/
theorem ledger_invariant (V : Type) (ns : IvNamespace) :
    ((ivNodeLts V ns).restrict fun s ev => ev.BulkCreated ns s).Invariant Ledger where
  init s hs := by
    obtain rfl := hs
    exact .empty
  step _ _ _ h henabled hstep := h.apply henabled.2 henabled.1 hstep

end Cart
