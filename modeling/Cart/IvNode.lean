/-
The fetches of a node, and its table of keys in progress (`crt_iv.c`).

A fetch that has to be forwarded is queued if an RPC for its key is in progress, and otherwise
marks the key and sends one.  The response takes all fetches off the queue, clears the mark,
and drops its reference only after it has locked the entry again.  The events are the pieces of
code that run with the locks that keep the others out.

Main results: `Arrival`, `arrival_fetch`, `WellKept.apply`.
-/
import Cart.IvFetch
import Cart.KeyedList
import Cart.Lts
import Mathlib.Data.UInt

open KeyedList List Option

namespace Cart

variable {V : Type} {ns : IvNamespace} {acts : List (IvAct V)} {f : IvFetch}
  {after : Option (IvFetch × ℤ)} {env : FetchEnv V} {classId : ℕ}

/-- `struct ivf_key_in_progress`.  `addr` is where the entry is; `kipUsers` are
the fetches that have used it. -/
structure KipEntry where
  addr : ℕ
  kipKey : DIov
  kipPendingFetchList : List IvFetch
  kipRpcInProgress : Bool
  kipRefcnt : UInt32
  kipUsers : List IvFetch
  deriving DecidableEq

namespace KipEntry

/-- `crt_ivf_key_in_progress_set` for the fetch, which then marks the entry. -/
def set (addr : ℕ) (f : IvFetch) : KipEntry where
  addr := addr
  kipKey := f.ivKey
  kipPendingFetchList := []
  kipRpcInProgress := true
  kipRefcnt := 0 + 1
  kipUsers := [f]

variable (f : IvFetch) (e : KipEntry)

/-- An RPC is issued under an entry that is there already. -/
def mark : KipEntry :=
  { e with
    kipRpcInProgress := true
    kipRefcnt := e.kipRefcnt + 1
    kipUsers := e.kipUsers ++ [f] }

/-- The end of `crt_ivf_pending_request_add`. -/
def queue : KipEntry :=
  { e with
    kipPendingFetchList := e.kipPendingFetchList ++ [f]
    kipUsers := e.kipUsers ++ [f] }

/-- The loop of `crt_ivf_pending_reqs_process` is done. -/
def drain : KipEntry :=
  { e with kipPendingFetchList := [], kipRpcInProgress := false }

/-- `kip_refcnt--`. -/
def decref : KipEntry := { e with kipRefcnt := e.kipRefcnt - 1 }

end KipEntry

def crtIvfKeyInProgressFind (ns : IvNamespace) (classId : ℕ) (key : DIov)
    (entries : List KipEntry) : Option KipEntry :=
  entries.find? fun e => ns.keysMatch classId e.kipKey key

/-- The entry is changed where it is. -/
def modifyEntry (e : KipEntry) (g : KipEntry → KipEntry) (entries : List KipEntry) :
    List KipEntry :=
  modifyAt KipEntry.addr e.addr g entries

def crtIvfKeyInProgressUnset (e : KipEntry) (entries : List KipEntry) : List KipEntry :=
  if e.kipRefcnt - 1 = 0 then eraseAt KipEntry.addr e.addr entries
  else modifyEntry e .decref entries

/-- One thing done for a fetch, through the callbacks of a class. -/
structure IvRecord (V : Type) where
  fetch : IvFetch
  classId : ℕ
  act : IvAct V
  deriving DecidableEq

/-- A bulk transfer that has been started. -/
structure IvTransfer where
  fetch : IvFetch
  classId : ℕ
  buf : IvBuf
  deriving DecidableEq

/-- The transfers that the actions start. -/
def startedTransfers (f : IvFetch) (classId : ℕ) (acts : List (IvAct V)) : List IvTransfer :=
  acts.filterMap fun
    | .transfer buf _ => some ⟨f, classId, buf⟩
    | _ => none

/-- The fetches of a node, by where they are. -/
structure IvNode (V : Type) where
  entries : List KipEntry
  nextAddr : ℕ
  issuing : List IvFetch
  sent : List IvFetch
  retiring : List (ℕ × Option (IvFetch × ℤ))
  finishing : List (IvFetch × ℤ)
  transfers : List IvTransfer
  arrived : List IvFetch
  log : List (IvRecord V)

namespace IvNode

/-- A node where nothing has happened. -/
def empty : IvNode V := ⟨[], 0, [], [], [], [], [], [], []⟩

/-- Things are done for one fetch after the other, with the callbacks of a class. -/
def perform (classId : ℕ) (done : List (IvFetch × List (IvAct V))) (s : IvNode V) : IvNode V :=
  { s with
    transfers := s.transfers ++ done.flatMap fun d => startedTransfers d.1 classId d.2
    log := s.log ++ done.flatMap fun d => d.2.map fun act => ⟨d.1, classId, act⟩ }

variable (ns : IvNamespace) (f : IvFetch) (env : FetchEnv V) (rc : ℤ) (s : IvNode V)

/-- Up to the second unlock. -/
def crtIvfRpcIssue : IvNode V :=
  match crtIvfKeyInProgressFind ns f.classId f.ivKey s.entries with
  | some e =>
    if e.kipRpcInProgress then
      -- the buffer is put before there is a record, and once more by the caller
      if env.pendingAllocated then
        { s.perform f.classId [(f, [.put .write])] with
          entries := modifyEntry e (.queue f) s.entries }
      else s.perform f.classId [(f, .put .write :: issueFailed f.child (-derNomem))]
    else
      { s with
        entries := modifyEntry e (.mark f) s.entries
        issuing := s.issuing ++ [f] }
  | none =>
    if env.entryAllocated then
      { s with
        entries := s.entries ++ [.set s.nextAddr f]
        nextAddr := s.nextAddr + 1
        issuing := s.issuing ++ [f] }
    else s.perform f.classId [(f, issueFailed f.child (-derNomem))]

/-- A fetch arrives. -/
def fetch : IvNode V :=
  match env.start f.child with
  | .refused => s
  | .answered acts => { s with arrived := s.arrived ++ [f] }.perform f.classId [(f, acts)]
  | .forwarded acts =>
    ({ s with arrived := s.arrived ++ [f] }.perform f.classId [(f, acts)]).crtIvfRpcIssue ns f env

/-- `crt_req_send` in `crt_ivf_rpc_issue`. -/
def send : IvNode V :=
  { s with issuing := s.issuing.erase f, sent := s.sent ++ [f] }

/-- The error path of `crt_ivf_rpc_issue`, and of its caller. -/
def issueFail : IvNode V :=
  { s.perform f.classId [(f, issueFailed f.child rc)] with
    issuing := s.issuing.erase f
    entries :=
      match crtIvfKeyInProgressFind ns f.classId f.ivKey s.entries with
      | some e =>
        if e.kipPendingFetchList = [] then crtIvfKeyInProgressUnset e s.entries else s.entries
      | none => s.entries }

/-- What a response meets. -/
structure ResponseEnv (V : Type) where
  value : V
  transfer : TransferEnv
  pending : IvFetch → PendingEnv V

/-- Up to the unlocking of the entry. -/
def handleIvfetchResponse (env : ResponseEnv V) (s : IvNode V) : IvNode V :=
  let first := if rc = 0 then [(f, crtIvfFinalize f.child rc env.value env.transfer)] else []
  let after := if rc = 0 then none else some (f, rc)
  match crtIvfKeyInProgressFind ns f.classId f.ivKey.wire s.entries with
  | some e =>
    { s.perform f.classId
        (first ++ crtIvfPendingReqsProcess env.pending rc e.kipPendingFetchList) with
      sent := s.sent.erase f
      entries := modifyEntry e .drain s.entries
      retiring := s.retiring ++ [(e.addr, after)] }
  | none =>
    { s.perform f.classId first with
      sent := s.sent.erase f
      finishing := s.finishing ++ after.toList }

/-- The end of `crt_ivf_pending_reqs_process`; no next state if the entry has been freed. -/
def retire (addr : ℕ) (after : Option (IvFetch × ℤ)) (s : IvNode V) : Option (IvNode V) :=
  (s.entries.find? fun e => e.addr = addr).map fun e =>
    { s with
      retiring := s.retiring.erase (addr, after)
      finishing := s.finishing ++ after.toList
      entries := if e.kipRpcInProgress then s.entries else crtIvfKeyInProgressUnset e s.entries }

/-- `crt_ivf_finalize` for a failed fetch. -/
def finish (value : V) (transfer : TransferEnv) (s : IvNode V) : IvNode V :=
  { s.perform f.classId [(f, crtIvfFinalize f.child rc value transfer)] with
    finishing := s.finishing.erase (f, rc) }

/-- The transport is done with a transfer. -/
def transferDone (t : IvTransfer) (bciRc : ℤ) (s : IvNode V) : IvNode V :=
  { s with transfers := s.transfers.erase t }.perform t.classId
    [(t.fetch, crtIvfBulkTransferDoneCb t.buf bciRc)]

end IvNode

/-- What can happen at a node. -/
inductive IvEvent (V : Type) where
  | fetch (f : IvFetch) (env : FetchEnv V)
  | send (f : IvFetch)
  | issueFail (f : IvFetch) (rc : ℤ)
  | respond (f : IvFetch) (rc : ℤ) (env : IvNode.ResponseEnv V)
  | retire (addr : ℕ) (after : Option (IvFetch × ℤ))
  | finish (f : IvFetch) (rc : ℤ) (value : V) (transfer : TransferEnv)
  | transferDone (t : IvTransfer) (bciRc : ℤ)

namespace IvEvent

/-- Every fetch arrives once; every other event needs the fetch, the response or
the transfer that it is about. -/
def Enabled (s : IvNode V) : IvEvent V → Prop
  | .fetch f _ => f ∉ s.arrived
  | .send f => f ∈ s.issuing
  | .issueFail f rc => f ∈ s.issuing ∧ rc ≠ 0
  | .respond f _ _ => f ∈ s.sent
  | .retire addr after => (addr, after) ∈ s.retiring
  | .finish f rc _ _ => (f, rc) ∈ s.finishing
  | .transferDone t _ => t ∈ s.transfers

instance (s : IvNode V) (e : IvEvent V) : Decidable (Enabled s e) := by
  cases e <;> dsimp only [Enabled] <;> infer_instance

/-- The node after an event. -/
def apply (ns : IvNamespace) (s : IvNode V) : IvEvent V → Option (IvNode V)
  | .fetch f env => some (s.fetch ns f env)
  | .send f => some (s.send f)
  | .issueFail f rc => some (s.issueFail ns f rc)
  | .respond f rc env => some (s.handleIvfetchResponse ns f rc env)
  | .retire addr after => s.retire addr after
  | .finish f rc value transfer => some (s.finish f rc value transfer)
  | .transferDone t bciRc => some (s.transferDone t bciRc)

end IvEvent

/-- The node as a transition system. -/
@[reducible]
def ivNodeLts (V : Type) (ns : IvNamespace) : Lts (IvNode V) (IvEvent V) where
  init s := s = .empty
  enabled := IvEvent.Enabled
  step := IvEvent.apply ns

/-! ### The table -/

/-- The entries are in different places, and fetches only wait at an entry that is
marked. -/
structure WellKept (entries : List KipEntry) (nextAddr : ℕ) : Prop where
  nodup : (entries.map KipEntry.addr).Nodup
  fresh : ∀ e ∈ entries, e.addr < nextAddr
  marked : ∀ e ∈ entries, e.kipPendingFetchList ≠ [] → e.kipRpcInProgress = true

section Table

variable {entries : List KipEntry} {nextAddr : ℕ} {e b : KipEntry} {g : KipEntry → KipEntry}

theorem mem_of_find {key : DIov}
    (h : crtIvfKeyInProgressFind ns classId key entries = some e) : e ∈ entries :=
  mem_of_find?_eq_some h

theorem matches_of_find {key : DIov} (h : crtIvfKeyInProgressFind ns classId key entries = some e) :
    ns.keysMatch classId e.kipKey key = true := by
  have hfound := find?_some h
  exact hfound

theorem unset_of_ne_one (h : e.kipRefcnt ≠ 1) :
    crtIvfKeyInProgressUnset e entries = modifyEntry e .decref entries :=
  if_neg fun h0 => h (sub_eq_zero.mp h0)

theorem unset_of_eq_one (h : e.kipRefcnt = 1) :
    crtIvfKeyInProgressUnset e entries = eraseAt KipEntry.addr e.addr entries :=
  if_pos (sub_eq_zero.mpr h)

namespace WellKept

section

variable (h : WellKept entries nextAddr) (he : e ∈ entries)

include h he

theorem addr_ne (hb : b ∈ entries) : b.addr ≠ e.addr ↔ b ≠ e :=
  not_congr ⟨inj_on_of_nodup_map h.nodup hb he, congrArg _⟩

theorem mem_modifyEntry : b ∈ modifyEntry e g entries ↔ b = g e ∨ b ∈ entries ∧ b ≠ e := by
  rw [modifyEntry, (modifyAt_perm h.nodup he).mem_iff, mem_cons,
    mem_eraseAt]
  refine or_congr_right (and_congr_right fun hb => h.addr_ne he hb)

theorem mem_unset : b ∈ crtIvfKeyInProgressUnset e entries ↔
      e.kipRefcnt ≠ 1 ∧ b = e.decref ∨ b ∈ entries ∧ b ≠ e := by
  by_cases hone : e.kipRefcnt = 1
  · rw [unset_of_eq_one hone, mem_eraseAt]
    simp only [hone, ne_eq, not_true_eq_false, false_and, false_or]
    exact and_congr_right fun hb => h.addr_ne he hb
  · rw [unset_of_ne_one hone, h.mem_modifyEntry he]
    simp only [hone, ne_eq, not_false_eq_true, true_and]

end

theorem empty : WellKept [] 0 := ⟨nodup_nil, by simp, by simp⟩

section

variable (h : WellKept entries nextAddr)

include h

theorem set (f : IvFetch) : WellKept (entries ++ [.set nextAddr f]) (nextAddr + 1) := by
  refine ⟨?_, ?_, ?_⟩
  · rw [map_append, map_singleton]
    refine nodup_append.mpr ⟨h.nodup, nodup_singleton _, ?_⟩
    intro addr haddr addr' haddr'
    obtain ⟨b, hb, rfl⟩ := mem_map.mp haddr
    rw [mem_singleton.mp haddr']
    exact (h.fresh b hb).ne
  · intro b hb
    rcases mem_append.mp hb with hb | hb
    · exact Nat.lt_succ_of_lt (h.fresh b hb)
    · rw [mem_singleton.mp hb]
      exact Nat.lt_succ_self _
  · intro b hb
    rcases mem_append.mp hb with hb | hb
    · exact h.marked b hb
    · rw [mem_singleton.mp hb]
      exact fun _ => rfl

theorem modify (he : e ∈ entries) (haddr : ∀ b, (g b).addr = b.addr) (hmarked :
    (g e).kipPendingFetchList ≠ [] → (g e).kipRpcInProgress = true) :
    WellKept (modifyEntry e g entries) nextAddr := by
  refine ⟨?_, ?_, ?_⟩
  · rw [modifyEntry, map_modifyAt haddr]
    exact h.nodup
  · intro b hb
    rcases (h.mem_modifyEntry he).mp hb with rfl | ⟨hb, _⟩
    · rw [haddr]
      exact h.fresh e he
    · exact h.fresh b hb
  · intro b hb
    rcases (h.mem_modifyEntry he).mp hb with rfl | ⟨hb, _⟩
    · exact hmarked
    · exact h.marked b hb

theorem unset (he : e ∈ entries) : WellKept (crtIvfKeyInProgressUnset e entries) nextAddr := by
  by_cases hone : e.kipRefcnt = 1
  · rw [unset_of_eq_one hone]
    have hsub : (eraseAt KipEntry.addr e.addr entries).Sublist entries :=
      eraseAt_sublist
    exact ⟨(hsub.map _).nodup h.nodup, fun b hb => h.fresh b (hsub.subset hb),
      fun b hb => h.marked b (hsub.subset hb)⟩
  · rw [unset_of_ne_one hone]
    exact h.modify he (fun _ => rfl) (h.marked e he)

end

end WellKept

end Table

/-! ### What the events do -/

namespace IvNode

theorem perform_perform (f : IvFetch) (c : ℕ) (acts acts' : List (IvAct V)) (s : IvNode V) :
    (s.perform c [(f, acts)]).perform c [(f, acts')] = s.perform c [(f, acts ++ acts')] := by
  simp [perform, startedTransfers]

/-- The fetch is there, and something has been done for it. -/
def arrive (f : IvFetch) (acts : List (IvAct V)) (s : IvNode V) : IvNode V :=
  { s with arrived := s.arrived ++ [f] }.perform f.classId [(f, acts)]

@[simp] theorem arrive_entries (f : IvFetch) (acts : List (IvAct V)) (s : IvNode V) :
    (s.arrive f acts).entries = s.entries := rfl

/-- What can become of a fetch that arrives. -/
inductive Arrival (ns : IvNamespace) (f : IvFetch) (s : IvNode V) : IvNode V → Prop
  | refused (hchild : f.child = false) : Arrival ns f s s
  | answered {acts : List (IvAct V)} (hacts : Answers f.child 1 acts) :
      Arrival ns f s (s.arrive f acts)
  | queued {acts : List (IvAct V)} {e : KipEntry} (hacts : Answers f.child 0 acts)
      (hfind : crtIvfKeyInProgressFind ns f.classId f.ivKey s.entries = some e)
      (hprogress : e.kipRpcInProgress = true) :
      Arrival ns f s { s.arrive f acts with entries := modifyEntry e (.queue f) s.entries }
  | marked {acts : List (IvAct V)} {e : KipEntry} (hacts : Answers f.child 0 acts)
      (hfind : crtIvfKeyInProgressFind ns f.classId f.ivKey s.entries = some e)
      (hprogress : e.kipRpcInProgress = false) :
      Arrival ns f s
        { s.arrive f acts with
          entries := modifyEntry e (.mark f) s.entries
          issuing := s.issuing ++ [f] }
  | set {acts : List (IvAct V)} (hacts : Answers f.child 0 acts)
      (hfind : crtIvfKeyInProgressFind ns f.classId f.ivKey s.entries = none) :
      Arrival ns f s
        { s.arrive f acts with
          entries := s.entries ++ [.set s.nextAddr f]
          nextAddr := s.nextAddr + 1
          issuing := s.issuing ++ [f] }

/-- A fetch is queued, issues an RPC, or finds no memory. -/
theorem arrival_crtIvfRpcIssue (ns : IvNamespace) (env : FetchEnv V)
    (s : IvNode V) (hacts : Answers f.child 0 acts) :
    Arrival ns f s ((s.arrive f acts).crtIvfRpcIssue ns f env) := by
  have hfailed (acts' : List (IvAct V)) (h : Answers f.child 1 acts') :
      Arrival ns f s ((s.arrive f acts).perform f.classId [(f, acts')]) := by
    rw [arrive, perform_perform]
    exact .answered (hacts.append h)
  have hput : Answers f.child 0 ([.put .write] : List (IvAct V)) :=
    ⟨by simp [IvAct.addressed], rfl⟩
  cases hfind : crtIvfKeyInProgressFind ns f.classId f.ivKey s.entries with
  | some e =>
    rw [crtIvfRpcIssue, arrive_entries, hfind]
    cases hprogress : e.kipRpcInProgress with
    | true =>
      by_cases halloc : env.pendingAllocated = true
      · simp only [hprogress, if_true, if_pos halloc]
        rw [arrive, perform_perform]
        exact .queued (hacts.append hput) hfind hprogress
      · simp only [hprogress, if_true, if_neg halloc]
        exact hfailed _ (hput.append (answers_issueFailed _ _))
    | false =>
      simp only [hprogress, Bool.false_eq_true, if_false]
      exact .marked hacts hfind hprogress
  | none =>
    rw [crtIvfRpcIssue, arrive_entries, hfind]
    by_cases halloc : env.entryAllocated = true
    · simp only [if_pos halloc]
      exact .set hacts hfind
    · simp only [if_neg halloc]
      exact hfailed _ (answers_issueFailed _ _)

theorem arrival_fetch (ns : IvNamespace) (f : IvFetch) (env : FetchEnv V) (s : IvNode V) :
    Arrival ns f s (s.fetch ns f env) := by
  have hanswers := answers_start f.child env
  rw [fetch]
  cases hstart : env.start f.child with
  | refused =>
    rw [hstart] at hanswers
    exact .refused hanswers
  | answered acts =>
    rw [hstart] at hanswers
    exact .answered hanswers
  | forwarded acts =>
    rw [hstart] at hanswers
    exact arrival_crtIvfRpcIssue ns env s hanswers

theorem fetch_of_forwarded (hstart : env.start f.child = .forwarded acts) (s : IvNode V) :
    s.fetch ns f env = (s.arrive f acts).crtIvfRpcIssue ns f env := by
  rw [fetch, hstart]
  rfl

/-- A new fetch that has to be forwarded issues its own RPC if it finds none in
progress, memory given. -/
theorem mem_issuing_fetch {s : IvNode V} (hstart : env.start f.child = .forwarded acts)
    (halloc : env.entryAllocated = true) (hnew : f ∉ s.issuing) : f ∈ (s.fetch ns f env).issuing ↔
      ∀ e, crtIvfKeyInProgressFind ns f.classId f.ivKey s.entries = some e →
        e.kipRpcInProgress = false := by
  rw [fetch_of_forwarded hstart, crtIvfRpcIssue, arrive_entries]
  cases hfind : crtIvfKeyInProgressFind ns f.classId f.ivKey s.entries with
  | some e =>
    simp only [some.injEq, forall_eq']
    cases hprogress : e.kipRpcInProgress with
    | true =>
      refine iff_of_false (fun hmem => hnew ?_) (by simp)
      rw [if_pos rfl] at hmem
      split_ifs at hmem
      · exact hmem
      · exact hmem
    | false =>
      rw [if_neg (by simp)]
      exact iff_of_true (mem_append_right _ (mem_singleton_self f)) rfl
  | none =>
    simp only [if_pos halloc]
    exact iff_of_true (mem_append_right _ (mem_singleton_self f)) (by simp)

theorem retire_eq_some {addr : ℕ} {s s' : IvNode V} (h : s.retire addr after = some s') :
    ∃ e ∈ s.entries, e.addr = addr ∧
      s' = { s with
        retiring := s.retiring.erase (addr, after)
        finishing := s.finishing ++ after.toList
        entries :=
          if e.kipRpcInProgress then s.entries else crtIvfKeyInProgressUnset e s.entries } := by
  obtain ⟨e, hfind, hs'⟩ := map_eq_some_iff.mp h
  exact ⟨e, mem_of_find?_eq_some hfind, by simpa using find?_some hfind, hs'.symm⟩

/-- The rule for an issue that fails: at most, an entry with nothing queued goes. -/
theorem issueFail_entries_of {motive : List KipEntry → Prop} {s : IvNode V} {f : IvFetch} {rc : ℤ}
    (hkeep : motive s.entries)
    (hunset : ∀ e, crtIvfKeyInProgressFind ns f.classId f.ivKey s.entries = some e →
      e.kipPendingFetchList = [] → motive (crtIvfKeyInProgressUnset e s.entries)) :
    motive (s.issueFail ns f rc).entries := by
  rw [issueFail]
  cases hfind : crtIvfKeyInProgressFind ns f.classId f.ivKey s.entries with
  | some e =>
    simp only
    split_ifs with hnil
    · exact hunset e hfind hnil
    · exact hkeep
  | none => exact hkeep

end IvNode

theorem WellKept.retire {s s' : IvNode V} {addr : ℕ} (h : WellKept s.entries s.nextAddr)
    (hstep : s.retire addr after = some s') : WellKept s'.entries s'.nextAddr := by
  obtain ⟨e, he, _, rfl⟩ := IvNode.retire_eq_some hstep
  split_ifs
  · exact h
  · exact h.unset he

theorem WellKept.apply {s s' : IvNode V} (h : WellKept s.entries s.nextAddr) (ns : IvNamespace)
    (ev : IvEvent V) (hstep : ev.apply ns s = some s') : WellKept s'.entries s'.nextAddr := by
  cases ev with
  | fetch f env =>
    have harrival := s.arrival_fetch ns f env
    rw [some.inj hstep] at harrival
    cases harrival with
    | refused | answered => exact h
    | queued _ hfind hprogress => exact h.modify (mem_of_find hfind) (fun _ => rfl) fun _ => hprogress
    | marked _ hfind _ => exact h.modify (mem_of_find hfind) (fun _ => rfl) fun _ => rfl
    | set => exact h.set f
  | send f | finish f rc value transfer | transferDone t bciRc =>
    cases hstep
    exact h
  | issueFail f rc =>
    cases hstep
    exact IvNode.issueFail_entries_of (motive := (WellKept · s.nextAddr)) h fun e hfind _ =>
      h.unset (mem_of_find hfind)
  | respond f rc env =>
    cases hstep
    rw [IvNode.handleIvfetchResponse]
    cases hfind : crtIvfKeyInProgressFind ns f.classId f.ivKey.wire s.entries with
    | some e => exact h.modify (mem_of_find hfind) (fun _ => rfl) fun hnil => absurd rfl hnil
    | none => exact h
  | retire addr after => exact h.retire hstep

end Cart
