/-
Every child gets one reply (`crt_iv.c`).

Whoever takes the fetch of a child on replies once, with two exceptions: a transfer for which
no bulk handle can be created, started by code that does not look at the result; and a queue
whose RPC was never sent, or whose response does not find the entry.

Main result: `child_replies`.
-/
import Cart.IvSingleFlight

open List Option

namespace Cart

open IvNode

variable {V : Type}

/-- Whatever has been forwarded or started has called back. -/
def IvNode.Quiet (s : IvNode V) : Prop :=
  s.outstanding = [] ∧ s.failing = [] ∧ s.transfers = []
deriving Decidable

/-- Whoever waits, waits for an RPC that is outstanding. -/
def IvNode.Awaited (s : IvNode V) : Prop :=
  ∀ e ∈ s.entries, e.kipPendingFetchList ≠ [] → ∃ g ∈ s.outstanding, g ∈ e.kipUsers

/-- Nobody is left behind: a fetch is queued where an RPC is outstanding, an RPC that cannot be
issued has nobody waiting for it, and a response finds those who are. -/
def IvEvent.Attended (ns : IvNamespace) (s : IvNode V) : IvEvent V → Prop
  | .fetch f env => f ∈ (s.fetch ns f env).queued →
    ∀ e ∈ crtIvfKeyInProgressFind ns f.classId f.ivKey s.entries,
      ∃ g ∈ s.outstanding, g ∈ e.kipUsers
  | .issueFail f _ => ∀ e ∈ s.entries, f ∈ e.kipUsers → e.kipPendingFetchList = []
  | .respond f _ _ => ∀ e ∈ s.entries, f ∈ e.kipUsers → e.kipPendingFetchList ≠ [] →
    crtIvfKeyInProgressFind ns f.classId f.ivKey.wire s.entries = some e
  | _ => True

instance (ns : IvNamespace) (s : IvNode V) (ev : IvEvent V) : Decidable (ev.Attended ns s) := by
  apply IvEvent.casesOn (motive := (Decidable <| IvEvent.Attended ns s ·)) ev <;> intros <;>
    dsimp only [IvEvent.Attended] <;> infer_instance

section

variable {ns : IvNamespace} {s s' : IvNode V} {f : IvFetch} {b : KipEntry} {ev : IvEvent V}

section

variable (h : s.Awaited)

include h

/-- Somebody waits, and an RPC is done that is not the one. -/
theorem IvNode.Awaited.other {out : List IvFetch} (hperm : s.outstanding.Perm (f :: out))
    (hb : b ∈ s.entries) (hwait : b.kipPendingFetchList ≠ []) (hf : f ∉ b.kipUsers) :
    ∃ g ∈ out, g ∈ b.kipUsers := by
  obtain ⟨g, hg, hgb⟩ := h b hb hwait
  rcases mem_cons.mp (hperm.mem_iff.mp hg) with rfl | hg
  · exact absurd hgb hf
  · exact ⟨g, hg, hgb⟩

theorem IvNode.Awaited.fetch (htable : WellKept s.entries s.nextAddr) {env : FetchEnv V}
    (hatt : (IvEvent.fetch f env).Attended ns s) : (s.fetch ns f env).Awaited := by
  have hissued {b : KipEntry} (hb : b ∈ s.entries) (hwait : b.kipPendingFetchList ≠ []) :
      ∃ g ∈ (s.issuing ++ [f]) ++ s.sent, g ∈ b.kipUsers := by
    obtain ⟨g, hg, hgb⟩ := h b hb hwait
    exact ⟨g, (issue_perm s f).mem_iff.mpr (mem_cons_of_mem _ hg), hgb⟩
  have harrival := s.arrival_fetch ns f env
  rw [IvEvent.Attended] at hatt
  generalize s.fetch ns f env = s' at harrival hatt
  cases harrival with
  | refused | answered => exact h
  | @queued _ e _ hfind _ =>
    have he := mem_of_find hfind
    have hmem : e.queue f ∈ modifyEntry e (.queue f) s.entries :=
      (htable.mem_modifyEntry he).mpr (.inl rfl)
    intro b hb hwait
    rcases (htable.mem_modifyEntry he).mp hb with rfl | ⟨hb, _⟩
    · obtain ⟨g, hg, hge⟩ := hatt (mem_flatMap.mpr ⟨_, hmem, mem_append_right _
        (mem_singleton_self f)⟩) e hfind
      exact ⟨g, hg, mem_append_left _ hge⟩
    · exact h b hb hwait
  | @marked _ e _ hfind hprogress =>
    have he := mem_of_find hfind
    intro b hb hwait
    rcases (htable.mem_modifyEntry he).mp hb with rfl | ⟨hb, _⟩
    · exact absurd ((htable.marked e he hwait).symm.trans hprogress) (by simp)
    · exact hissued hb hwait
  | set =>
    intro b hb hwait
    rcases mem_append.mp hb with hb | hb
    · exact hissued hb hwait
    · rw [mem_singleton.mp hb] at hwait
      exact absurd rfl hwait

theorem IvNode.Awaited.apply (htable : WellKept s.entries s.nextAddr) (hatt : ev.Attended ns s)
    (henabled : ev.Enabled s) (hstep : ev.apply ns s = some s') : s'.Awaited := by
  cases ev with
  | fetch f env => exact some.inj hstep ▸ h.fetch htable hatt
  | send f =>
    cases hstep
    intro b hb hwait
    obtain ⟨g, hg, hgb⟩ := h b hb hwait
    exact ⟨g, (send_perm henabled).mem_iff.mpr hg, hgb⟩
  | issueFail f rc =>
    cases hstep
    have hkeep : ∀ b ∈ s.entries, b.kipPendingFetchList ≠ [] →
        ∃ g ∈ s.issuing.erase f ++ s.sent, g ∈ b.kipUsers := fun b hb hwait =>
      h.other (issuing_perm henabled.1) hb hwait fun hf => hwait (hatt b hb hf)
    refine issueFail_entries_of (motive := (∀ b ∈ ·, b.kipPendingFetchList ≠ [] →
      ∃ g ∈ s.issuing.erase f ++ s.sent, g ∈ b.kipUsers)) hkeep fun e hfind hnil b hb hwait => ?_
    rcases (htable.mem_unset (mem_of_find hfind)).mp hb with ⟨_, rfl⟩ | ⟨hb, _⟩
    · exact absurd hnil hwait
    · exact hkeep b hb hwait
  | respond f rc env =>
    cases hstep
    rw [handleIvfetchResponse]
    cases hfind : crtIvfKeyInProgressFind ns f.classId f.ivKey.wire s.entries with
    | some e =>
      intro b hb hwait
      rcases (htable.mem_modifyEntry (mem_of_find hfind)).mp hb with rfl | ⟨hb, hne⟩
      · exact absurd rfl hwait
      · refine h.other (sent_perm henabled) hb hwait fun hf => hne ?_
        exact some.inj ((hatt b hb hf hwait).symm.trans hfind)
    | none =>
      intro b hb hwait
      refine h.other (sent_perm henabled) hb hwait fun hf => ?_
      cases (hatt b hb hf hwait).symm.trans hfind
  | retire addr after =>
    obtain ⟨e, he, _, rfl⟩ := retire_eq_some hstep
    split_ifs
    · exact h
    · intro b hb hwait
      rcases (htable.mem_unset he).mp hb with ⟨_, rfl⟩ | ⟨hb, _⟩
      · exact h e he hwait
      · exact h b hb hwait
  | finish f rc value transfer | transferDone t bciRc =>
    cases hstep
    exact h

end

/-- **One reply for each child**, in runs whose queues have an RPC and whose bulk handles are
made. -/
theorem child_replies
    (hs : ((ivNodeLts V ns).restrict fun s ev => ev.Attended ns s ∧ ev.BulkCreated ns s).Reach s)
    (hf : f ∈ s.arrived) (hchild : f.child = true) :
    s.replied.count f ≤ 1 ∧ (s.Quiet → s.replied.count f = 1) := by
  have hinv : ((ivNodeLts V ns).restrict fun s ev =>
      ev.Attended ns s ∧ ev.BulkCreated ns s).Invariant fun s => Ledger s ∧ s.Awaited := by
    refine ⟨fun s hs => ?_, fun s ev s' h henabled hstep => ?_⟩
    · obtain rfl := hs
      exact ⟨.empty, forall_mem_nil _⟩
    · obtain ⟨henabled, hatt, hcreated⟩ := henabled
      exact ⟨h.1.apply hcreated henabled hstep, h.2.apply h.1.table hatt henabled hstep⟩
  obtain ⟨hledger, hawaited⟩ := hinv.reach hs
  have hbalance := hledger.balance f
  have hreplies := hledger.replies f hchild
  rw [count_eq_one_of_mem hledger.nodup hf] at hbalance
  refine ⟨by omega, ?_⟩
  rintro ⟨hout, hfailing, htransfers⟩
  -- nobody waits where no RPC is outstanding
  have hqueued : s.queued = [] := by
    refine flatMap_eq_nil_iff.mpr fun e he => not_not.mp fun hwait => ?_
    obtain ⟨g, hg, _⟩ := hawaited e he hwait
    rw [hout] at hg
    cases hg
  have hunderway : s.underway = [] := by
    rw [underway, hout, hqueued, hfailing]
    rfl
  have htransferring : s.transferring = [] := by
    rw [transferring, htransfers]
    rfl
  rw [hunderway, count_nil] at hbalance
  rw [htransferring, count_nil] at hreplies
  omega

end

/-- A child is queued behind a fetch of the node itself, and gets its value. -/
theorem child_replies_sample : ∃ s,
    ((ivNodeLts ℕ defaultNamespace).restrict fun s ev =>
      ev.Attended defaultNamespace s ∧ ev.BulkCreated defaultNamespace s).Reach s ∧
    s.arrived = [sampleFetch, sampleChild] ∧ s.Quiet ∧ s.replied.count sampleChild = 1 := by
  obtain ⟨s, hreach, harrived, hquiet⟩ : ∃ s, ((ivNodeLts ℕ defaultNamespace).restrict fun s ev =>
      ev.Attended defaultNamespace s ∧ ev.BulkCreated defaultNamespace s).Reach s ∧
      s.arrived = [sampleFetch, sampleChild] ∧ s.Quiet :=
    Lts.exists_reach_of_exec [.fetch sampleFetch sampleForward, .fetch sampleChild sampleForward,
      .send sampleFetch, .respond sampleFetch 0 sampleResponse, .retire 0 none,
      .transferDone ⟨sampleChild, 0, .pending⟩ 0] _ rfl rfl
  refine ⟨s, hreach, harrived, hquiet, (child_replies hreach ?_ rfl).2 hquiet⟩
  rw [harrived]
  exact mem_cons_of_mem _ mem_cons_self

/-- No bulk handle can be created for the child, and it has no reply. -/
theorem child_never_replied :
    ∃ s, (ivNodeLts ℕ defaultNamespace).Run .empty
        [.fetch sampleChild sampleForward, .send sampleChild,
          .respond sampleChild 0
            ⟨5, ⟨-derNomem, true, 0⟩, fun _ => ⟨0, 0, 5, sampleTransfer⟩⟩, .retire 0 none] s ∧
      sampleChild ∈ s.arrived ∧ s.Quiet ∧ s.retiring = [] ∧ s.replied = [] := by
  exact ⟨_, Lts.run_of_exec rfl, by decide, ⟨rfl, rfl, rfl⟩, rfl, rfl⟩

end Cart
