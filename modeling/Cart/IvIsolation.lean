/-
The classes of a namespace, and the table that they share (`crt_iv.c`).

A fetch takes the first entry whose key matches its own, by the comparison of its own class,
and a response works through the queue of such an entry with the callbacks of its own class.
Nothing goes wrong as long as neither finds an entry that another class has set (`FindsOwn`).

Main result: `class_isolation`.
-/
import Cart.IvSingleFlight

open List

namespace Cart

variable {V : Type}

/-- The entry that a fetch comes to use, or a response works through, was set by a fetch of the
same class. -/
def IvEvent.FindsOwn (ns : IvNamespace) (s : IvNode V) : IvEvent V → Prop
  | .fetch f env => f ∈ (s.fetch ns f env).entries.flatMap KipEntry.kipUsers →
    ∀ e ∈ crtIvfKeyInProgressFind ns f.classId f.ivKey s.entries,
      ∀ g ∈ e.kipUsers.head?, g.classId = f.classId
  | .respond f _ _ => ∀ e ∈ crtIvfKeyInProgressFind ns f.classId f.ivKey.wire s.entries,
    ∀ g ∈ e.kipUsers.head?, g.classId = f.classId
  | _ => True

instance (ns : IvNamespace) (s : IvNode V) (ev : IvEvent V) : Decidable (ev.FindsOwn ns s) := by
  apply IvEvent.casesOn (motive := (Decidable <| IvEvent.FindsOwn ns s ·)) ev <;> intros <;>
    dsimp only [IvEvent.FindsOwn] <;> infer_instance

/-- The entry belongs to the class. -/
structure KipEntry.BelongsTo (classId : ℕ) (e : KipEntry) : Prop where
  users : ∀ f ∈ e.kipUsers, f.classId = classId
  waiting : e.kipPendingFetchList ⊆ e.kipUsers
  used : e.kipUsers ≠ []

/-- What carries isolation through a run. -/
structure ClassInv (s : IvNode V) : Prop where
  table : WellKept s.entries s.nextAddr
  log : ∀ r ∈ s.log, r.classId = r.fetch.classId
  transfers : ∀ t ∈ s.transfers, t.classId = t.fetch.classId
  entries : ∀ e ∈ s.entries, ∃ c, e.BelongsTo c

section Steps

variable {ns : IvNamespace} {s s' : IvNode V} {f : IvFetch} {e : KipEntry}

section

variable (h : ClassInv s)

include h

/-- The entry is of the class of the fetch that has set it. -/
theorem ClassInv.belongs (he : e ∈ s.entries) (hown : ∀ g ∈ e.kipUsers.head?, g.classId = f.classId) :
    e.BelongsTo f.classId := by
  obtain ⟨c, hc⟩ := h.entries e he
  have hhead := head?_eq_some_head hc.used
  rw [← hown _ hhead, hc.users _ (head_mem hc.used)]
  exact hc

/-- An action for fetches of one class, and changes that leave the classes alone. -/
theorem ClassInv.moved (classId : ℕ) (done : List (IvFetch × List (IvAct V)))
    (hdone : ∀ d ∈ done, d.1.classId = classId) (hlog : s'.log = (s.perform classId done).log)
    (htransfers : s'.transfers = (s.perform classId done).transfers)
    (htable : WellKept s'.entries s'.nextAddr)
    (hentries : ∀ e ∈ s'.entries, ∃ c, e.BelongsTo c) : ClassInv s' := by
  refine ⟨htable, fun r hr => ?_, fun t ht => ?_, hentries⟩
  · rw [hlog] at hr
    rcases mem_append.mp hr with hr | hr
    · exact h.log r hr
    · obtain ⟨d, hd, hrd⟩ := mem_flatMap.mp hr
      obtain ⟨act, _, rfl⟩ := List.mem_map.mp hrd
      exact (hdone d hd).symm
  · rw [htransfers] at ht
    rcases mem_append.mp ht with ht | ht
    · exact h.transfers t ht
    · obtain ⟨d, hd, htd⟩ := mem_flatMap.mp ht
      obtain ⟨act, _, hact⟩ := mem_filterMap.mp htd
      cases act with
      | transfer buf value =>
        cases hact
        exact (hdone d hd).symm
      | _ => cases hact

theorem ClassInv.modify (he : e ∈ s.entries) {g : KipEntry → KipEntry} (hg : ∃ c,
    (g e).BelongsTo c) : ∀ b ∈ modifyEntry e g s.entries, ∃ c, b.BelongsTo c := by
  intro b hb
  rcases (h.table.mem_modifyEntry he).mp hb with rfl | ⟨hb, _⟩
  · exact hg
  · exact h.entries b hb

theorem ClassInv.unset (he : e ∈ s.entries) :
    ∀ b ∈ crtIvfKeyInProgressUnset e s.entries, ∃ c, b.BelongsTo c := by
  intro b hb
  rcases (h.table.mem_unset he).mp hb with ⟨_, rfl⟩ | ⟨hb, _⟩
  · obtain ⟨c, hc⟩ := h.entries e he
    exact ⟨c, hc.users, hc.waiting, hc.used⟩
  · exact h.entries b hb

end

theorem KipEntry.BelongsTo.join (h : e.BelongsTo f.classId) :
    ∀ g ∈ e.kipUsers ++ [f], g.classId = f.classId :=
  forall_mem_append.mpr ⟨h.users, forall_mem_singleton.mpr rfl⟩

section

variable (h : ClassInv s)

include h

theorem ClassInv.fetch {env : FetchEnv V} (hown : (IvEvent.fetch f env).FindsOwn ns s)
    (hfetch : s.fetch ns f env = s') (htable : WellKept s'.entries s'.nextAddr) : ClassInv s' := by
  have harrival := s.arrival_fetch ns f env
  rw [IvEvent.FindsOwn, hfetch] at hown
  rw [hfetch] at harrival
  have hdone {acts : List (IvAct V)} : ∀ d ∈ [(f, acts)], d.1.classId = f.classId :=
    forall_mem_singleton.mpr rfl
  have huses {e : KipEntry} {g : KipEntry → KipEntry} (he : e ∈ s.entries)
      (hg : (g e).kipUsers = e.kipUsers ++ [f]) :
      f ∈ (modifyEntry e g s.entries).flatMap KipEntry.kipUsers :=
    mem_flatMap.mpr ⟨g e, (h.table.mem_modifyEntry he).mpr (.inl rfl), by simp [hg]⟩
  cases harrival with
  | refused => exact h
  | answered => exact h.moved f.classId _ hdone rfl rfl htable h.entries
  | queued _ hfind _ =>
    have he := mem_of_find hfind
    have hbelongs := h.belongs he (hown (huses he rfl) _ hfind)
    refine h.moved f.classId _ hdone rfl rfl htable (h.modify he ⟨f.classId, hbelongs.join, ?_, ?_⟩)
    · exact append_subset.mpr ⟨subset_append_of_subset_left _ hbelongs.waiting,
        subset_append_right _ _⟩
    · simp [KipEntry.queue]
  | marked _ hfind _ =>
    have he := mem_of_find hfind
    have hbelongs := h.belongs he (hown (huses he rfl) _ hfind)
    exact h.moved f.classId _ hdone rfl rfl htable (h.modify he ⟨f.classId, hbelongs.join,
      subset_append_of_subset_left _ hbelongs.waiting, by simp [KipEntry.mark]⟩)
  | set _ hfind =>
    refine h.moved f.classId _ hdone rfl rfl htable (forall_mem_append.mpr ⟨h.entries,
      forall_mem_singleton.mpr ⟨f.classId, ?_, nil_subset _, by simp [KipEntry.set]⟩⟩)
    exact forall_mem_singleton.mpr rfl

/-- The queue of a response's entry is of its class. -/
theorem ClassInv.respond {rc : ℤ} {env : IvNode.ResponseEnv V}
    (hown : (IvEvent.respond f rc env).FindsOwn ns s)
    (hresponse : s.handleIvfetchResponse ns f rc env = s')
    (htable : WellKept s'.entries s'.nextAddr) : ClassInv s' := by
  have hfirst : ∀ d ∈ (if rc = 0 then [(f, crtIvfFinalize f.child rc env.value env.transfer)]
      else []), d.1.classId = f.classId := by
    split_ifs
    · exact forall_mem_singleton.mpr rfl
    · exact forall_mem_nil _
  rw [IvNode.handleIvfetchResponse] at hresponse
  cases hfind : crtIvfKeyInProgressFind ns f.classId f.ivKey.wire s.entries with
  | some e =>
    have he := mem_of_find hfind
    have hbelongs := h.belongs he (hown e hfind)
    rw [hfind] at hresponse
    subst hresponse
    refine h.moved f.classId _ (forall_mem_append.mpr ⟨hfirst, fun d hd => ?_⟩) rfl rfl htable
      (h.modify he ⟨f.classId, hbelongs.users, nil_subset _, hbelongs.used⟩)
    have hmem : d.1 ∈ e.kipPendingFetchList := by
      rw [← pendingReqs_fst env.pending rc e.kipPendingFetchList]
      exact List.mem_map_of_mem hd
    exact hbelongs.users d.1 (hbelongs.waiting hmem)
  | none =>
    rw [hfind] at hresponse
    subst hresponse
    exact h.moved f.classId _ hfirst rfl rfl htable h.entries

theorem ClassInv.apply {ev : IvEvent V} (hown : ev.FindsOwn ns s) (henabled : ev.Enabled s)
    (hstep : ev.apply ns s = some s') : ClassInv s' := by
  have htable := h.table.apply ns ev hstep
  have hdone {f : IvFetch} {acts : List (IvAct V)} : ∀ d ∈ [(f, acts)], d.1.classId = f.classId :=
    forall_mem_singleton.mpr rfl
  cases ev with
  | fetch f env => exact h.fetch hown (Option.some.inj hstep) htable
  | send f =>
    cases hstep
    exact ⟨htable, h.log, h.transfers, h.entries⟩
  | issueFail f rc =>
    cases hstep
    refine h.moved f.classId [(f, issueFailed f.child rc)] hdone rfl rfl htable ?_
    exact IvNode.issueFail_entries_of (motive := (∀ b ∈ ·, ∃ c, b.BelongsTo c)) h.entries
      fun e hfind _ => h.unset (mem_of_find hfind)
  | respond f rc env => exact h.respond hown (Option.some.inj hstep) htable
  | retire addr after =>
    obtain ⟨e, he, _, rfl⟩ := IvNode.retire_eq_some hstep
    refine ⟨htable, h.log, h.transfers, ?_⟩
    split_ifs
    · exact h.entries
    · exact h.unset he
  | finish f rc value transfer =>
    cases hstep
    exact h.moved f.classId _ hdone rfl rfl htable h.entries
  | transferDone t bciRc =>
    cases hstep
    have hrest : ClassInv { s with transfers := s.transfers.erase t } :=
      ⟨h.table, h.log, fun t' ht' => h.transfers t' (mem_of_mem_erase ht'), h.entries⟩
    exact hrest.moved t.classId _
      (forall_mem_singleton.mpr (h.transfers t henabled).symm) rfl rfl htable h.entries

end

end Steps

end Cart
