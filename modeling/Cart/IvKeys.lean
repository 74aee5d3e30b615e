/-
One entry and one RPC for each key (`crt_iv.c`).

The fetches here have keys that match exactly if a function `norm` gives the same for both.
Then the table has one entry for each class of keys, and at most one RPC (`Keyed`).  That no
entry is used after it has been freed needs more: an RPC that cannot be issued has to take the
entry with it.

Main results: `Keyed.apply`, `ivNode_safe`.
-/
import Cart.IvLedger

open List Option

namespace Cart

open KipEntry IvNode

variable {V : Type} {K : Type*} {ok : IvFetch → Prop} {norm : DIov → K} {ns : IvNamespace}
  {f : IvFetch}

/-- Keys are compared through `norm`, as far as the fetches in `ok` go. -/
structure KeyClasses (ns : IvNamespace) (ok : IvFetch → Prop) (norm : DIov → K) : Prop where
  find : ∀ f g, ok f → ok g →
    (ns.keysMatch g.classId f.ivKey g.ivKey = true ↔ norm f.ivKey = norm g.ivKey)
  wire : ∀ f g, ok f → ok g →
    ns.keysMatch g.classId f.ivKey g.ivKey.wire = true → norm f.ivKey = norm g.ivKey

/-- One entry for each class of keys, and one RPC at most, whose entry is marked. -/
structure Keyed (ok : IvFetch → Prop) (norm : DIov → K) (entries : List KipEntry)
    (nextAddr : ℕ) (out : List IvFetch) : Prop where
  table : WellKept entries nextAddr
  keys : ∀ e ∈ entries, ∃ f, ok f ∧ e.kipKey = f.ivKey
  norms : (entries.map fun e => norm e.kipKey).Nodup
  allOk : ∀ f ∈ out, ok f
  once : (out.map fun f => norm f.ivKey).Nodup
  marked : ∀ f ∈ out, ∃ e ∈ entries, norm e.kipKey = norm f.ivKey ∧ e.kipRpcInProgress = true

/-- Only fetches in `ok` arrive. -/
def IvEvent.FetchOk (ok : IvFetch → Prop) : IvEvent V → Prop
  | .fetch f _ => ok f
  | _ => True

/-- An RPC that cannot be issued takes its entry with it. -/
def IvEvent.FailsAlone (ns : IvNamespace) (s : IvNode V) : IvEvent V → Prop
  | .issueFail f _ =>
    ∀ e, crtIvfKeyInProgressFind ns f.classId f.ivKey s.entries = some e →
      e.kipPendingFetchList = [] ∧ e.kipRefcnt = 1
  | _ => True

namespace Keyed

variable {entries : List KipEntry} {nextAddr : ℕ} {out out' : List IvFetch} {e e' : KipEntry}
  {g : KipEntry → KipEntry}

section

variable (h : Keyed ok norm entries nextAddr out) (hns : KeyClasses ns ok norm) (hf : ok f)

include h hns hf

theorem norm_of_find (hfind : crtIvfKeyInProgressFind ns f.classId f.ivKey entries = some e) :
    norm e.kipKey = norm f.ivKey := by
  obtain ⟨f₀, hf₀, hkey⟩ := h.keys e (mem_of_find hfind)
  have hmatch := matches_of_find hfind
  rw [hkey] at hmatch ⊢
  exact (hns.find f₀ f hf₀ hf).mp hmatch

theorem norm_of_wire (hfind : crtIvfKeyInProgressFind ns f.classId f.ivKey.wire entries = some e) :
    norm e.kipKey = norm f.ivKey := by
  obtain ⟨f₀, hf₀, hkey⟩ := h.keys e (mem_of_find hfind)
  have hmatch := matches_of_find hfind
  rw [hkey] at hmatch ⊢
  exact hns.wire f₀ f hf₀ hf hmatch

theorem find_of_norm (he : e ∈ entries) (hnorm : norm e.kipKey = norm f.ivKey) :
    crtIvfKeyInProgressFind ns f.classId f.ivKey entries = some e := by
  cases hfind : crtIvfKeyInProgressFind ns f.classId f.ivKey entries with
  | some e' =>
    have hnorm' := h.norm_of_find hns hf hfind
    exact congrArg some (inj_on_of_nodup_map h.norms (mem_of_find hfind) he
      (hnorm'.trans hnorm.symm))
  | none =>
    obtain ⟨f₀, hf₀, hkey⟩ := h.keys e he
    rw [hkey] at hnorm
    have hmatch := (hns.find f₀ f hf₀ hf).mpr hnorm
    rw [← hkey] at hmatch
    exact absurd hmatch (find?_eq_none.mp hfind e he)

theorem norm_ne_of_find_none (hfind : crtIvfKeyInProgressFind ns f.classId f.ivKey entries = none) :
    ∀ e ∈ entries, norm e.kipKey ≠ norm f.ivKey := by
  intro e he hnorm
  rw [h.find_of_norm hns hf he hnorm] at hfind
  cases hfind

end

/-- There is no RPC for an entry that is not marked. -/
theorem norm_ne_of_not_marked (h : Keyed ok norm entries nextAddr out) (he : e ∈ entries)
    (hprogress : e.kipRpcInProgress = false) : ∀ f ∈ out, norm f.ivKey ≠ norm e.kipKey := by
  intro f hf hnorm
  obtain ⟨e', he', hnorm', hprogress'⟩ := h.marked f hf
  obtain rfl := inj_on_of_nodup_map h.norms he' he (hnorm'.trans hnorm)
  rw [hprogress] at hprogress'
  cases hprogress'

/-! What can be done to the table -/

theorem perm (h : Keyed ok norm entries nextAddr out) (hperm : out'.Perm out) :
    Keyed ok norm entries nextAddr out' where
  table := h.table
  keys := h.keys
  norms := h.norms
  allOk f hf := h.allOk f (hperm.mem_iff.mp hf)
  once := (hperm.map _).nodup_iff.mpr h.once
  marked f hf := h.marked f (hperm.mem_iff.mp hf)

theorem tail (h : Keyed ok norm entries nextAddr (f :: out)) :
    Keyed ok norm entries nextAddr out where
  table := h.table
  keys := h.keys
  norms := h.norms
  allOk f' hf' := h.allOk f' (mem_cons_of_mem _ hf')
  once := (nodup_cons.mp h.once).2
  marked f' hf' := h.marked f' (mem_cons_of_mem _ hf')

theorem norm_ne_of_cons (h : Keyed ok norm entries nextAddr (f :: out)) :
    ∀ f' ∈ out, norm f'.ivKey ≠ norm f.ivKey := by
  intro f' hf' hnorm
  exact (nodup_cons.mp h.once).1 (mem_map.mpr ⟨f', hf', hnorm⟩)

section

variable (h : Keyed ok norm entries nextAddr out)

include h

theorem cons (hf : ok f) (hout : ∀ f' ∈ out, norm f'.ivKey ≠ norm f.ivKey) (he : e ∈ entries)
    (hnorm : norm e.kipKey = norm f.ivKey) (hprogress : e.kipRpcInProgress = true) :
    Keyed ok norm entries nextAddr (f :: out) where
  table := h.table
  keys := h.keys
  norms := h.norms
  allOk := forall_mem_cons.mpr ⟨hf, h.allOk⟩
  once := by
    refine nodup_cons.mpr ⟨fun hmem => ?_, h.once⟩
    obtain ⟨f', hf', heq⟩ := mem_map.mp hmem
    exact hout f' hf' heq
  marked := forall_mem_cons.mpr ⟨⟨e, he, hnorm, hprogress⟩, h.marked⟩

theorem set (hf : ok f) (hnew : ∀ e ∈ entries, norm e.kipKey ≠ norm f.ivKey) :
    Keyed ok norm (entries ++ [.set nextAddr f]) (nextAddr + 1) out where
  table := h.table.set f
  keys := forall_mem_append.mpr
    ⟨h.keys, forall_mem_singleton.mpr ⟨f, hf, rfl⟩⟩
  norms := by
    rw [map_append, map_singleton]
    refine nodup_append.mpr ⟨h.norms, nodup_singleton _, ?_⟩
    intro k hk k' hk'
    obtain ⟨e, he, rfl⟩ := mem_map.mp hk
    rw [mem_singleton.mp hk']
    exact hnew e he
  allOk := h.allOk
  once := h.once
  marked f' hf' := by
    obtain ⟨e, he, hmarked⟩ := h.marked f' hf'
    exact ⟨e, mem_append_left _ he, hmarked⟩

/-- An entry is changed, and stays marked if there is an RPC for it. -/
theorem modify (he : e ∈ entries) (haddr : ∀ b, (g b).addr = b.addr) (hkey : ∀ b,
    (g b).kipKey = b.kipKey) (hwait : (g e).kipPendingFetchList ≠ [] →
    (g e).kipRpcInProgress = true) (hmarked : ∀ f ∈ out, norm f.ivKey = norm e.kipKey →
    (g e).kipRpcInProgress = true) :
    Keyed ok norm (modifyEntry e g entries) nextAddr out where
  table := h.table.modify he haddr hwait
  keys b hb := by
    rcases (h.table.mem_modifyEntry he).mp hb with rfl | ⟨hb, _⟩
    · rw [hkey]
      exact h.keys e he
    · exact h.keys b hb
  norms := by
    rw [modifyEntry, KeyedList.map_modifyAt (f := fun b => norm b.kipKey)
      fun b => congrArg norm (hkey b)]
    exact h.norms
  allOk := h.allOk
  once := h.once
  marked f hf := by
    obtain ⟨e', he', hnorm, hprogress⟩ := h.marked f hf
    by_cases heq : e' = e
    · subst heq
      exact ⟨g e', (h.table.mem_modifyEntry he).mpr (.inl rfl), by rw [hkey, hnorm],
        hmarked f hf hnorm.symm⟩
    · exact ⟨e', (h.table.mem_modifyEntry he).mpr (.inr ⟨he', heq⟩), hnorm, hprogress⟩

theorem unset (he : e ∈ entries) (hout : ∀ f ∈ out, norm f.ivKey ≠ norm e.kipKey) :
    Keyed ok norm (crtIvfKeyInProgressUnset e entries) nextAddr out := by
  by_cases hone : e.kipRefcnt = 1
  · rw [unset_of_eq_one hone]
    have hsub : (KeyedList.eraseAt addr e.addr entries).Sublist entries :=
      KeyedList.eraseAt_sublist
    refine ⟨unset_of_eq_one hone ▸ h.table.unset he, fun b hb => h.keys b (hsub.subset hb),
      (hsub.map _).nodup h.norms, h.allOk, h.once, fun f hf => ?_⟩
    obtain ⟨e', he', hnorm, hprogress⟩ := h.marked f hf
    refine ⟨e', KeyedList.mem_eraseAt.mpr ⟨he', fun haddr => ?_⟩, hnorm, hprogress⟩
    obtain rfl := inj_on_of_nodup_map h.table.nodup he' he haddr
    exact hout f hf hnorm.symm
  · rw [unset_of_ne_one hone]
    exact h.modify he (fun _ => rfl) (fun _ => rfl) (h.table.marked e he)
      fun f hf hnorm => absurd hnorm (hout f hf)

end

end Keyed

/-! ### What every event keeps -/

section Events

variable {s s' : IvNode V} {ev : IvEvent V}

theorem issuing_perm (hf : f ∈ s.issuing) :
    s.outstanding.Perm (f :: (s.issuing.erase f ++ s.sent)) :=
  (perm_cons_erase hf).append_right s.sent

theorem sent_perm (hf : f ∈ s.sent) : s.outstanding.Perm (f :: (s.issuing ++ s.sent.erase f)) :=
  ((perm_cons_erase hf).append_left s.issuing).trans perm_middle

theorem issue_perm (s : IvNode V) (f : IvFetch) :
    (s.issuing ++ [f] ++ s.sent).Perm (f :: s.outstanding) := by
  rw [append_assoc]
  exact perm_middle

theorem send_perm (hf : f ∈ s.issuing) :
    (s.issuing.erase f ++ (s.sent ++ [f])).Perm s.outstanding := by
  rw [← append_assoc]
  exact (perm_append_comm).trans (issuing_perm hf).symm

/-- Only a fetch that arrives can issue an RPC. -/
theorem IvEvent.apply_arrived (henabled : ev.Enabled s) (hstep : ev.apply ns s = some s') :
    s'.arrived = s.arrived ∧ s'.outstanding ⊆ s.outstanding ∨
      ∃ f env, ev = .fetch f env ∧ s'.arrived = s.arrived ++ [f] ∧
        s'.outstanding ⊆ f :: s.outstanding := by
  cases ev with
  | fetch f env =>
    have harrival := s.arrival_fetch ns f env
    rw [show s.fetch ns f env = s' from some.inj hstep] at harrival
    have hold : s.outstanding ⊆ f :: s.outstanding := subset_cons_self _ _
    cases harrival with
    | refused => exact .inl ⟨rfl, List.Subset.refl _⟩
    | answered | queued => exact .inr ⟨f, env, rfl, rfl, hold⟩
    | marked | set => exact .inr ⟨f, env, rfl, rfl, (issue_perm s f).subset⟩
  | send f =>
    cases hstep
    exact .inl ⟨rfl, (send_perm henabled).subset⟩
  | issueFail f rc =>
    cases hstep
    exact .inl ⟨rfl, (erase_sublist.append_right s.sent).subset⟩
  | respond f rc env =>
    cases hstep
    left
    rw [handleIvfetchResponse]
    cases crtIvfKeyInProgressFind ns f.classId f.ivKey.wire s.entries with
    | some e | none => exact ⟨rfl, (erase_sublist.append_left s.issuing).subset⟩
  | retire addr after =>
    obtain ⟨e, _, _, rfl⟩ := retire_eq_some hstep
    exact .inl ⟨rfl, List.Subset.refl _⟩
  | finish f rc value transfer | transferDone t bciRc =>
    cases hstep
    exact .inl ⟨rfl, List.Subset.refl _⟩

section

variable (h : Keyed ok norm s.entries s.nextAddr s.outstanding) (hns : KeyClasses ns ok norm)

include h hns

theorem Keyed.fetch (hok : ok f) (env : FetchEnv V) :
    Keyed ok norm (s.fetch ns f env).entries (s.fetch ns f env).nextAddr
      (s.fetch ns f env).outstanding := by
  have harrival := s.arrival_fetch ns f env
  generalize s.fetch ns f env = s' at harrival
  cases harrival with
  | refused | answered => exact h
  | queued _ hfind hprogress =>
    exact h.modify (mem_of_find hfind) (fun _ => rfl) (fun _ => rfl) (fun _ => hprogress)
      fun _ _ _ => hprogress
  | @marked _ e _ hfind hprogress =>
    have he := mem_of_find hfind
    have hnorm := h.norm_of_find hns hok hfind
    have hmark := h.modify (g := .mark f) he (fun _ => rfl) (fun _ => rfl) (fun _ => rfl)
      fun _ _ _ => rfl
    have hmem : e.mark f ∈ modifyEntry e (.mark f) s.entries :=
      (h.table.mem_modifyEntry he).mpr (.inl rfl)
    refine (hmark.cons hok ?_ hmem hnorm rfl).perm (issue_perm s f)
    rw [← hnorm]
    exact h.norm_ne_of_not_marked he hprogress
  | set _ hfind =>
    have hnew := h.norm_ne_of_find_none hns hok hfind
    refine ((h.set hok hnew).cons hok (fun f' hf' hnorm => ?_)
      (mem_append_right _ (mem_singleton_self _)) rfl rfl).perm (issue_perm s f)
    obtain ⟨e, he, hnorm', _⟩ := h.marked f' hf'
    exact hnew e he (hnorm'.trans hnorm)

theorem Keyed.issueFail (hf : f ∈ s.issuing) (rc : ℤ) :
    Keyed ok norm (s.issueFail ns f rc).entries s.nextAddr
      (s.issuing.erase f ++ s.sent) := by
  have hcons := h.perm (issuing_perm hf).symm
  have hok := hcons.allOk f mem_cons_self
  refine issueFail_entries_of (motive := (Keyed ok norm · s.nextAddr _)) hcons.tail
    fun e hfind _ => hcons.tail.unset (mem_of_find hfind) ?_
  rw [h.norm_of_find hns hok hfind]
  exact hcons.norm_ne_of_cons

theorem Keyed.respond (hf : f ∈ s.sent) (rc : ℤ) (env : IvNode.ResponseEnv V) :
    Keyed ok norm (s.handleIvfetchResponse ns f rc env).entries
      (s.handleIvfetchResponse ns f rc env).nextAddr
      (s.handleIvfetchResponse ns f rc env).outstanding := by
  have hcons := h.perm (sent_perm hf).symm
  have hok := hcons.allOk f mem_cons_self
  rw [handleIvfetchResponse]
  cases hfind : crtIvfKeyInProgressFind ns f.classId f.ivKey.wire s.entries with
  | some e =>
    have hnorm := h.norm_of_wire hns hok hfind
    refine hcons.tail.modify (mem_of_find hfind) (fun _ => rfl) (fun _ => rfl)
      (fun hnil => absurd rfl hnil) fun f' hf' hnorm' => ?_
    exact absurd (hnorm'.trans hnorm) (hcons.norm_ne_of_cons f' hf')
  | none => exact hcons.tail

theorem Keyed.apply (hok : ev.FetchOk ok) (henabled : ev.Enabled s)
    (hstep : ev.apply ns s = some s') : Keyed ok norm s'.entries s'.nextAddr s'.outstanding := by
  cases ev with
  | fetch f env => exact some.inj hstep ▸ h.fetch hns hok env
  | send f =>
    cases hstep
    exact h.perm (send_perm henabled)
  | issueFail f rc =>
    cases hstep
    exact h.issueFail hns henabled.1 rc
  | respond f rc env => exact some.inj hstep ▸ h.respond hns henabled rc env
  | retire addr after =>
    obtain ⟨e, he, _, rfl⟩ := retire_eq_some hstep
    split_ifs with hprogress
    · exact h
    · exact h.unset he (h.norm_ne_of_not_marked he (Bool.not_eq_true _ ▸ hprogress))
  | finish f rc value transfer | transferDone t bciRc =>
    cases hstep
    exact h

end

theorem Keyed.empty : Keyed ok norm (.empty : IvNode V).entries (.empty : IvNode V).nextAddr
    (.empty : IvNode V).outstanding :=
  ⟨.empty, forall_mem_nil _, nodup_nil, forall_mem_nil _, nodup_nil,
    forall_mem_nil _⟩

theorem Keyed.entry (h : Keyed ok norm s.entries s.nextAddr s.outstanding)
    (hns : KeyClasses ns ok norm) (hf : f ∈ s.outstanding) :
    ∃ e ∈ s.entries, crtIvfKeyInProgressFind ns f.classId f.ivKey s.entries = some e ∧
      norm e.kipKey = norm f.ivKey ∧ e.kipRpcInProgress = true := by
  obtain ⟨e, he, hnorm, hprogress⟩ := h.marked f hf
  exact ⟨e, he, h.find_of_norm hns (h.allOk f hf) he hnorm, hnorm, hprogress⟩

/-! ### References -/

/-- The reference count of an entry does not overflow when the fetch issues an RPC
under it. -/
def IvEvent.NoOverflow (ns : IvNamespace) (s : IvNode V) : IvEvent V → Prop
  | .fetch f _ =>
    ∀ e, crtIvfKeyInProgressFind ns f.classId f.ivKey s.entries = some e →
      e.kipRefcnt.toNat + 1 < 2 ^ 32
  | _ => True

/-- The references to an entry: responses that still have to drop theirs, and the
RPC. -/
def KipEntry.references (retiring : List (ℕ × Option (IvFetch × ℤ))) (e : KipEntry) : ℕ :=
  (retiring.map Prod.fst).count e.addr + if e.kipRpcInProgress then 1 else 0

/-- Every reference is counted, and what is referred to is there. -/
structure Refs (entries : List KipEntry) (retiring : List (ℕ × Option (IvFetch × ℤ))) : Prop where
  there : ∀ p ∈ retiring, ∃ e ∈ entries, e.addr = p.1
  counted : ∀ e ∈ entries, e.references retiring ≤ e.kipRefcnt.toNat

namespace Refs

variable {entries : List KipEntry} {nextAddr : ℕ} {retiring : List (ℕ × Option (IvFetch × ℤ))}
  {e : KipEntry} {g : KipEntry → KipEntry}

section

variable (h : Refs entries retiring) (htable : WellKept entries nextAddr)

include h htable

theorem modify (he : e ∈ entries) (haddr : ∀ b, (g b).addr = b.addr) (hcounted :
    (g e).references retiring ≤ (g e).kipRefcnt.toNat) :
    Refs (modifyEntry e g entries) retiring where
  there p hp := by
    obtain ⟨b, hb, hpb⟩ := h.there p hp
    by_cases heq : b = e
    · subst heq
      exact ⟨g b, (htable.mem_modifyEntry he).mpr (.inl rfl), (haddr b).trans hpb⟩
    · exact ⟨b, (htable.mem_modifyEntry he).mpr (.inr ⟨hb, heq⟩), hpb⟩
  counted b hb := by
    rcases (htable.mem_modifyEntry he).mp hb with rfl | ⟨hb, _⟩
    · exact hcounted
    · exact h.counted b hb

theorem set (f : IvFetch) : Refs (entries ++ [.set nextAddr f]) retiring where
  there p hp := by
    obtain ⟨b, hb, hpb⟩ := h.there p hp
    exact ⟨b, mem_append_left _ hb, hpb⟩
  counted b hb := by
    rcases mem_append.mp hb with hb | hb
    · exact h.counted b hb
    · obtain rfl := mem_singleton.mp hb
      have hnone : nextAddr ∉ retiring.map Prod.fst := by
        intro hmem
        obtain ⟨p, hp, hpaddr⟩ := mem_map.mp hmem
        obtain ⟨b, hb, hpb⟩ := h.there p hp
        exact (htable.fresh b hb).ne (hpb.trans hpaddr)
      show (retiring.map Prod.fst).count nextAddr + 1 ≤ 1
      rw [count_eq_zero_of_not_mem hnone]

theorem drain (he : e ∈ entries) (hprogress : e.kipRpcInProgress = true) (after : Option
    (IvFetch × ℤ)) :
    Refs (modifyEntry e .drain entries) (retiring ++ [(e.addr, after)]) where
  there p hp := by
    rcases mem_append.mp hp with hp | hp
    · obtain ⟨b, hb, hpb⟩ := h.there p hp
      by_cases heq : b = e
      · subst heq
        exact ⟨b.drain, (htable.mem_modifyEntry he).mpr (.inl rfl), hpb⟩
      · exact ⟨b, (htable.mem_modifyEntry he).mpr (.inr ⟨hb, heq⟩), hpb⟩
    · obtain rfl := mem_singleton.mp hp
      exact ⟨e.drain, (htable.mem_modifyEntry he).mpr (.inl rfl), rfl⟩
  counted b hb := by
    rcases (htable.mem_modifyEntry he).mp hb with rfl | ⟨hb, hne⟩
    · have hcounted := h.counted e he
      rw [references, hprogress, if_pos rfl] at hcounted
      show ((retiring ++ [(e.addr, after)]).map Prod.fst).count e.addr + 0 ≤ e.kipRefcnt.toNat
      rw [map_append, count_append, map_singleton, count_singleton_self]
      exact hcounted
    · have hcounted := h.counted b hb
      have haddr : b.addr ≠ e.addr := (htable.addr_ne he hb).mpr hne
      rw [references, map_append, count_append, map_singleton,
        count_singleton, beq_false_of_ne haddr.symm]
      exact hcounted

/-- A reference is dropped, and the entry goes with the last one. -/
theorem unset (he : e ∈ entries) {retiring' : List (ℕ × Option (IvFetch × ℤ))}
    (hsub : ∀ p ∈ retiring', p ∈ retiring) (hcount : ∀ a, (retiring'.map Prod.fst).count a ≤
    (retiring.map Prod.fst).count a) (hlast :
    (retiring'.map Prod.fst).count e.addr + 1 ≤ e.kipRefcnt.toNat)
    (hdropped : e.kipRefcnt ≠ 1 → e.references retiring' + 1 ≤ e.kipRefcnt.toNat) :
    Refs (crtIvfKeyInProgressUnset e entries) retiring' := by
  refine ⟨fun p hp => ?_, fun b hb => ?_⟩
  · obtain ⟨b, hb, hpb⟩ := h.there p (hsub p hp)
    by_cases heq : b = e
    · subst heq
      refine ⟨b.decref, (htable.mem_unset he).mpr (.inl ⟨fun hone => ?_, rfl⟩), hpb⟩
      have hpos : 0 < (retiring'.map Prod.fst).count b.addr :=
        count_pos_iff.mpr (mem_map.mpr ⟨p, hp, hpb.symm⟩)
      have htoNat : b.kipRefcnt.toNat = 1 := congrArg UInt32.toNat hone
      omega
    · exact ⟨b, (htable.mem_unset he).mpr (.inr ⟨hb, heq⟩), hpb⟩
  · rcases (htable.mem_unset he).mp hb with ⟨hne, rfl⟩ | ⟨hb, _⟩
    · have hdropped := hdropped hne
      have hle : (1 : UInt32) ≤ e.kipRefcnt := by
        rw [UInt32.le_iff_toNat_le]
        show 1 ≤ e.kipRefcnt.toNat
        omega
      show e.references retiring' ≤ (e.kipRefcnt - 1).toNat
      rw [UInt32.toNat_sub_of_le _ _ hle]
      show _ ≤ e.kipRefcnt.toNat - 1
      omega
    · exact (Nat.add_le_add_right (hcount b.addr) _).trans (h.counted b hb)

end

end Refs

section

variable (h : Refs s.entries s.retiring)
  (hkeyed : Keyed ok norm s.entries s.nextAddr s.outstanding)

include h hkeyed

theorem Refs.fetch (env : FetchEnv V) (hoverflow : (IvEvent.fetch f env).NoOverflow ns s) :
    Refs (s.fetch ns f env).entries (s.fetch ns f env).retiring := by
  have harrival := s.arrival_fetch ns f env
  generalize s.fetch ns f env = s' at harrival
  cases harrival with
  | refused | answered => exact h
  | queued _ hfind _ =>
    have he := mem_of_find hfind
    refine h.modify hkeyed.table he (fun _ => rfl) ?_
    have hcounted := h.counted _ he
    exact hcounted
  | @marked _ e _ hfind hprogress =>
    have he := mem_of_find hfind
    refine h.modify hkeyed.table he (fun _ => rfl) ?_
    have hcounted := h.counted e he
    have hlt := hoverflow e hfind
    rw [references, hprogress] at hcounted
    show (s.retiring.map Prod.fst).count e.addr + 1 ≤ (e.kipRefcnt + 1).toNat
    rw [UInt32.toNat_add]
    show _ ≤ (e.kipRefcnt.toNat + 1) % 2 ^ 32
    rw [Nat.mod_eq_of_lt hlt]
    simpa using hcounted
  | set _ hfind => exact h.set hkeyed.table f

/-- The references stay right, as long as none overflows. -/
theorem Refs.apply (hns : KeyClasses ns ok norm) (halone : ev.FailsAlone ns s)
    (hoverflow : ev.NoOverflow ns s) (henabled : ev.Enabled s) (hstep : ev.apply ns s = some s') :
    Refs s'.entries s'.retiring := by
  cases ev with
  | fetch f env => exact some.inj hstep ▸ h.fetch hkeyed env hoverflow
  | send f | finish f rc value transfer | transferDone t bciRc =>
    cases hstep
    exact h
  | issueFail f rc =>
    cases hstep
    obtain ⟨e, he, hfind, _, hprogress⟩ := hkeyed.entry hns (mem_append_left _ henabled.1)
    obtain ⟨hnil, hone⟩ := halone e hfind
    have hcounted := h.counted e he
    rw [references, hprogress, if_pos rfl] at hcounted
    simp only [issueFail, hfind, if_pos hnil]
    exact h.unset hkeyed.table he (fun p hp => hp) (fun a => le_rfl) hcounted
      fun hne => absurd hone hne
  | respond f rc env =>
    cases hstep
    rw [handleIvfetchResponse]
    cases hfind : crtIvfKeyInProgressFind ns f.classId f.ivKey.wire s.entries with
    | some e =>
      have he := mem_of_find hfind
      obtain ⟨e', he', hnorm, hprogress⟩ := hkeyed.marked f (mem_append_right _ henabled)
      have hok := hkeyed.allOk f (mem_append_right _ henabled)
      obtain rfl := inj_on_of_nodup_map hkeyed.norms he' he
        (hnorm.trans (hkeyed.norm_of_wire hns hok hfind).symm)
      exact h.drain hkeyed.table he hprogress _
    | none => exact h
  | retire addr after =>
    obtain ⟨e, he, rfl, rfl⟩ := retire_eq_some hstep
    have hperm := (perm_cons_erase (l := s.retiring) henabled).map Prod.fst
    have hcount (a : ℕ) : ((s.retiring.erase (e.addr, after)).map Prod.fst).count a ≤
        (s.retiring.map Prod.fst).count a := by
      rw [hperm.count_eq a, map_cons]
      exact count_le_count_cons
    have hsub (p) (hp : p ∈ s.retiring.erase (e.addr, after)) : p ∈ s.retiring :=
      mem_of_mem_erase hp
    split_ifs with hprogress
    · exact ⟨fun p hp => h.there p (hsub p hp), fun b hb =>
        (Nat.add_le_add_right (hcount b.addr) _).trans (h.counted b hb)⟩
    · have hcounted := h.counted e he
      rw [references, hperm.count_eq, map_cons, count_cons_self,
        if_neg hprogress] at hcounted
      refine h.unset hkeyed.table he hsub hcount hcounted fun _ => ?_
      rw [references, if_neg hprogress]
      exact hcounted

end

end Events

/-- The fetches that arrive are in `ok`, and an RPC that cannot be issued takes its
entry with it. -/
def Disciplined (ns : IvNamespace) (ok : IvFetch → Prop) (s : IvNode V) (ev : IvEvent V) : Prop :=
  ev.FetchOk ok ∧ ev.FailsAlone ns s

theorem arrived_invariant (V : Type) (ns : IvNamespace) (ok : IvFetch → Prop) :
    ((ivNodeLts V ns).restrict fun _ ev => ev.FetchOk ok).Invariant fun s =>
      (∀ f ∈ s.arrived, ok f) ∧ s.outstanding ⊆ s.arrived where
  init s hs := by
    obtain rfl := hs
    exact ⟨forall_mem_nil _, List.Subset.refl _⟩
  step s ev s' h henabled hstep := by
    obtain ⟨henabled, hok⟩ := henabled
    rcases IvEvent.apply_arrived henabled hstep with
      ⟨harrived, hsub⟩ | ⟨f, env, rfl, harrived, hsub⟩
    · rw [harrived]
      exact ⟨h.1, List.Subset.trans hsub h.2⟩
    · rw [harrived]
      refine ⟨forall_mem_append.mpr ⟨h.1, forall_mem_singleton.mpr hok⟩, ?_⟩
      exact List.Subset.trans hsub (cons_subset.mpr
        ⟨mem_append_right _ (mem_singleton_self f),
          subset_append_of_subset_left _ h.2⟩)

/-- **No entry is used after it has been freed**, unless a reference count
overflows. -/
theorem ivNode_safe (hns : KeyClasses ns ok norm) :
    ((ivNodeLts V ns).restrict fun s ev => Disciplined ns ok s ev ∧ ev.NoOverflow ns s).Safe := by
  have hinv : ((ivNodeLts V ns).restrict fun s ev =>
      Disciplined ns ok s ev ∧ ev.NoOverflow ns s).Invariant fun s =>
        Keyed ok norm s.entries s.nextAddr s.outstanding ∧ Refs s.entries s.retiring := by
    refine ⟨fun s hs => ?_, fun s ev s' h henabled hstep => ?_⟩
    · obtain rfl := hs
      exact ⟨.empty, forall_mem_nil _, forall_mem_nil _⟩
    · obtain ⟨henabled, ⟨hok, halone⟩, hoverflow⟩ := henabled
      exact ⟨h.1.apply hns hok henabled hstep,
        h.2.apply h.1 hns halone hoverflow henabled hstep⟩
  refine hinv.safe fun s ev h henabled => ?_
  cases ev with
  | retire addr after =>
    obtain ⟨e, he, haddr⟩ := h.2.there _ henabled.1
    have hfound : (s.entries.find? fun b => b.addr = addr).isSome = true :=
      find?_isSome.mpr ⟨e, he, decide_eq_true haddr⟩
    obtain ⟨b, hb⟩ := isSome_iff_exists.mp hfound
    exact ⟨_, congrArg (Option.map _) hb⟩
  | fetch f env | send f | issueFail f rc | respond f rc env | finish f rc value transfer
  | transferDone t bciRc => exact ⟨_, rfl⟩

end Cart
