/-
Completion of a collective on one node.

`Counts` ties the counters to what has happened: every child is still to be created,
outstanding, handled or dropped; the acknowledged ones are the handled ones that are not
parked, and the local reply.  A completion happens exactly when the counters meet.

Main result: `corpc_completes_once`.
-/
import Cart.CorpcNode

open List

namespace Cart

namespace CorpcNode

variable {ι : Type} [DecidableEq ι] {cfg : CorpcCfg} {n n' : CorpcNode ι} {e : CorpcEvent ι} {c : ι}
  {cs : List ι}

/-- The main thread has not yet left the local handler to itself. -/
def undispatched (n : CorpcNode ι) : ℕ :=
  match n.pc with
  | .start | .forward _ | .dispatch => 1
  | .localDone | .finished => 0

/-- How the counters and lists of a node hang together. -/
structure Counts (cfg : CorpcCfg) (n : CorpcNode ι) : Prop where
  len : n.todo.length + n.coChildRpcs.length + n.handled.length + n.dropped.length = n.coChildNum
  cnt : ∀ c, n.todo.count c + n.coChildRpcs.count c + n.handled.count c + n.dropped.count c =
    n.children.count c
  nodup : n.children.Nodup
  num : n.children.length = n.coChildNum
  fresh : n.pc = .start → n.coChildNum = 0
  ack : n.coChildAckNum + n.coRepliedRpcs.length = n.handled.length + n.localReplied.toNat
  failed : n.coChildFailedNum = n.dropped.length + n.dispatchFailed.toNat
  phase : n.localReplied.toNat + n.dispatchFailed.toNat + n.crpReplyPending.toNat + n.undispatched =
    if cfg.coRootExcluded then n.undispatched else 1
  excluded : cfg.coRootExcluded = true → n.pc ≠ .dispatch ∧ n.pc ≠ .localDone
  failing : n.pc = .localDone → n.dispatchFailed = true
  parked : n.coRepliedRpcs ≠ [] →
    cfg.coOps = true ∧ cfg.coRootExcluded = false ∧ n.localReplied = false
  flag : cfg.coOps = true → n.localReplied = true → n.coLocalDone = true
  early : cfg.coRootExcluded = false → n.localReplied = false →
    n.dispatchFailed = false ∨ n.pc = .localDone → n.coLocalDone = false
  late : n.dispatchFailed = true → n.pc = .finished → n.coLocalDone = true
  merge : ∀ c, (n.merged.map Prod.snd).count c + n.coRepliedRpcs.count c ≤ n.handled.count c

/-- Everything the node waits for has been counted. -/
def Counted (cfg : CorpcCfg) (n : CorpcNode ι) : Prop :=
  n.doneNum = n.waitNum cfg ∧ (n.waitNum cfg = 0 → n.pc = .finished)

instance : Decidable (Counted cfg n) := instDecidableAnd

/-- The counters are right, and the node has completed if everything is
counted. -/
structure Inv (cfg : CorpcCfg) (n : CorpcNode ι) : Prop extends Counts cfg n where
  done : n.completed.length = if Counted cfg n then 1 else 0

/-! ### Consequences of the counting -/

section

variable (h : Counts cfg n)

include h

theorem Counts.complete : Counts cfg (n.complete cfg) := by
  rw [complete_eq]
  exact ⟨h.len, h.cnt, h.nodup, h.num, h.fresh, h.ack, h.failed, h.phase, h.excluded, h.failing,
    h.parked, h.flag, h.early, h.late, h.merge⟩

theorem Counts.complete_inv (hopen : n.completed = []) (hc : Counted cfg n) :
    Inv cfg (n.complete cfg) := by
  refine ⟨h.complete, ?_⟩
  have hc' : Counted cfg (n.complete cfg) := by
    rw [complete_eq]
    exact hc
  rw [if_pos hc', complete_eq, hopen]
  rfl

/-- A state that was open before gets its completion from `settle`. -/
theorem Counts.settle (hopen : n.completed = []) (hwait : 0 < n.waitNum cfg) :
    Inv cfg (n.settle cfg) := by
  rw [CorpcNode.settle]
  split_ifs with hdone
  · exact h.complete_inv hopen ⟨hdone.symm, fun h0 => absurd h0 hwait.ne'⟩
  · refine ⟨h, ?_⟩
    rw [if_neg fun hc => hdone hc.1.symm, hopen]
    rfl

theorem Counts.local_le :
    n.localReplied.toNat + n.dispatchFailed.toNat ≤ if cfg.coRootExcluded then 0 else 1 := by
  have hphase := h.phase
  split_ifs at hphase ⊢ with hex
  · omega
  · omega

theorem Counts.no_local (hpc : n.undispatched = 1) :
    n.localReplied = false ∧ n.dispatchFailed = false ∧ n.crpReplyPending = false := by
  have hphase := h.phase
  simp only [hpc, ite_self] at hphase
  simp only [← Bool.toNat_eq_zero]
  omega

theorem Counts.doneNum_le : n.doneNum ≤ n.waitNum cfg := by
  have hlen := h.len
  have hack := h.ack
  have hfailed := h.failed
  have hlocal := h.local_le
  rw [doneNum, waitNum]
  omega

theorem Counts.doneNum_lt_of_mem (hc : c ∈ n.coChildRpcs) : n.doneNum < n.waitNum cfg := by
  have hpos := length_pos_of_mem hc
  have hlen := h.len
  have hack := h.ack
  have hfailed := h.failed
  have hlocal := h.local_le
  rw [doneNum, waitNum]
  omega

end

theorem Inv.completed_of_lt (h : Inv cfg n) (hlt : n.doneNum < n.waitNum cfg) :
    n.completed = [] := by
  have hdone := h.done
  rw [if_neg fun hc => hlt.ne hc.1] at hdone
  exact length_eq_zero_iff.mp hdone

theorem Inv.done_of_same (h : Inv cfg n) (hdone : n'.doneNum = n.doneNum)
    (hwait : n'.waitNum cfg = n.waitNum cfg)
    (hpc : n.waitNum cfg = 0 → (n'.pc = .finished ↔ n.pc = .finished))
    (hcompleted : n'.completed = n.completed) :
    n'.completed.length = if Counted cfg n' then 1 else 0 := by
  have hiff : Counted cfg n' ↔ Counted cfg n := by
    rw [Counted, Counted, hdone, hwait]
    exact and_congr_right fun _ => forall_congr' hpc
  simp only [hcompleted, h.done, hiff]

/-! ### The main thread -/

theorem init_inv : Inv cfg (init ι) := by
  refine ⟨⟨rfl, fun c => rfl, nodup_nil, rfl, fun _ => rfl, rfl, rfl, ?_, ?_, ?_, ?_, ?_, ?_,
    ?_, fun c => le_refl 0⟩, ?_⟩
  · cases cfg.coRootExcluded <;> rfl
  · exact fun _ => ⟨by simp [init], by simp [init]⟩
  · exact fun h => absurd h (by simp [init])
  · exact fun h => absurd rfl h
  · exact fun _ h => absurd h Bool.false_ne_true
  · exact fun _ _ _ => rfl
  · exact fun h => absurd h Bool.false_ne_true
  · have hnot : ¬ Counted cfg (init ι) := by
      rintro ⟨hdone, hfin⟩
      have hpc := hfin (by rw [← hdone]; rfl)
      simp [init] at hpc
    rw [if_neg hnot]
    rfl

/-- While children are created, there is nothing to show about the later stages. -/
theorem Counts.while_forwarding (h : Counts cfg n) (l : List ι) :
    (cfg.coRootExcluded = true → CorpcPc.forward l ≠ .dispatch ∧ CorpcPc.forward l ≠ .localDone) ∧
    (CorpcPc.forward l = .localDone → n.dispatchFailed = true) ∧
    (cfg.coRootExcluded = false → n.localReplied = false →
      n.dispatchFailed = false ∨ CorpcPc.forward l = .localDone → n.coLocalDone = false) ∧
    (n.dispatchFailed = true → CorpcPc.forward l = .finished → n.coLocalDone = true) := by
  refine ⟨fun _ => ⟨by simp, by simp⟩, fun hp => absurd hp (by simp), fun hex hl hd => ?_,
    fun _ hp => absurd hp (by simp)⟩
  exact h.early hex hl (.inl (hd.resolve_right (by simp)))

section

variable (h : Inv cfg n)

include h

theorem Inv.start_fail (hpc : n.pc = .start) (rc : ℤ) :
    Inv cfg { n.failParentRpc rc with pc := .forward [] } := by
  have hlen := h.len
  have hcnt := h.cnt
  have hphase := h.phase
  simp only [todo, undispatched, hpc] at hlen hcnt hphase
  obtain ⟨hexcluded, hfailing, hearly, hlate⟩ := h.while_forwarding []
  refine ⟨⟨hlen, hcnt, h.nodup, h.num, ?_, h.ack, h.failed, hphase, hexcluded, hfailing, h.parked,
    h.flag, hearly, hlate, h.merge⟩, ?_⟩
  · exact fun hp => absurd hp (by simp)
  · exact h.done_of_same rfl rfl (fun _ => by simp [hpc]) rfl

theorem Inv.start_children (hpc : n.pc = .start) {l : List ι} (hl : l.Nodup) : Inv cfg { n with
      coChildNum := l.length, coChildAckNum := 0, children := l, pc := .forward l } := by
  have hlen := h.len
  have hack := h.ack
  have hfailed := h.failed
  have hphase := h.phase
  have hzero := h.fresh hpc
  simp only [todo, undispatched, hpc, length_nil] at hlen hphase
  obtain ⟨hreplied, hfail, _⟩ := h.no_local (by rw [undispatched, hpc])
  obtain ⟨hrpcs, hhandled, hdropped⟩ :
      n.coChildRpcs = [] ∧ n.handled = [] ∧ n.dropped = [] := by
    simp only [← length_eq_zero_iff]
    omega
  have hparked : n.coRepliedRpcs = [] := by
    rw [hhandled, hreplied, length_nil, Bool.toNat_false] at hack
    exact length_eq_zero_iff.mp (by omega)
  obtain ⟨hexcluded, hfailing, hearly, hlate⟩ := h.while_forwarding l
  refine ⟨⟨?_, ?_, hl, rfl, ?_, ?_, h.failed, hphase, hexcluded, hfailing, h.parked, h.flag, hearly,
    hlate, h.merge⟩, ?_⟩
  · simp [todo, hrpcs, hhandled, hdropped]
  · simp [todo, hrpcs, hhandled, hdropped]
  · exact fun hp => absurd hp (by simp)
  · simp only [hparked, hhandled, hreplied, length_nil, Bool.toNat_false]
  · -- nothing is counted yet, and an empty loop has not ended
    have hopen : n.completed = [] := by
      have hdone := h.done
      rw [if_neg fun hc => ?_] at hdone
      · exact length_eq_zero_iff.mp hdone
      · have hw := hc.2
        rw [← hc.1, hpc, doneNum, hfailed, hdropped, hfail] at hw
        rw [hhandled, hreplied, length_nil, Bool.toNat_false] at hack
        exact absurd (hw (by simpa using by omega)) (by simp)
    rw [hopen, if_neg]
    · rfl
    · rintro ⟨hdone, hfin⟩
      simp only [doneNum, waitNum] at hdone hfin
      rw [hdropped, hfail, length_nil, Bool.toNat_false] at hfailed
      exact absurd (hfin (by omega)) (by simp)

theorem Inv.create (hpc : n.pc = .forward (c :: cs)) :
    Inv cfg { n with coChildRpcs := n.coChildRpcs ++ [c], pc := .forward cs } := by
  have hlen := h.len
  have hcnt := h.cnt
  have hphase := h.phase
  simp only [todo, undispatched, hpc, length_cons, count_cons] at hlen hcnt hphase
  obtain ⟨hexcluded, hfailing, hearly, hlate⟩ := h.while_forwarding cs
  refine ⟨⟨?_, ?_, h.nodup, h.num, ?_, h.ack, h.failed, hphase, hexcluded, hfailing, h.parked, h.flag,
    hearly, hlate, h.merge⟩, ?_⟩
  · simp only [todo, length_append, length_singleton]
    omega
  · intro d
    have := hcnt d
    simp only [todo, count_append, count_singleton]
    omega
  · exact fun hp => absurd hp (by simp)
  · exact h.done_of_same rfl rfl (fun _ => by simp [hpc]) rfl

theorem Inv.create_fail (hpc : n.pc = .forward (c :: cs)) (rc : ℤ) :
    ∃ n', { n with dropped := n.dropped ++ c :: cs, pc := .forward [] }.failChildRpc cfg
      (c :: cs).length rc = some n' ∧ Inv cfg n' := by
  have hlen := h.len
  have hcnt := h.cnt
  have hack := h.ack
  have hfailed := h.failed
  have hphase := h.phase
  have hlocal := h.local_le
  simp only [todo, undispatched, hpc, length_cons] at hlen hcnt hphase
  obtain ⟨hexcluded, hfailing, hearly, hlate⟩ := h.while_forwarding []
  refine ⟨_, failChildRpc_eq ?_, Counts.settle ⟨?_, ?_, h.nodup, h.num, ?_, h.ack, ?_, hphase,
    hexcluded, hfailing, h.parked, h.flag, hearly, hlate, h.merge⟩ ?_ ?_⟩
  · simp only [doneNum, waitNum, length_cons]
    omega
  · simp only [todo, length_append, length_cons, length_nil]
    omega
  · intro d
    have := hcnt d
    simp only [todo, count_append, count_nil]
    omega
  · exact fun hp => absurd hp (by simp)
  · simp only [length_append, length_cons]
    omega
  · refine h.completed_of_lt ?_
    simp only [doneNum, waitNum]
    omega
  · simp only [waitNum]
    omega

/-- At the end of the forwarding an excluded root without children
completes. -/
theorem Inv.forwardDone (hpc : n.pc = .forward []) :
    ∃ n', n.step cfg .forwardDone = some n' ∧ Inv cfg n' := by
  have hlen := h.len
  have hcnt := h.cnt
  obtain ⟨hreplied, hfail, hpending⟩ := h.no_local (by rw [undispatched, hpc])
  simp only [todo, hpc] at hlen hcnt
  refine ⟨_, rfl, ?_⟩
  have hcounts : Counts cfg { n with pc := if cfg.coRootExcluded then .finished else .dispatch } := by
    refine ⟨?_, ?_, h.nodup, h.num, ?_, h.ack, h.failed, ?_, ?_, ?_, h.parked, h.flag, ?_, ?_,
      h.merge⟩
    · cases cfg.coRootExcluded <;> exact hlen
    · cases cfg.coRootExcluded <;> exact hcnt
    · cases cfg.coRootExcluded <;> simp
    · simp only [hreplied, hfail, hpending, undispatched]
      cases cfg.coRootExcluded <;> rfl
    · intro hex
      simp [hex]
    · cases cfg.coRootExcluded <;> simp
    · intro hex hl _
      exact h.early hex hl (.inl hfail)
    · intro hd
      rw [hfail] at hd
      exact absurd hd Bool.false_ne_true
  by_cases hnoop : n.coChildNum = 0 ∧ cfg.coRootExcluded = true
  · simp only [if_pos hnoop]
    have hw : n.waitNum cfg = 0 := by rw [waitNum, hnoop.1, if_pos hnoop.2]
    have hopen : n.completed = [] := by
      have hdone := h.done
      rw [if_neg fun hc => absurd (hc.2 hw) (by simp [hpc])] at hdone
      exact length_eq_zero_iff.mp hdone
    refine hcounts.complete_inv hopen ⟨?_, fun _ => by simp [hnoop.2]⟩
    exact le_antisymm hcounts.doneNum_le (le_trans (Nat.le_of_eq hw) (Nat.zero_le _))
  · simp only [if_neg hnoop]
    refine ⟨hcounts, h.done_of_same rfl rfl (fun hw => absurd ?_ hnoop) rfl⟩
    rw [waitNum] at hw
    cases hex : cfg.coRootExcluded with
    | true => exact ⟨by omega, rfl⟩
    | false => simp [hex] at hw

theorem Inv.dispatch (hpc : n.pc = .dispatch) :
    Inv cfg { n with crpReplyPending := true, pc := .finished } := by
  have hlen := h.len
  have hcnt := h.cnt
  have hex : cfg.coRootExcluded = false :=
    Bool.not_eq_true _ ▸ fun hex => (h.excluded hex).1 hpc
  obtain ⟨hreplied, hfail, _⟩ := h.no_local (by rw [undispatched, hpc])
  simp only [todo, hpc] at hlen hcnt
  refine ⟨⟨hlen, hcnt, h.nodup, h.num, ?_, h.ack, h.failed, ?_, ?_, ?_, h.parked, h.flag, ?_, ?_,
    h.merge⟩, ?_⟩
  · exact fun hp => absurd hp (by simp)
  · simp [hreplied, hfail, undispatched, hex]
  · exact fun _ => ⟨by simp, by simp⟩
  · exact fun hp => absurd hp (by simp)
  · exact fun _ hl _ => h.early hex hl (.inl hfail)
  · intro hd
    rw [hfail] at hd
    exact absurd hd Bool.false_ne_true
  · refine h.done_of_same rfl rfl (fun hw => ?_) rfl
    simp [waitNum, hex] at hw

theorem Inv.dispatch_fail (hpc : n.pc = .dispatch) (rc : ℤ) :
    ∃ n', { n with dispatchFailed := true, pc := .localDone }.failChildRpc cfg 1 rc = some n' ∧
      Inv cfg n' := by
  have hlen := h.len
  have hcnt := h.cnt
  have hack := h.ack
  have hfailed := h.failed
  have hex : cfg.coRootExcluded = false :=
    Bool.not_eq_true _ ▸ fun hex => (h.excluded hex).1 hpc
  obtain ⟨hreplied, hfail, hpending⟩ := h.no_local (by rw [undispatched, hpc])
  simp only [todo, hpc] at hlen hcnt
  rw [hreplied, Bool.toNat_false] at hack
  rw [hfail, Bool.toNat_false] at hfailed
  refine ⟨_, failChildRpc_eq ?_, Counts.settle ⟨hlen, hcnt, h.nodup, h.num, ?_, h.ack, ?_, ?_, ?_,
    fun _ => rfl, h.parked, h.flag, ?_, ?_, h.merge⟩ ?_ ?_⟩
  · simp only [doneNum, waitNum, hex]
    simp only [length_nil] at hlen
    simpa using by omega
  · exact fun hp => absurd hp (by simp)
  · simp only [Bool.toNat_true]
    omega
  · simp [hreplied, hpending, undispatched, hex]
  · intro he
    rw [hex] at he
    exact absurd he Bool.false_ne_true
  · exact fun _ hl _ => h.early hex hl (.inl hfail)
  · exact fun _ hp => absurd hp (by simp)
  · refine h.completed_of_lt ?_
    simp only [doneNum, waitNum, hex]
    simp only [length_nil] at hlen
    simpa using by omega
  · simp [waitNum, hex]

theorem Inv.localDone (hpc : n.pc = .localDone) :
    Inv cfg { n with coLocalDone := true, crpReplyPending := false, pc := .finished } := by
  have hlen := h.len
  have hcnt := h.cnt
  have hphase := h.phase
  have hfail := h.failing hpc
  have hex : cfg.coRootExcluded = false :=
    Bool.not_eq_true _ ▸ fun hex => (h.excluded hex).2 hpc
  simp only [todo, undispatched, hpc, hex, hfail] at hlen hcnt hphase
  refine ⟨⟨hlen, hcnt, h.nodup, h.num, ?_, h.ack, h.failed, ?_, ?_, ?_, h.parked, fun _ _ => rfl, ?_,
    fun _ _ => rfl, h.merge⟩, ?_⟩
  · exact fun hp => absurd hp (by simp)
  · simp only [undispatched, hex, hfail, Bool.toNat_true, Bool.toNat_false] at hphase ⊢
    simp only [Bool.false_eq_true, if_false] at hphase ⊢
    omega
  · exact fun _ => ⟨by simp, by simp⟩
  · exact fun _ => hfail
  · rintro _ _ (hd | hd)
    · rw [hfail] at hd
      exact absurd hd Bool.false_ne_true.symm
    · exact absurd hd (by simp)
  · refine h.done_of_same rfl rfl (fun hw => ?_) rfl
    simp [waitNum, hex] at hw

end

/-! ### Replies -/

theorem count_move (handled : List ι) {rpcs : List ι} (hc : c ∈ rpcs) (d : ι) :
    (rpcs.erase c).count d + (handled ++ [c]).count d = rpcs.count d + handled.count d := by
  have hpos := count_pos_iff.mpr hc
  rw [count_append, count_singleton]
  by_cases hd : c = d
  · subst hd
    rw [count_erase_self, if_pos (by simp)]
    omega
  · rw [count_erase_of_ne (fun e => hd e.symm), if_neg (by simpa using hd)]
    omega

/-- A child that has replied is counted where it is now. -/
theorem Counts.reply_moved (h : Counts cfg n) (hc : c ∈ n.coChildRpcs) :
    n.todo.length + (n.coChildRpcs.erase c).length + (n.handled ++ [c]).length +
      n.dropped.length = n.coChildNum ∧
    ∀ d, n.todo.count d + (n.coChildRpcs.erase c).count d + (n.handled ++ [c]).count d +
      n.dropped.count d = n.children.count d := by
  constructor
  · have hlen := h.len
    have hpos := length_pos_of_mem hc
    rw [length_erase_of_mem hc, length_append, length_singleton]
    omega
  · intro d
    have hd := h.cnt d
    have hm := count_move n.handled hc d
    omega

section

variable (h : Inv cfg n)

include h

/-- A state in which everything is counted that an open one has led to. -/
theorem Inv.aggregates (hlt : n.doneNum < n.waitNum cfg) {m : CorpcNode ι}
    (hm : Counts cfg m) (hcompleted : m.completed = n.completed)
    (hwait : m.waitNum cfg = n.waitNum cfg) : ∃ n', m.aggregateDone cfg = some n' ∧ Inv cfg n' :=
  ⟨_, aggregateDone_eq hm.doneNum_le,
    hm.settle (hcompleted.trans (h.completed_of_lt hlt)) (by omega)⟩

/-- The reply of a child, which is acknowledged or parked. -/
theorem Inv.replied (hc : c ∈ n.coChildRpcs) (coRc cchRc : ℤ)
    {merged : List (MergeOp × ι)} {parked : List ι} {ack : ℕ}
    (hack : ack + parked.length = n.coChildAckNum + n.coRepliedRpcs.length + 1)
    (hparked : parked ≠ [] →
      cfg.coOps = true ∧ cfg.coRootExcluded = false ∧ n.localReplied = false)
    (hmerge : ∀ d, (merged.map Prod.snd).count d + parked.count d ≤
      (n.merged.map Prod.snd).count d + n.coRepliedRpcs.count d + [c].count d) :
    ∃ n', { n with
        coLocalDone := n.coLocalDone || cfg.coRootExcluded
        coRc := coRc
        cchRc := cchRc
        handled := n.handled ++ [c]
        merged := merged
        coChildAckNum := ack
        coChildRpcs := n.coChildRpcs.erase c
        coRepliedRpcs := parked }.aggregateDone cfg = some n' ∧ Inv cfg n' := by
  have hacked := h.ack
  obtain ⟨hmovedLen, hmovedCnt⟩ := h.reply_moved hc
  refine h.aggregates (h.doneNum_lt_of_mem hc) ⟨hmovedLen, hmovedCnt, h.nodup, h.num, h.fresh, ?_,
    h.failed, h.phase, h.excluded, h.failing, hparked, ?_, ?_, ?_, ?_⟩ rfl rfl
  · simp only [length_append, length_singleton]
    omega
  · intro hops hl
    simp [h.flag hops hl]
  · intro hex hl hd
    simp [h.early hex hl hd, hex]
  · intro hd hp
    simp [h.late hd hp]
  · intro d
    have h1 := h.merge d
    have h2 := hmerge d
    simp only [count_append]
    omega

/-- **The reply of a child** keeps the counting, and no assertion fails. -/
theorem Inv.childReply (hc : c ∈ n.coChildRpcs) (cciRc cchRc : ℤ) :
    ∃ n', n.childReplyHdlr cfg c cciRc cchRc = some n' ∧ Inv cfg n' := by
  have hlt := h.doneNum_lt_of_mem hc
  rw [childReplyHdlr, recordReply_eq]
  by_cases hops : cfg.coOps = false
  · rw [if_pos hops]
    exact h.replied hc _ _ (add_right_comm _ _ _) h.parked fun d => Nat.le_add_right _ _
  · rw [if_neg hops]
    by_cases hdone : (n.coLocalDone || cfg.coRootExcluded) = true
    · rw [if_pos hdone]
      refine h.replied hc _ _ (add_right_comm _ _ _) h.parked fun d => ?_
      rw [map_append, count_append, add_right_comm]
      exact le_rfl
    · have hwait : n.coChildAckNum < n.coChildNum + if cfg.coRootExcluded then 0 else 1 := by
        rw [doneNum, waitNum] at hlt
        omega
      rw [if_neg hdone, waitNum, if_pos hwait]
      rw [Bool.not_eq_true, Bool.or_eq_false_iff] at hdone
      have hops' : cfg.coOps = true := by simpa using hops
      -- the local handler has not replied, or the flag would be set
      have hreplied : n.localReplied = false := by
        by_contra hl
        rw [h.flag hops' (by simpa using hl)] at hdone
        exact absurd hdone.1.symm Bool.false_ne_true
      refine h.replied hc _ _ ?_ (fun _ => ⟨hops', hdone.2, hreplied⟩) fun d => ?_
      · rw [length_append, length_singleton, add_assoc]
      · rw [count_append, add_assoc]

/-- **The local reply** counts itself and all parked replies, and no assertion
fails. -/
theorem Inv.localReply (hpending : n.crpReplyPending = true) :
    ∃ n', n.localReplyHdlr cfg = some n' ∧ Inv cfg n' := by
  have hphase := h.phase
  rw [hpending, Bool.toNat_true] at hphase
  have hex : cfg.coRootExcluded = false := by
    by_contra hex
    rw [if_pos (by simpa using hex)] at hphase
    omega
  simp only [hex, Bool.false_eq_true, if_false] at hphase
  have hreplied : n.localReplied = false := by
    rw [← Bool.toNat_eq_zero]
    omega
  have hfail : n.dispatchFailed = false := by
    rw [← Bool.toNat_eq_zero]
    omega
  have hlen := h.len
  have hack := h.ack
  have hfailed := h.failed
  rw [hreplied, Bool.toNat_false] at hack
  rw [hfail, Bool.toNat_false] at hfailed
  have hlt : n.doneNum < n.waitNum cfg := by
    simp only [doneNum, waitNum, hex, Bool.false_eq_true, if_false]
    omega
  -- what both branches do, up to where the parked replies go
  have hcounts : ∀ {coRc cchRc : ℤ} {localDone : Bool} {merged : List (MergeOp × ι)} {ack : ℕ},
      (cfg.coOps = true → localDone = true) → ack = n.coChildAckNum + n.coRepliedRpcs.length + 1 →
      (∀ d, (merged.map Prod.snd).count d ≤
        (n.merged.map Prod.snd).count d + n.coRepliedRpcs.count d) →
      Counts cfg { n with
        coLocalDone := localDone
        coRc := coRc
        cchRc := cchRc
        localReplied := true
        crpReplyPending := false
        merged := merged
        coChildAckNum := ack
        coRepliedRpcs := [] } := by
    intro coRc cchRc localDone merged ack hdone hacks hmerged
    refine ⟨h.len, h.cnt, h.nodup, h.num, h.fresh, ?_, h.failed, ?_, h.excluded, h.failing, ?_,
      fun hops _ => hdone hops, ?_, ?_, ?_⟩
    · simp only [length_nil, Bool.toNat_true]
      omega
    · simp only [hfail, hex, Bool.toNat_true, Bool.toNat_false, Bool.false_eq_true, if_false]
      show 1 + 0 + 0 + n.undispatched = 1
      omega
    · exact fun hp => absurd rfl hp
    · exact fun _ hl => absurd hl (by simp)
    · intro hd
      rw [hfail] at hd
      exact absurd hd Bool.false_ne_true
    · intro d
      have h1 := h.merge d
      have h2 := hmerged d
      simp only [count_nil]
      omega
  rw [localReplyHdlr, if_neg (by simp [hex]), recordReply_eq]
  by_cases hops : cfg.coOps = false
  · have hparked : n.coRepliedRpcs = [] := by
      by_contra hp
      rw [(h.parked hp).1] at hops
      exact absurd hops.symm Bool.false_ne_true
    rw [if_pos hops]
    refine h.aggregates hlt ?_ rfl rfl
    simp only [hparked]
    refine hcounts (fun ht => absurd (hops.symm.trans ht) Bool.false_ne_true) ?_ fun d => ?_
    · rw [hparked, length_nil, add_zero]
    · exact Nat.le_add_right _ _
  · rw [if_neg hops, aggregateReplied_eq]
    refine h.aggregates hlt (hcounts (fun _ => rfl) rfl fun d => ?_) rfl rfl
    rw [map_append, count_append, List.map_map]
    have hid : n.coRepliedRpcs.map (Prod.snd ∘ fun c => (MergeOp.aggregate, c)) =
        n.coRepliedRpcs := List.map_id' _
    rw [hid]

/-! ### All steps -/

/-- **One step keeps the invariant**, and no assertion fails. -/
theorem Inv.step (henabled : n.Enabled e) : ∃ n', n.step cfg e = some n' ∧ Inv cfg n' := by
  cases e with
  | start outcome =>
    cases outcome with
    | fail rc => exact ⟨_, rfl, h.start_fail henabled.1 rc⟩
    | children l => exact ⟨_, rfl, h.start_children henabled.1 henabled.2⟩
  | create rc =>
    obtain ⟨c, cs, hpc⟩ := henabled
    simp only [CorpcNode.step, hpc]
    split_ifs with hrc
    · exact ⟨_, rfl, h.create hpc⟩
    · exact h.create_fail hpc rc
  | forwardDone => exact h.forwardDone henabled
  | dispatch rc =>
    rw [CorpcNode.step]
    split_ifs with hrc
    · exact ⟨_, rfl, h.dispatch henabled⟩
    · exact h.dispatch_fail henabled rc
  | localDone => exact ⟨_, rfl, h.localDone henabled⟩
  | childReply c cciRc cchRc => exact h.childReply henabled cciRc cchRc
  | localReply => exact h.localReply henabled

end

theorem inv_invariant (cfg : CorpcCfg) : (corpcLts cfg ι).Invariant (Inv cfg) where
  init := by
    rintro n rfl
    exact init_inv
  step := by
    intro n e n' h henabled hstep
    obtain ⟨m, hm, hinv⟩ := h.step henabled
    obtain rfl : m = n' := Option.some.inj (hm.symm.trans hstep)
    exact hinv

/-- A step changes `cch_rc` and the completions beyond what `next` says, and
nothing else. -/
theorem step_fields (h : n.step cfg e = some n') :
    ∃ rc cs, n' = { n.next cfg e with cchRc := rc, completed := cs } := by
  rcases step_next h with rfl | rfl
  · exact ⟨_, _, rfl⟩
  · exact ⟨_, _, complete_eq cfg _⟩

/-- Only a failing dispatch sets the flag, and only replies of children are handled. -/
theorem next_frame (e : CorpcEvent ι) : (n.next cfg e).completed = n.completed ∧
    ((∀ rc, e = .dispatch rc → rc = 0) → (n.next cfg e).dispatchFailed = n.dispatchFailed) ∧
    ((∀ c cciRc cchRc, e ≠ .childReply c cciRc cchRc) → (n.next cfg e).handled = n.handled) := by
  cases e with
  | start outcome => cases outcome <;> exact ⟨rfl, fun _ => rfl, fun _ => rfl⟩
  | create rc =>
    obtain ⟨_, _, _, _, _, _, heq⟩ := next_create_eq cfg n rc
    rw [heq]
    exact ⟨rfl, fun _ => rfl, fun _ => rfl⟩
  | forwardDone | localDone | localReply => exact ⟨rfl, fun _ => rfl, fun _ => rfl⟩
  | dispatch rc =>
    rw [next_dispatch_eq]
    refine ⟨rfl, fun he => ?_, fun _ => rfl⟩
    rw [he rc rfl]
    exact Bool.or_false _
  | childReply c cciRc cchRc =>
    obtain ⟨_, _, _, heq⟩ := next_childReply_eq cfg n c cciRc cchRc
    rw [heq, noteReply]
    exact ⟨rfl, fun _ => rfl, fun hc => absurd rfl (hc c cciRc cchRc)⟩

theorem next_completed (e : CorpcEvent ι) : (n.next cfg e).completed = n.completed := (next_frame e).1

/-! ### Termination -/

/-- The steps that are certain to be left, once the children are known. -/
def work (n : CorpcNode ι) : ℕ :=
  2 * n.todo.length + n.coChildRpcs.length + n.crpReplyPending.toNat +
    match n.pc with
    | .start => 0
    | .forward _ => 4
    | .dispatch => 3
    | .localDone => 1
    | .finished => 0

/-- Before the children are known, their number is not bounded. -/
def measure (n : CorpcNode ι) : ℕ ×ₗ ℕ := toLex (if n.pc = .start then 1 else 0, n.work)

theorem measure_lt_of_start (hpc : n.pc = .start) (hpc' : n'.pc ≠ .start) :
    n'.measure < n.measure := by
  rw [measure, measure, Prod.Lex.toLex_lt_toLex, if_pos hpc, if_neg hpc']
  exact .inl one_pos

theorem measure_lt_of_work (hpc : n'.pc = .start ↔ n.pc = .start)
    (hwork : n'.work < n.work) : n'.measure < n.measure := by
  rw [measure, measure, Prod.Lex.toLex_lt_toLex]
  exact .inr ⟨by simp only [hpc], hwork⟩

theorem measure_lt (henabled : n.Enabled e)
    (h : n.step cfg e = some n') : n'.measure < n.measure := by
  obtain ⟨rc, cs, rfl⟩ := step_fields h
  cases e with
  | start outcome =>
    cases outcome with
    | fail rc | children l => exact measure_lt_of_start henabled.1 (by simp [next])
  | create rc =>
    obtain ⟨c, cs, hpc⟩ := henabled
    simp only [next, hpc]
    split
    · refine measure_lt_of_work (by simp [hpc]) ?_
      simp only [work, todo, hpc, length_append, length_cons, length_nil]
      omega
    · refine measure_lt_of_work (by simp [hpc]) ?_
      simp only [work, todo, hpc, length_cons, length_nil]
      omega
  | forwardDone =>
    have hpc : n.pc = .forward [] := henabled
    simp only [next]
    split
    · refine measure_lt_of_work (by simp [hpc]) ?_
      simp only [work, todo, hpc]
      omega
    · refine measure_lt_of_work (by simp [hpc]) ?_
      simp only [work, todo, hpc]
      omega
  | dispatch rc =>
    have hpc : n.pc = .dispatch := henabled
    simp only [next]
    split
    · refine measure_lt_of_work (by simp [hpc]) ?_
      simp only [work, todo, hpc, Bool.toNat_true]
      omega
    · refine measure_lt_of_work (by simp [hpc]) ?_
      simp only [work, todo, hpc]
      omega
  | localDone =>
    have hpc : n.pc = .localDone := henabled
    refine measure_lt_of_work (by simp [next, hpc]) ?_
    simp only [work, todo, next, hpc, Bool.toNat_false]
    omega
  | childReply c cciRc cchRc =>
    have hc : c ∈ n.coChildRpcs := henabled
    have hpos := length_pos_of_mem hc
    obtain ⟨_, _, _, heq⟩ := next_childReply_eq cfg n c cciRc cchRc
    rw [heq]
    refine measure_lt_of_work Iff.rfl ?_
    simp only [work, todo, noteReply, length_erase_of_mem hc]
    omega
  | localReply =>
    have hpending : n.crpReplyPending = true := henabled
    refine measure_lt_of_work Iff.rfl ?_
    simp only [work, todo, next, hpending, Bool.toNat_true, Bool.toNat_false]
    omega

/-! ### Completion after a successful dispatch -/

/-- Every child has called back or could not be created, and the local handler has replied
unless the root is excluded. -/
def Accounted (cfg : CorpcCfg) (n : CorpcNode ι) : Prop :=
  (∀ c ∈ n.children, c ∈ n.handled ∨ c ∈ n.dropped) ∧
    (cfg.coRootExcluded = true ∨ n.localReplied = true) ∧
    (n.children = [] → cfg.coRootExcluded = true → n.pc = .finished)

/-- All children are accounted for exactly if none is left to be created or
outstanding. -/
theorem Counts.forall_children_iff (h : Counts cfg n) :
    (∀ c ∈ n.children, c ∈ n.handled ∨ c ∈ n.dropped) ↔
      n.todo = [] ∧ n.coChildRpcs = [] := by
  constructor
  · intro hall
    have hnone : ∀ c, n.todo.count c = 0 ∧ n.coChildRpcs.count c = 0 := by
      intro c
      have hcnt := h.cnt c
      have hone := nodup_iff_count_le_one.mp h.nodup c
      by_cases hc : c ∈ n.children
      · rcases hall c hc with hc' | hc'
        · have := count_pos_iff.mpr hc'
          omega
        · have := count_pos_iff.mpr hc'
          omega
      · rw [count_eq_zero_of_not_mem hc] at hcnt
        omega
    constructor
    · exact eq_nil_iff_forall_not_mem.mpr fun c hc =>
        absurd (hnone c).1 (count_pos_iff.mpr hc).ne'
    · exact eq_nil_iff_forall_not_mem.mpr fun c hc =>
        absurd (hnone c).2 (count_pos_iff.mpr hc).ne'
  · rintro ⟨htodo, hrpcs⟩ c hc
    have hcnt := h.cnt c
    have hpos := count_pos_iff.mpr hc
    rw [htodo, hrpcs, count_nil] at hcnt
    by_cases hh : c ∈ n.handled
    · exact .inl hh
    · rw [count_eq_zero_of_not_mem hh] at hcnt
      exact .inr (count_pos_iff.mp (by omega))

/-- Unless the dispatch failed, the counters meet when everybody is accounted
for. -/
theorem Counts.counted_iff (h : Counts cfg n) (hfail : n.dispatchFailed = false) :
    Counted cfg n ↔ Accounted cfg n := by
  have hlen := h.len
  have hack := h.ack
  have hfailed := h.failed
  have hlocal := h.local_le
  rw [hfail, Bool.toNat_false] at hfailed
  -- parked replies wait for the local one
  have hparked : n.localReplied = true ∨ cfg.coRootExcluded = true → n.coRepliedRpcs = [] := by
    intro hor
    by_contra hp
    obtain ⟨_, hex, hl⟩ := h.parked hp
    rw [hl, hex] at hor
    simp at hor
  rw [Counted, Accounted, h.forall_children_iff, ← length_eq_zero_iff,
    ← length_eq_zero_iff (l := n.coChildRpcs), doneNum, waitNum]
  by_cases hex : cfg.coRootExcluded = true
  · have hnil := hparked (.inr hex)
    rw [if_pos hex] at hlocal
    have hl : n.localReplied.toNat = 0 := by omega
    have hnum : n.children = [] ↔ n.coChildNum = 0 := by
      rw [← h.num, length_eq_zero_iff]
    rw [hnil, hl, length_nil] at hack
    simp only [hex, if_true, add_zero, hnum, true_or, true_and, forall_const]
    exact and_congr_left fun _ => by omega
  · rw [Bool.not_eq_true] at hex
    simp only [hex, Bool.false_eq_true, if_false, Nat.add_eq_zero_iff, one_ne_zero, and_false,
      false_imp_iff, and_true, false_or, imp_true_iff] at hlocal ⊢
    by_cases hl : n.localReplied = true
    · have hnil := hparked (.inl hl)
      rw [hnil, hl, length_nil, Bool.toNat_true] at hack
      simp only [hl, and_true]
      omega
    · rw [Bool.not_eq_true] at hl
      rw [hl, Bool.toNat_false] at hack
      simp only [hl, Bool.false_eq_true, and_false, iff_false]
      omega

theorem Counts.nodup_merged (h : Counts cfg n) : (n.merged.map Prod.snd).Nodup := by
  rw [nodup_iff_count_le_one]
  intro c
  have hmerge := h.merge c
  have hcnt := h.cnt c
  have hone := nodup_iff_count_le_one.mp h.nodup c
  omega

omit [DecidableEq ι] in
/-- When nothing is left to happen, the main thread is through and nobody is
outstanding. -/
theorem finished_of_terminal (hno : ∀ e, (∀ rc, e ≠ .dispatch rc) → ¬ n.Enabled e)
    (hdispatch : n.pc ≠ .dispatch) :
    n.pc = .finished ∧ n.coChildRpcs = [] ∧ n.crpReplyPending = false := by
  refine ⟨?_, ?_, ?_⟩
  · cases hpc : n.pc with
    | start => exact absurd ⟨hpc, nodup_nil⟩ (hno (.start (.children [])) (by simp))
    | forward l =>
      cases l with
      | nil => exact absurd hpc (hno .forwardDone (by simp))
      | cons c cs => exact absurd ⟨c, cs, hpc⟩ (hno (.create 0) (by simp))
    | dispatch => exact absurd hpc hdispatch
    | localDone => exact absurd hpc (hno .localDone (by simp))
    | finished => rfl
  · exact eq_nil_iff_forall_not_mem.mpr fun c hc =>
      hno (.childReply c 0 0) (by simp) hc
  · rw [← Bool.not_eq_true]
    exact hno .localReply (by simp)

omit [DecidableEq ι] in
theorem not_enabled_of_finished
    (hend : n.pc = .finished ∧ n.coChildRpcs = [] ∧ n.crpReplyPending = false)
    (e : CorpcEvent ι) : ¬ n.Enabled e := by
  obtain ⟨hpc, hrpcs, hpending⟩ := hend
  intro henabled
  cases e with
  | start outcome => cases outcome <;> cases hpc.symm.trans henabled.1
  | create rc =>
    obtain ⟨c, cs, h⟩ := henabled
    cases hpc.symm.trans h
  | forwardDone | dispatch rc | localDone => cases hpc.symm.trans henabled
  | childReply c cciRc cchRc =>
    have hc : c ∈ n.coChildRpcs := henabled
    rw [hrpcs] at hc
    exact not_mem_nil hc
  | localReply => exact Bool.false_ne_true (hpending.symm.trans henabled)

end CorpcNode

/-- The runs in which the local dispatch succeeds. -/
def dispatchedLts (cfg : CorpcCfg) (ι : Type) [DecidableEq ι] :
    Lts (CorpcNode ι) (CorpcEvent ι) :=
  (corpcLts cfg ι).restrict fun _ e => ∀ rc, e = .dispatch rc → rc = 0

open CorpcNode in
/-- **A node of a collective completes exactly once**, whatever the order of the replies and
wherever the forwarding fails. -/
theorem corpc_completes_once (cfg : CorpcCfg) (ι : Type) [DecidableEq ι] :
    (dispatchedLts cfg ι).Safe ∧ (dispatchedLts cfg ι).Terminates ∧
    ∀ n, (dispatchedLts cfg ι).Reach n →
      (Accounted cfg n → n.completed.length = 1) ∧
      (¬ Accounted cfg n → n.completed = []) ∧
      ((dispatchedLts cfg ι).Terminal n → Accounted cfg n) ∧
      (n.merged.map Prod.snd).Nodup := by
  have hinv : (dispatchedLts cfg ι).Invariant fun n => Inv cfg n ∧ n.dispatchFailed = false := by
    constructor
    · rintro n rfl
      exact ⟨init_inv, rfl⟩
    · intro n e n' h henabled hstep
      refine ⟨(inv_invariant cfg).step n e n' h.1 henabled.1 hstep, ?_⟩
      obtain ⟨rc, cs, rfl⟩ := step_fields hstep
      exact ((next_frame _).2.1 henabled.2).trans h.2
  refine ⟨?_, ?_, ?_⟩
  · refine hinv.safe fun n e h henabled => ?_
    obtain ⟨n', hn', _⟩ := h.1.step henabled.1
    exact ⟨n', hn'⟩
  · exact Lts.terminates_of_measure measure fun n e n' henabled hstep =>
      measure_lt henabled.1 hstep
  · intro n hreach
    obtain ⟨h, hfail⟩ := hinv.reach hreach
    have hiff := h.counted_iff hfail
    have hdone := h.done
    refine ⟨fun ha => ?_, fun ha => ?_, fun hterm => ?_, h.nodup_merged⟩
    · rwa [if_pos (hiff.mpr ha)] at hdone
    · rw [if_neg fun hc => ha (hiff.mp hc)] at hdone
      exact length_eq_zero_iff.mp hdone
    · -- nobody is outstanding, and the handler has had its turn
      obtain ⟨hpc, hrpcs, hpending⟩ := finished_of_terminal (n := n)
        (fun e he henabled => hterm e ⟨henabled, fun rc hrc => absurd hrc (he rc)⟩)
        (fun hpc => hterm (.dispatch 0) ⟨hpc, fun rc hrc => by cases hrc; rfl⟩)
      refine ⟨h.forall_children_iff.mpr ⟨by rw [todo, hpc], hrpcs⟩, ?_, fun _ _ => hpc⟩
      have hphase := h.phase
      rw [hfail, hpending, undispatched, hpc] at hphase
      by_cases hex : cfg.coRootExcluded = true
      · exact Or.inl hex
      · rw [if_neg hex] at hphase
        right
        rw [← Bool.toNat_eq_one]
        simpa using hphase

end Cart
