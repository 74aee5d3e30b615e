/-
The ring of SWIM targets (`crt_swim.c`).

Both selections go round the ring from `csm_target`, which they move to the element they
return; from an element on, the others come in the order `ringFrom`.  Since they move the same
`csm_target`, indirect pings make direct pings skip members.

Main results: `swim_ring_invariants`, `round_robin_direct`, `round_robin_skips`.
-/
import Cart.SwimAdapter

open List Option

namespace Cart

variable {t : ℕ} {ring : List ℕ}

/-! ### Going round the ring -/

/-- The elements of the ring from the one after `target` on, which comes last. -/
def ringFrom (ring : List ℕ) (target : ℕ) : List ℕ :=
  (ring.dropWhile fun x => x ≠ target).tail ++ (ring.takeWhile fun x => x ≠ target) ++ [target]

theorem dropWhile_split {a b : List ℕ} (ha : t ∉ a) :
    (a ++ t :: b).dropWhile (fun x => x ≠ t) = t :: b := by
  rw [dropWhile_append_of_pos]
  · simp
  · intro x hx
    simpa using ne_of_mem_of_not_mem hx ha

theorem ringFrom_split {a b : List ℕ} (ha : t ∉ a) : ringFrom (a ++ t :: b) t = b ++ a ++ [t] := by
  have htake : (a ++ t :: b).takeWhile (fun x => x ≠ t) = a := by
    rw [takeWhile_append_of_pos]
    · simp
    · intro x hx
      simpa using ne_of_mem_of_not_mem hx ha
  rw [ringFrom, dropWhile_split ha, htake, tail_cons]

theorem ringFrom_perm (ht : t ∈ ring) : (ringFrom ring t).Perm ring := by
  obtain ⟨a, b, rfl, ha⟩ := eq_append_cons_of_mem ht
  rw [ringFrom_split ha]
  exact perm_append_singleton t _ |>.trans
    ((perm_append_comm.cons t).trans perm_middle.symm)

section

variable (hnodup : ring.Nodup) (ht : t ∈ ring)

include hnodup ht

/-- One step round the ring. -/
theorem ringFrom_next : ∃ rest, ringFrom ring t = loopNext ring t :: rest ∧
      ringFrom ring (loopNext ring t) = rest ++ [loopNext ring t] := by
  obtain ⟨a, b, rfl, ha⟩ := eq_append_cons_of_mem ht
  rw [ringFrom_split ha, loopNext, dropWhile_split ha]
  cases b with
  | cons y b =>
    have hy : y ∉ a ++ [t] := by
      rw [← singleton_append, ← append_assoc] at hnodup
      exact fun hmem => disjoint_of_nodup_append hnodup hmem mem_cons_self
    refine ⟨b ++ a ++ [t], rfl, ?_⟩
    have hsplit := ringFrom_split (b := b) hy
    rw [append_assoc, singleton_append] at hsplit
    rw [hsplit]
    simp
  | nil =>
    cases a with
    | nil => exact ⟨[], rfl, ringFrom_split (b := []) ha⟩
    | cons y a =>
      refine ⟨a ++ [t], rfl, ?_⟩
      have hsplit := ringFrom_split (a := []) (b := a ++ [t]) (t := y) not_mem_nil
      rw [append_nil] at hsplit
      exact hsplit

theorem loopNext_mem : loopNext ring t ∈ ring := by
  obtain ⟨rest, hrest, -⟩ := ringFrom_next hnodup ht
  rw [← (ringFrom_perm ht).mem_iff, hrest]
  exact mem_cons_self

/-- An element that comes after itself is the only one. -/
theorem erase_eq_nil_of_loopNext (hsame : loopNext ring t = t) : ring.erase t = [] := by
  obtain ⟨rest, hrest, hfrom⟩ := ringFrom_next hnodup ht
  have hperm := ringFrom_perm ht
  rw [hsame] at hrest hfrom
  rw [hrest] at hperm hfrom
  cases rest with
  | nil => simpa using (hperm.erase t).symm
  | cons y rest =>
    have hy := (cons.inj hfrom).1
    have hnotin := (nodup_cons.mp (hperm.nodup_iff.mpr hnodup)).1
    exact absurd (hy ▸ mem_cons_self) hnotin

end

/-- The loop of both functions: the elements after `target` up to the first that is
accepted. -/
def searchLoop (ring : List ℕ) (accept : ℕ → Bool) : ℕ → ℕ → ℕ × ℕ
  | 0, target => (swimIdInvalid, target)
  | n + 1, target =>
    if accept (loopNext ring target) then (loopNext ring target, loopNext ring target)
    else searchLoop ring accept n (loopNext ring target)

section Search

variable {accept : ℕ → Bool} {t c n : ℕ}

section

variable (hnodup : ring.Nodup)

include hnodup

theorem searchLoop_mem (ht : t ∈ ring) : (searchLoop ring accept n t).2 ∈ ring := by
  induction n generalizing t with
  | zero => exact ht
  | succ n ih =>
    rw [searchLoop]
    split
    · exact loopNext_mem hnodup ht
    · exact ih (loopNext_mem hnodup ht)

theorem searchLoop_none (ht : t ∈ ring) (hno : ∀ x ∈ ring, accept x = false) :
    (searchLoop ring accept n t).1 = swimIdInvalid := by
  induction n generalizing t with
  | zero => rfl
  | succ n ih =>
    have hmem := loopNext_mem hnodup ht
    rw [searchLoop, if_neg (by rw [hno _ hmem]; exact Bool.false_ne_true)]
    exact ih hmem

/-- The search stops at the first candidate, from which the others come first. -/
theorem searchLoop_some (hc : accept c = true) {pre post : List ℕ} (ht : t ∈ ring)
    (hring : ringFrom ring t = pre ++ c :: post) (hpre : ∀ x ∈ pre, accept x = false)
    (hlen : pre.length < n) :
    searchLoop ring accept n t = (c, c) ∧ ringFrom ring c = post ++ pre ++ [c] := by
  induction pre generalizing t post n with
  | nil =>
    obtain ⟨rest, hrest, hfrom⟩ := ringFrom_next hnodup ht
    obtain ⟨hnext, rfl⟩ := cons.inj (hrest.symm.trans hring)
    obtain ⟨n, rfl⟩ := Nat.exists_eq_succ_of_ne_zero hlen.ne'
    rw [hnext] at hfrom
    rw [searchLoop, hnext, if_pos hc, hfrom, append_nil]
    exact ⟨rfl, rfl⟩
  | cons y pre ih =>
    obtain ⟨rest, hrest, hfrom⟩ := ringFrom_next hnodup ht
    obtain ⟨hnext, rfl⟩ := cons.inj (hrest.symm.trans hring)
    rw [length_cons] at hlen
    obtain ⟨n, rfl⟩ := Nat.exists_eq_succ_of_ne_zero (Nat.ne_zero_of_lt hlen)
    have hmem := loopNext_mem hnodup ht
    have hy : accept (loopNext ring t) = false := hnext ▸ hpre y mem_cons_self
    rw [searchLoop, if_neg (by rw [hy]; exact Bool.false_ne_true)]
    have hnextFrom : ringFrom ring (loopNext ring t) = pre ++ c :: (post ++ [loopNext ring t]) := by
      rw [hfrom]
      simp
    have h := ih (n := n) hmem hnextFrom (fun x hx => hpre x (mem_cons_of_mem _ hx)) (by omega)
    refine ⟨h.1, h.2.trans ?_⟩
    rw [hnext]
    simp

theorem searchLoop_eq_find? (ht : t ∈ ring) (hlen : ring.length ≤ n) :
    (searchLoop ring accept n t).1 = ((ringFrom ring t).find? accept).getD swimIdInvalid := by
  cases hfind : (ringFrom ring t).find? accept with
  | none =>
    refine searchLoop_none hnodup ht fun x hx => ?_
    simpa using find?_eq_none.mp hfind x ((ringFrom_perm ht).mem_iff.mpr hx)
  | some c =>
    obtain ⟨hc, pre, post, hring, hpre⟩ := find?_eq_some_iff_append.mp hfind
    have hlength := (ringFrom_perm ht).length_eq
    rw [hring, length_append, length_cons] at hlength
    rw [(searchLoop_some hnodup hc ht hring (by simpa using hpre) (by omega)).1, getD_some]

end

end Search

namespace CrtSwimMembs

/-- Neither self nor `DEAD`. -/
def dpingCandidate (m : CrtSwimMembs) (id : ℕ) : Bool :=
  ¬ (id = m.csmCtx.ctx.scSelf ∨
    (m.csmCtx.ctx.members id).any fun state => state.smsStatus = .dead)

/-- `ALIVE`, and not self. -/
def ipingCandidate (m : CrtSwimMembs) (id : ℕ) : Bool :=
  ¬ (id = m.csmCtx.ctx.scSelf ∨
    ¬ (m.csmCtx.ctx.members id).any fun state => state.smsStatus = .alive)

/-- Both selections; they assert that there is a target. -/
def selectTarget (m : CrtSwimMembs) (candidate : ℕ → Bool) (gpSize : ℕ) : Option (ℕ × CrtSwimMembs) :=
  m.csmTarget.map fun target =>
    let (id, target) := searchLoop m.csmHead candidate (gpSize + 1) target
    (id, { m with csmTarget := some target })

def crtSwimGetDpingTarget (m : CrtSwimMembs) : ℕ → Option (ℕ × CrtSwimMembs) :=
  m.selectTarget m.dpingCandidate

def crtSwimGetIpingTarget (m : CrtSwimMembs) : ℕ → Option (ℕ × CrtSwimMembs) :=
  m.selectTarget m.ipingCandidate

/-! ### Runs -/

/-- The ids in the ring are different ranks, and the target is one of them. -/
structure RingOk (m : CrtSwimMembs) : Prop where
  nodup : m.csmHead.Nodup
  null : m.csmTarget = none ↔ m.csmHead = []
  mem : ∀ target, m.csmTarget = some target → target ∈ m.csmHead
  ranks : ∀ id ∈ m.csmHead, id < 2 ^ 32

/-- What happens to the ring: the calls, and anything that the engine does to its context. -/
inductive RingEvent where
  | rankAdd (env : RankAddEnv) (rank : ℕ) (hrank : rank < 2 ^ 32)
  | rankDel (rank : ℕ)
  | rankDelAll
  | dping (gpSize : ℕ)
  | iping (gpSize : ℕ)
  | engine (node : SwimNode)

/-- The ring after an event; a selection asserts that there is a target. -/
def ringStep (gpSelf : ℕ) (m : CrtSwimMembs) : RingEvent → Option CrtSwimMembs
  | .rankAdd env rank _ => some (m.crtSwimRankAdd env gpSelf rank).2
  | .rankDel rank => some (m.crtSwimRankDel rank).2
  | .rankDelAll => some m.crtSwimRankDelAll
  | .dping gpSize => (m.crtSwimGetDpingTarget gpSize).map Prod.snd
  | .iping gpSize => (m.crtSwimGetIpingTarget gpSize).map Prod.snd
  | .engine node => some { m with csmCtx := node }

/-- The ring as a transition system. -/
def ringLts (gpSelf : ℕ) : Lts CrtSwimMembs RingEvent where
  init m := m = .crtSwimInit
  enabled _ _ := True
  step := ringStep gpSelf

namespace RingOk

variable {m m' : CrtSwimMembs} {gpSelf rank t : ℕ}

/-- The invariant is about the ring and its target only. -/
theorem congr (h : RingOk m) (hhead : m'.csmHead = m.csmHead) (htarget : m'.csmTarget = m.csmTarget) :
    RingOk m' := by
  refine ⟨?_, ?_, ?_, ?_⟩
  · exact hhead ▸ h.nodup
  · rw [hhead, htarget]
    exact h.null
  · rw [hhead, htarget]
    exact h.mem
  · exact hhead ▸ h.ranks

theorem checkSelf (h : RingOk m) :
    RingOk (if m.csmCtx.ctx.scSelf ≠ gpSelf then m.setSelf gpSelf else m) := by
  split
  · exact h.congr rfl rfl
  · exact h

/-- The target moves inside the ring. -/
theorem moved (hnodup : m.csmHead.Nodup) (hranks : ∀ id ∈ m.csmHead, id < 2 ^ 32)
    (ht : t ∈ m.csmHead) (htarget : m.csmTarget = some t) : RingOk m := by
  refine ⟨hnodup, ?_, fun t' ht' => ?_, hranks⟩
  · rw [htarget]
    exact iff_of_false (some_ne_none t) (ne_nil_of_mem ht)
  · rw [← some.inj (htarget.symm.trans ht')]
    exact ht

theorem empty (hhead : m.csmHead = []) (htarget : m.csmTarget = none) : RingOk m := by
  refine ⟨?_, iff_of_true htarget hhead, ?_, ?_⟩
  · rw [hhead]
    exact nodup_nil
  · intro t ht
    cases htarget.symm.trans ht
  · rw [hhead]
    exact forall_mem_nil _

theorem insertRank (h : RingOk m) (env : RankAddEnv) (ht : m.csmTarget = some t)
    (hnew : rank ∉ m.csmHead) (hrank : rank < 2 ^ 32) : RingOk (m.insertRank env rank) := by
  have hperm : (m.insertRank env rank).csmHead.Perm (rank :: m.csmHead) := insertAfter_perm _ _ _
  have hnodup := hperm.nodup_iff.mpr (nodup_cons.mpr ⟨hnew, h.nodup⟩)
  refine moved hnodup (fun id hid => ?_) (t := (loopNext (m.insertRank env rank).csmHead)^[env.turns] t)
    ?_ (by rw [CrtSwimMembs.insertRank, ht]; rfl)
  · rcases mem_cons.mp (hperm.mem_iff.mp hid) with rfl | hid
    · exact hrank
    · exact h.ranks id hid
  · -- every turn stays in the ring
    induction env.turns with
    | zero => exact hperm.mem_iff.mpr (mem_cons_of_mem _ (h.mem t ht))
    | succ n ih =>
      rw [Function.iterate_succ_apply']
      exact loopNext_mem hnodup ih

theorem rankDel (h : RingOk m) (rank : ℕ) : RingOk (m.crtSwimRankDel rank).2 := by
  by_cases hmem : rank ∈ m.csmHead
  swap
  · rw [crtSwimRankDel, if_neg hmem]
    exact h
  have hranks : ∀ id ∈ m.csmHead.erase rank, id < 2 ^ 32 := fun id hid =>
    h.ranks id (erase_subset hid)
  obtain ⟨t, htarget⟩ := ne_none_iff_exists'.mp fun hnone =>
    ne_nil_of_mem hmem (h.null.mp hnone)
  have ht := h.mem t htarget
  rw [crtSwimRankDel, if_pos hmem]
  dsimp only
  split
  · rename_i hnil
    exact .empty hnil rfl
  rename_i hne
  split
  · rename_i heq
    have heq : m.csmTarget = some rank := heq
    obtain rfl := some.inj (htarget.symm.trans heq)
    refine moved (t := loopNext m.csmHead t) (h.nodup.erase t) hranks ?_ (by rw [heq]; rfl)
    refine (mem_erase_of_ne fun hsame => hne ?_).mpr (loopNext_mem h.nodup ht)
    exact erase_eq_nil_of_loopNext h.nodup ht hsame
  · rename_i hother
    refine moved (h.nodup.erase rank) hranks ((mem_erase_of_ne fun heq => hother ?_).mpr ht) htarget
    exact heq ▸ htarget

theorem rankAdd (h : RingOk m) (env : RankAddEnv) (hself : gpSelf < 2 ^ 32) (hrank : rank < 2 ^ 32) :
    RingOk (m.crtSwimRankAdd env gpSelf rank).2 := by
  rw [crtSwimRankAdd]
  split
  · exact h
  split
  · exact h
  split
  · -- the rank of the process comes first
    have hone : RingOk { m.putState gpSelf (some ⟨0, .alive⟩) with
        csmHead := [gpSelf], csmTarget := some gpSelf } :=
      moved (nodup_singleton _) (forall_mem_singleton.mpr hself) (mem_singleton_self _) rfl
    split
    · rename_i hne
      split
      · exact hone.rankDel gpSelf
      · exact (hone.insertRank env rfl (fun hmem => hne (mem_singleton.mp hmem)) hrank).checkSelf
    · exact hone.checkSelf
  · rename_i hcons
    split
    · exact h.checkSelf
    · rename_i hnew
      split
      · cases htarget : m.csmTarget with
        | none => exact absurd (hcons.symm.trans (h.null.mp htarget)) (cons_ne_nil _ _)
        | some t => exact (h.insertRank env htarget hnew hrank).checkSelf
      · exact h.checkSelf

theorem select (h : RingOk m) {candidate : ℕ → Bool} {gpSize : ℕ}
    (hstep : (m.selectTarget candidate gpSize).map Prod.snd = some m') : RingOk m' := by
  obtain ⟨⟨id, m''⟩, hsel, rfl⟩ := map_eq_some_iff.mp hstep
  obtain ⟨t, ht, heq⟩ := map_eq_some_iff.mp hsel
  have hmem : (searchLoop m.csmHead candidate (gpSize + 1) t).2 ∈ m.csmHead :=
    searchLoop_mem h.nodup (h.mem t ht)
  cases heq
  exact moved h.nodup h.ranks hmem rfl

end RingOk

theorem ringOk_invariant {gpSelf : ℕ} (hself : gpSelf < 2 ^ 32) : (ringLts gpSelf).Invariant RingOk where
  init m hm := by
    obtain rfl := hm
    exact .empty rfl rfl
  step m e m' h _ hstep := by
    cases e with
    | rankAdd env rank hrank => exact some.inj hstep ▸ h.rankAdd env hself hrank
    | rankDel rank => exact some.inj hstep ▸ h.rankDel rank
    | rankDelAll =>
      cases hstep
      exact .empty rfl rfl
    | dping gpSize | iping gpSize => exact h.select hstep
    | engine node => exact some.inj hstep ▸ h.congr rfl rfl

/-- **The target ring.**  In every run the ids are distinct and the target is one of them if
there are any.  Of at most `gp_size + 1` elements both selections return the first candidate
after the target, and none if and only if there is no candidate. -/
theorem swim_ring_invariants {gpSelf : ℕ} (hself : gpSelf < 2 ^ 32) {m : CrtSwimMembs}
    (hm : (ringLts gpSelf).Reach m) :
    m.csmHead.Nodup ∧ (m.csmTarget = none ↔ m.csmHead = []) ∧
    ∀ target, m.csmTarget = some target → target ∈ m.csmHead ∧
      ∀ gpSize, m.csmHead.length ≤ gpSize + 1 →
        (∃ id m', m.crtSwimGetDpingTarget gpSize = some (id, m') ∧
          id = ((ringFrom m.csmHead target).find? m.dpingCandidate).getD swimIdInvalid ∧
          (id = swimIdInvalid ↔ ∀ x ∈ m.csmHead, m.dpingCandidate x = false)) ∧
        ∃ id m', m.crtSwimGetIpingTarget gpSize = some (id, m') ∧
          id = ((ringFrom m.csmHead target).find? m.ipingCandidate).getD swimIdInvalid ∧
          (id = swimIdInvalid ↔ ∀ x ∈ m.csmHead, m.ipingCandidate x = false) := by
  have h := (ringOk_invariant hself).reach hm
  refine ⟨h.nodup, h.null, fun target htarget => ⟨h.mem target htarget, fun gpSize hlen => ?_⟩⟩
  have hmem := h.mem target htarget
  have hsearch (accept : ℕ → Bool) : (searchLoop m.csmHead accept (gpSize + 1) target).1 = swimIdInvalid ↔
      ∀ x ∈ m.csmHead, accept x = false := by
    refine ⟨fun hno => ?_, searchLoop_none h.nodup hmem⟩
    rw [searchLoop_eq_find? h.nodup hmem hlen] at hno
    cases hfind : (ringFrom m.csmHead target).find? accept with
    | none =>
      intro x hx
      simpa using List.find?_eq_none.mp hfind x ((ringFrom_perm hmem).mem_iff.mpr hx)
    | some c =>
      rw [hfind, getD_some] at hno
      have hlt := h.ranks c ((ringFrom_perm hmem).mem_iff.mp (List.mem_of_find?_eq_some hfind))
      rw [hno] at hlt
      exact absurd hlt (by decide)
  have hselect (accept : ℕ → Bool) : ∃ id m', m.selectTarget accept gpSize = some (id, m') ∧
      id = ((ringFrom m.csmHead target).find? accept).getD swimIdInvalid ∧
      (id = swimIdInvalid ↔ ∀ x ∈ m.csmHead, accept x = false) :=
    ⟨_, _, by rw [selectTarget, htarget]; rfl, searchLoop_eq_find? h.nodup hmem hlen, hsearch accept⟩
  exact ⟨hselect _, hselect _⟩

/-! ### Round robin -/

/-- The candidates in the order of the direct pings to come. -/
def dpingOrder (m : CrtSwimMembs) : List ℕ :=
  (m.csmTarget.elim [] (ringFrom m.csmHead)).filter m.dpingCandidate

/-- The results of `n` direct selections one after the other. -/
def dpings (gpSize : ℕ) : ℕ → CrtSwimMembs → List ℕ
  | 0, _ => []
  | n + 1, m =>
    match m.crtSwimGetDpingTarget gpSize with
    | none => []
    | some (id, m') => id :: dpings gpSize n m'

/-- A direct selection takes the first candidate, which becomes the last one. -/
theorem dpingOrder_cons {m : CrtSwimMembs} {gpSize c : ℕ} {cs : List ℕ} (h : RingOk m)
    (hlen : m.csmHead.length ≤ gpSize + 1) (horder : m.dpingOrder = c :: cs) :
    m.crtSwimGetDpingTarget gpSize = some (c, { m with csmTarget := some c }) ∧
      { m with csmTarget := some c }.dpingOrder = cs ++ [c] ∧ c ∈ m.csmHead := by
  cases htarget : m.csmTarget with
  | none =>
    rw [dpingOrder, htarget] at horder
    cases horder
  | some t =>
    have ht := h.mem t htarget
    rw [dpingOrder, htarget, elim_some] at horder
    obtain ⟨pre, post, hring, hpre, hc, rfl⟩ := filter_eq_cons_iff.mp horder
    have hlength := (ringFrom_perm ht).length_eq
    rw [hring, length_append, length_cons] at hlength
    obtain ⟨hsearch, hfrom⟩ := searchLoop_some (n := gpSize + 1) h.nodup hc ht hring
      (by simpa using hpre) (by omega)
    refine ⟨by rw [crtSwimGetDpingTarget, selectTarget, htarget, map_some, hsearch], ?_, ?_⟩
    · show (ringFrom m.csmHead c).filter m.dpingCandidate = _
      rw [hfrom, filter_append, filter_append, filter_eq_nil_iff.mpr hpre,
        append_nil, filter_cons_of_pos hc, filter_nil]
    · rw [← (ringFrom_perm ht).mem_iff, hring]
      exact mem_append_right _ mem_cons_self

theorem dpings_eq {gpSize : ℕ} (cs : List ℕ) : ∀ {m : CrtSwimMembs} (rest : List ℕ), RingOk m →
    m.csmHead.length ≤ gpSize + 1 → m.dpingOrder = cs ++ rest → dpings gpSize cs.length m = cs := by
  induction cs with
  | nil => exact fun _ _ _ _ => rfl
  | cons c cs ih =>
    intro m rest h hlen horder
    obtain ⟨hsel, hnext, hmem⟩ := dpingOrder_cons h hlen horder
    have hok : RingOk { m with csmTarget := some c } := .moved h.nodup h.ranks hmem rfl
    rw [length_cons, dpings, hsel]
    exact congrArg (c :: ·) (ih (rest ++ [c]) hok hlen (hnext.trans (append_assoc cs rest [c])))

/-- **Round robin.**  After any run, as many direct selections as there are candidates, with no
indirect ones in between, return each of them once. -/
theorem round_robin_direct {gpSelf : ℕ} (hself : gpSelf < 2 ^ 32) {m : CrtSwimMembs}
    (hm : (ringLts gpSelf).Reach m) {gpSize : ℕ} (hlen : m.csmHead.length ≤ gpSize + 1) :
    (dpings gpSize (m.csmHead.filter m.dpingCandidate).length m).Perm
      (m.csmHead.filter m.dpingCandidate) := by
  have h := (ringOk_invariant hself).reach hm
  cases htarget : m.csmTarget with
  | none =>
    rw [h.null.mp htarget]
    exact .refl _
  | some t =>
    have hperm : m.dpingOrder.Perm (m.csmHead.filter m.dpingCandidate) := by
      rw [dpingOrder, htarget]
      exact (ringFrom_perm (h.mem t htarget)).filter _
    rw [← hperm.length_eq, dpings_eq m.dpingOrder [] h hlen (append_nil _).symm]
    exact hperm

/-- Four ranks join, one of them leaves, and another is selected. -/
def joinedRun : List RingEvent :=
  [.rankAdd ⟨true, true, 1⟩ 1 (by decide), .rankAdd ⟨true, true, 0⟩ 2 (by decide),
    .rankAdd ⟨true, true, 2⟩ 3 (by decide), .rankAdd ⟨true, true, 0⟩ 4 (by decide), .rankDel 2, .dping 4]

def joined : CrtSwimMembs := (joinedRun.foldlM (ringStep 0) crtSwimInit).getD crtSwimInit

theorem reach_joined : (ringLts 0).Reach joined :=
  ⟨crtSwimInit, joinedRun, rfl, .cons trivial rfl (.cons trivial rfl (.cons trivial rfl
    (.cons trivial rfl (.cons trivial rfl (.cons trivial rfl (.nil _))))))⟩

theorem swim_ring_joined : joined.csmHead = [0, 1, 3, 4] ∧ joined.csmHead.Nodup ∧
    ∃ id m', joined.crtSwimGetDpingTarget 4 = some (id, m') ∧
      id = ((ringFrom joined.csmHead 1).find? joined.dpingCandidate).getD swimIdInvalid := by
  have h := swim_ring_invariants (by decide) reach_joined
  obtain ⟨⟨id, m', hsel, hid, _⟩, _⟩ := (h.2.2 1 rfl).2 4 (by decide)
  exact ⟨rfl, h.1, id, m', hsel, hid⟩

theorem round_robin_joined : (ringLts 0).Reach joined ∧ (dpings 4 3 joined).Perm [1, 3, 4] :=
  ⟨reach_joined, round_robin_direct (by decide) reach_joined (show 4 ≤ 4 + 1 by decide)⟩

/-- A ring of self and four members that are alive. -/
def fiveMembers : CrtSwimMembs where
  csmHead := [0, 1, 2, 3, 4]
  csmTarget := some 0
  csmCtx := ⟨.swimInit 0 fun id => if id < 5 then some ⟨0, .alive⟩ else none, []⟩
  wacks := []

/-- Two members are asked to ping 1: the next direct pings go to 4 and again to 1. -/
theorem round_robin_skips :
    (do
      let (first, m) ← fiveMembers.crtSwimGetDpingTarget 5
      let (_, m) ← m.crtSwimGetIpingTarget 5
      let (_, m) ← m.crtSwimGetIpingTarget 5
      let (second, m) ← m.crtSwimGetDpingTarget 5
      let (third, _) ← m.crtSwimGetDpingTarget 5
      pure [first, second, third]) = some [1, 4, 1] := by
  decide

end CrtSwimMembs

end Cart
