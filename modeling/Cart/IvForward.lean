/-
How far a fetch or an update is forwarded (`crt_iv.c`).

A request that a node cannot answer is sent to its parent, whose handler may send it on.
`crt_iv_parent_get` gives the root as the parent of the root; of the three branches that
forward, only the one in `crt_hdlr_iv_fetch_aux` refuses to do so there.

Main results: `step_cases`, `iv_forwarding_iff`, `iv_forwarding_endless`.
-/
import Cart.IvRoute
import Cart.IvUpdate
import Cart.Lts

open List Option

namespace Cart

open CrtGroup

variable {V : Type}

/-! ### The handlers -/

/-- What is forwarded. -/
inductive IvRequest where
  | fetch
  | update
  | invalidate
  deriving DecidableEq, Repr

/-- The RPC for it. -/
def IvRequest.rpc : IvRequest → IvRpc
  | .fetch => .fetch
  | .update | .invalidate => .update

/-- What the handler of a request meets; `sent` says that `crt_ivf_rpc_issue` sends an RPC. -/
inductive IvVisit (V : Type) where
  | fetch (env : FetchEnv V) (sent : Bool)
  | update (hop : UpdateHop)
  | invalidate (hop : UpdateHop)

def IvVisit.request : IvVisit V → IvRequest
  | .fetch _ _ => .fetch
  | .update _ => .update
  | .invalidate _ => .invalidate

/-- `crt_hdlr_iv_update` sends an invalidation on. -/
def UpdateHop.SendsInvalidationOn (hop : UpdateHop) : Prop :=
  hop.nsFound = true ∧ hop.opsFound = true ∧ hop.onRefreshRc = -derIvcbForward ∧ hop.Forwards
deriving Decidable

/-- It waits for the answer of the parent then, and only then. -/
theorem UpdateHop.crtHdlrIvUpdate_invalidate (hop : UpdateHop) (bidirectional : Bool)
    (response : ℤ × ℤ) :
    (hop.SendsInvalidationOn → hop.crtHdlrIvUpdate (V := V) bidirectional false response =
      hop.handleIvupdateResponse bidirectional false response.1 response.2) ∧
    (¬ hop.SendsInvalidationOn → ∃ rc, ∀ response',
      hop.crtHdlrIvUpdate (V := V) bidirectional false response' = replied [] rc) := by
  constructor
  · rintro ⟨hns, hops, hforward, halloc, hparent, hissue⟩
    simp [crtHdlrIvUpdate, hdlrInvalidate, hns, hops, hforward, halloc, hparent, hissue]
  · intro hstops
    by_cases hns : hop.nsFound = false
    · exact ⟨_, fun _ => if_pos hns⟩
    by_cases hops : hop.opsFound = false
    · exact ⟨_, fun _ => (if_neg hns).trans (if_pos hops)⟩
    simp only [crtHdlrIvUpdate, if_neg hns, if_neg hops, if_true, hdlrInvalidate]
    by_cases hforward : hop.onRefreshRc = -derIvcbForward
    swap
    · exact ⟨_, fun _ => if_neg hforward⟩
    simp only [if_pos hforward]
    by_cases hparent : hop.parentRc ≠ 0
    · exact ⟨_, fun _ => if_pos hparent⟩
    by_cases halloc : hop.updateCbInfoAllocated = false
    · exact ⟨_, fun _ => (if_neg hparent).trans (if_pos halloc)⟩
    by_cases hissue : hop.issueRc ≠ 0
    · exact ⟨_, fun _ => (if_neg hparent).trans ((if_neg halloc).trans (if_pos hissue))⟩
    rw [Bool.not_eq_false] at hns hops halloc
    exact absurd ⟨hns, hops, hforward, halloc, not_not.mp hparent, not_not.mp hissue⟩ hstops

/-- A fetch has to be forwarded. -/
def FetchStart.isForwarded : FetchStart V → Bool
  | .forwarded _ => true
  | .refused | .answered _ => false

/-- The handler sends the request on, once it has the parent. -/
def IvVisit.SendsOn (isRoot : Bool) : IvVisit V → Prop
  | .fetch env sent =>
    (crtHdlrIvFetch { env with isRoot := isRoot, nextNodeRc := 0 }).isForwarded = true ∧
      sent = true
  | .update hop => { hop with parentRc := 0 }.SendsOn
  | .invalidate hop => { hop with parentRc := 0 }.SendsInvalidationOn

instance (isRoot : Bool) (e : IvVisit V) : Decidable (e.SendsOn isRoot) := by
  cases e <;> dsimp only [IvVisit.SendsOn] <;> infer_instance

section

variable (g : CrtGroup) (topo : ℤ) (root : ℕ) (s : IvChain) (e : IvVisit V)

/-- The process that the handler on `v` sends the request on to. -/
def forwardTo (v : ℕ) (e : IvVisit V) : Option ℕ :=
  match IvIssue.forward.target (g.view v) (g.ivns topo v) root e.request.rpc with
  | .error _ => none
  | .ok next => if e.SendsOn (v == root) then some next else none

/-! ### The chain -/

/-- A request on its way: who has it, and whom it has visited. -/
structure IvChain where
  holder : Option ℕ
  visited : List ℕ
  deriving DecidableEq, Repr

/-- One handler. -/
def IvChain.step : Option IvChain :=
  s.holder.map fun v =>
    match forwardTo g topo root v e with
    | none => ⟨none, s.visited⟩
    | some next => ⟨some next, s.visited ++ [next]⟩

/-- The chain of a request that `origin` has issued, with any shortcut. -/
def ivChainLts (origin : ℕ) (request : IvRequest) (V : Type) : Lts IvChain (IvVisit V) where
  init s := ∃ shortcut first,
    (IvIssue.call shortcut).target (g.view origin) (g.ivns topo origin) root request.rpc =
      .ok first ∧ s = ⟨some first, [first]⟩
  enabled s e := (∃ v ∈ g.members, s.holder = some v) ∧ e.request = request
  step := IvChain.step g topo root

/-- No process is visited twice, so none sends the request to itself; and nothing comes
after the root. -/
structure IvChain.Good (root : ℕ) (s : IvChain) : Prop where
  once : s.visited.Nodup
  last : root ∉ s.visited.dropLast

/-- On the root, the callbacks do not ask to forward an update or an invalidation, or it
cannot be sent. -/
def RootAnswers : Prop :=
  s.holder = some root →
    match e with
    | .fetch _ _ => True
    | .update hop => ¬ { hop with parentRc := 0 }.SendsOn
    | .invalidate hop => ¬ { hop with parentRc := 0 }.SendsInvalidationOn

end

/-! ### One handler -/

section

variable {g : CrtGroup} {topo : ℤ} {root origin v : ℕ} {request : IvRequest} {s s' : IvChain}
  {e : IvVisit V} {es : List (IvVisit V)}

/-- A fetch is not forwarded by the root. -/
theorem crtHdlrIvFetch_root {env : FetchEnv V} (hroot : env.isRoot = true) :
    (crtHdlrIvFetch env).isForwarded = false := by
  unfold crtHdlrIvFetch crtHdlrIvFetchAux
  rw [if_pos hroot]
  repeat' split
  all_goals rfl

theorem rootAnswers_iff : RootAnswers root s e ↔ (s.holder = some root → ¬ e.SendsOn true) := by
  refine imp_congr_right fun _ => ?_
  cases e with
  | fetch env sent =>
    refine iff_of_true trivial ?_
    rintro ⟨hforwarded, _⟩
    rw [crtHdlrIvFetch_root rfl] at hforwarded
    cases hforwarded
  | update hop | invalidate hop => exact Iff.rfl

/-- A handler answers, sends nearer to the root, or is the root and sends to itself. -/
theorem step_cases (hvalid : crtTreeTopoValid topo = true) (hprim : g.primary = true)
    (hroot : root ∈ g.members) (hv : v ∈ g.members) (hholder : s.holder = some v)
    (hstep : s.step g topo root e = some s') : (s' = ⟨none, s.visited⟩ ∧ ¬ e.SendsOn (v == root)) ∨
      ∃ next ∈ g.members, s' = ⟨some next, s.visited ++ [next]⟩ ∧ e.SendsOn (v == root) ∧
        (v = root ∧ next = root ∨ v ≠ root ∧ g.treeDist root next < g.treeDist root v) := by
  obtain ⟨next, hnext, hroute, hnear⟩ : ∃ next ∈ g.members, g.RoutesTo topo root v .forward next ∧
      (v = root ∧ next = root ∨ v ≠ root ∧ g.treeDist root next < g.treeDist root v) := by
    by_cases hself : v = root
    · exact ⟨root, hroot, (if_pos hself).mpr rfl, .inl ⟨hself, rfl⟩⟩
    · obtain ⟨p, hparent, hp, hdist⟩ := exists_treeParent hvalid hroot hv hself
      exact ⟨p, hp, (if_neg hself).mpr hparent, .inr ⟨hself, hdist⟩⟩
  have htarget := target_eq hvalid hroot hv hroute (show (g.view v).gpPrimary = true from hprim)
    e.request.rpc
  rw [IvChain.step, hholder, map_some, forwardTo, htarget] at hstep
  split_ifs at hstep with hsends
  · exact .inr ⟨next, hnext, (some.inj hstep).symm, hsends, hnear⟩
  · exact .inl ⟨(some.inj hstep).symm, hsends⟩

/-! ### The way to the root -/

/-- The request comes nearer to the root with every process that it visits. -/
structure IvChain.Nearing (g : CrtGroup) (root : ℕ) (s : IvChain) : Prop where
  last : ∀ v, s.holder = some v → ∃ l, s.visited = l ++ [v]
  nearer : s.visited.Pairwise fun a b => g.treeDist root b < g.treeDist root a
  root : root ∉ s.visited.dropLast

theorem IvChain.Nearing.good (h : s.Nearing g root) : s.Good root where
  once := h.nearer.imp fun hlt heq => by
    rw [heq] at hlt
    exact lt_irrefl _ hlt
  last := h.root

theorem nearing_first (g : CrtGroup) (root first : ℕ) :
    IvChain.Nearing g root ⟨some first, [first]⟩ where
  last v hv := ⟨[], by rw [some.inj hv]; rfl⟩
  nearer := pairwise_singleton _ _
  root := not_mem_nil

/-- A handler that is allowed to keeps this up, and another one sends the request to
itself. -/
theorem IvChain.Nearing.step (h : s.Nearing g root) (hvalid : crtTreeTopoValid topo = true)
    (hprim : g.primary = true) (hroot : root ∈ g.members)
    (henabled : ∃ v ∈ g.members, s.holder = some v) (hstep : s.step g topo root e = some s') :
    (RootAnswers root s e → s'.Nearing g root) ∧ (¬ RootAnswers root s e → ¬ s'.visited.Nodup) := by
  obtain ⟨v, hv, hholder⟩ := henabled
  obtain ⟨l, hl⟩ := h.last v hholder
  rw [rootAnswers_iff, hholder]
  rcases step_cases hvalid hprim hroot hv hholder hstep with
    ⟨rfl, hnot⟩ | ⟨next, _, rfl, hsends, ⟨rfl, rfl⟩ | ⟨hne, hdist⟩⟩
  · refine ⟨fun _ => ⟨fun _ hc => (by cases hc), h.nearer, h.root⟩, fun hbad => absurd ?_ hbad⟩
    intro heq
    rw [← some.inj heq, beq_self_eq_true] at hnot
    exact hnot
  · rw [beq_self_eq_true] at hsends
    refine ⟨fun hok => absurd hsends (hok rfl), fun _ hnodup => ?_⟩
    have hmem : next ∈ s.visited := hl ▸ mem_concat_self
    exact (nodup_append.mp hnodup).2.2 next hmem next (mem_singleton_self next) rfl
  · refine ⟨fun _ => ⟨fun w hw => ⟨s.visited, by rw [some.inj hw]⟩, ?_, ?_⟩,
      fun hbad => absurd (fun heq => absurd (some.inj heq) hne) hbad⟩
    · refine pairwise_append.mpr ⟨h.nearer, pairwise_singleton _ _, fun a ha b hb => ?_⟩
      rw [mem_singleton.mp hb]
      -- all that was visited before `v` is farther than `v`
      have hnearer := h.nearer
      rw [hl] at hnearer ha
      rcases mem_append.mp ha with ha | ha
      · exact hdist.trans ((pairwise_append.mp hnearer).2.2 a ha v (mem_singleton_self v))
      · rwa [mem_singleton.mp ha]
    · have hroot' := h.root
      rw [hl, dropLast_concat] at hroot'
      rw [dropLast_concat, hl]
      intro hmem
      rcases mem_append.mp hmem with hmem | hmem
      · exact hroot' hmem
      · exact hne (mem_singleton.mp hmem).symm

/-! ### Whole chains -/

/-- What has been visited stays so. -/
theorem visited_of_run (hrun : (ivChainLts g topo root origin request V).Run s es s') :
    s.visited <+: s'.visited := by
  induction hrun with
  | nil s => exact prefix_refl _
  | @cons s s₁ _ e _ henabled hstep _ ih =>
    refine IsPrefix.trans ?_ ih
    obtain ⟨v, _, heq⟩ := map_eq_some_iff.mp hstep
    subst heq
    cases forwardTo g topo root v e with
    | none => exact prefix_refl _
    | some next => exact prefix_append _ _

end

/-- **How far a request is forwarded.** No process is visited twice and none after the root if
and only if the root never sends an update or an invalidation on; and then no run is endless. -/
theorem iv_forwarding_iff (g : CrtGroup) (hprim : g.primary = true) {topo : ℤ}
    (hvalid : crtTreeTopoValid topo = true) {root origin : ℕ} (hroot : root ∈ g.members)
    (horigin : origin ∈ g.members) (request : IvRequest) (V : Type) :
    (∀ s, (ivChainLts g topo root origin request V).Reach s → ∀ v ∈ s.holder, v ∈ g.members) ∧
    (∀ s₀ es s, (ivChainLts g topo root origin request V).init s₀ →
      (ivChainLts g topo root origin request V).Run s₀ es s →
      (s.Good root ↔
        ((ivChainLts g topo root origin request V).restrict (RootAnswers root)).Run s₀ es s)) ∧
    ((ivChainLts g topo root origin request V).restrict (RootAnswers root)).Terminates := by
  have hfirst : ∀ s₀, (ivChainLts g topo root origin request V).init s₀ →
      ∃ first ∈ g.members, s₀ = ⟨some first, [first]⟩ := by
    rintro s₀ ⟨shortcut, first, htarget, rfl⟩
    refine ⟨first, ?_, rfl⟩
    have hknown : IvIssue.call shortcut ≠ .call .unknown := by
      rintro heq
      rw [heq] at htarget
      cases htarget
    obtain ⟨p, hp, hroute⟩ := exists_routesTo hvalid hroot horigin hknown
    rw [target_eq hvalid hroot horigin hroute hprim] at htarget
    exact Except.ok.inj htarget ▸ hp
  refine ⟨?_, ?_, ?_⟩
  · have hinv : (ivChainLts g topo root origin request V).Invariant
        fun s => ∀ v ∈ s.holder, v ∈ g.members := by
      refine ⟨fun s₀ hs₀ v hv => ?_, fun s e s' _ henabled hstep v' hv' => ?_⟩
      · obtain ⟨first, hmem, rfl⟩ := hfirst s₀ hs₀
        exact Option.some.inj hv ▸ hmem
      · obtain ⟨⟨v, hv, hholder⟩, _⟩ := henabled
        rcases step_cases hvalid hprim hroot hv hholder hstep with
          ⟨rfl, _⟩ | ⟨next, hnext, rfl, _⟩
        · cases hv'
        · exact Option.some.inj hv' ▸ hnext
    exact fun s hs => hinv.reach hs
  · intro s₀ es s hs₀ hrun
    obtain ⟨first, _, rfl⟩ := hfirst s₀ hs₀
    have hnear := nearing_first g root first
    constructor
    · -- a step that is not allowed visits the root twice, and that stays so
      intro hgood
      generalize (⟨some first, [first]⟩ : IvChain) = s₀ at hrun hnear
      induction hrun with
      | nil s => exact .nil s
      | @cons s s₁ _ e _ henabled hstep hrest ih =>
        obtain ⟨hkeeps, hbreaks⟩ := hnear.step hvalid hprim hroot henabled.1 hstep
        have hok : RootAnswers root s e := by
          by_contra hnot
          exact hbreaks hnot (hgood.once.sublist (visited_of_run hrest).sublist)
        exact .cons ⟨henabled, hok⟩ hstep (ih hgood (hkeeps hok))
    · intro hallowed
      have hinv : ∀ {s es s'},
          ((ivChainLts g topo root origin request V).restrict (RootAnswers root)).Run s es s' →
          s.Nearing g root → s'.Nearing g root := by
        intro s es s' hrun hs
        induction hrun with
        | nil s => exact hs
        | cons henabled hstep _ ih =>
          exact ih ((hs.step hvalid hprim hroot henabled.1.1 hstep).1 henabled.2)
      exact (hinv hallowed hnear).good
  · -- the distance of the holder goes down
    refine Lts.terminates_of_measure
      (fun s => (s.holder.map fun v => g.treeDist root v + 1).getD 0) ?_
    rintro s e s' ⟨⟨⟨v, hv, hholder⟩, _⟩, hok⟩ hstep
    rw [rootAnswers_iff, hholder] at hok
    rcases step_cases hvalid hprim hroot hv hholder hstep with
      ⟨rfl, _⟩ | ⟨next, _, rfl, hsends, ⟨rfl, rfl⟩ | ⟨_, hdist⟩⟩
    · rw [hholder]
      exact Nat.succ_pos _
    · rw [beq_self_eq_true] at hsends
      exact absurd hsends (hok rfl)
    · rw [hholder]
      exact Nat.succ_lt_succ hdist

/-- Seven processes in a binary tree. -/
def treeGroup : CrtGroup := rangeGroup 7 (by decide)
def karyTopo : ℤ := 2 * 2 ^ 16 + 2

/-- The request of process 5 is sent on by its parent and accepted by the root. -/
theorem iv_forwarding_tree :
    (ivChainLts treeGroup karyTopo 0 5 .update Unit).Run ⟨some 2, [2]⟩
      [.update (sampleHop (-derIvcbForward)), .update (sampleHop 0)] ⟨none, [2, 0]⟩ ∧
      IvChain.Good 0 ⟨none, [2, 0]⟩ := by
  obtain ⟨_, hgood, _⟩ := iv_forwarding_iff treeGroup rfl (by decide : crtTreeTopoValid karyTopo = true)
    (by decide : 0 ∈ treeGroup.members) (by decide : 5 ∈ treeGroup.members) .update Unit
  have hlast : ((ivChainLts treeGroup karyTopo 0 5 .update Unit).restrict (RootAnswers 0)).Run
      ⟨some 0, [2, 0]⟩ [.update (sampleHop 0)] ⟨none, [2, 0]⟩ :=
    .cons ⟨⟨⟨0, by decide, rfl⟩, rfl⟩, fun _ => by decide⟩ (by decide +kernel) (.nil _)
  have hallowed : ((ivChainLts treeGroup karyTopo 0 5 .update Unit).restrict (RootAnswers 0)).Run
      ⟨some 2, [2]⟩ [.update (sampleHop (-derIvcbForward)), .update (sampleHop 0)] ⟨none, [2, 0]⟩ :=
    .cons ⟨⟨⟨2, by decide, rfl⟩, rfl⟩, fun hroot => by cases hroot⟩ (by decide +kernel) hlast
  have hrun := hallowed.of_restrict
  exact ⟨hrun, (hgood _ _ _ ⟨.none, 2, by decide +kernel, rfl⟩ hrun).mpr hallowed⟩
/-- A request that one of two processes sends to the other, the root, can stay there for ever. -/
def IvRequest.Endless (request : IvRequest) : Prop := ∃ f : ℕ → IvChain,
  (ivChainLts pairGroup flatTopo 0 1 request Unit).init (f 0) ∧ (∀ i, (f i).holder = some 0) ∧
  ∀ i, ∃ e, (ivChainLts pairGroup flatTopo 0 1 request Unit).enabled (f i) e ∧
    (ivChainLts pairGroup flatTopo 0 1 request Unit).step (f i) e = some (f (i + 1))

/-- The root asks to forward, again and again: it sends the request to itself. -/
theorem iv_forwarding_endless : IvRequest.update.Endless ∧ IvRequest.invalidate.Endless := by
  have hendless (e : IvVisit Unit) (hforward : forwardTo pairGroup flatTopo 0 0 e = some 0) :
      e.request.Endless := by
    refine ⟨fun i => ⟨some 0, replicate (i + 1) 0⟩, ?_, fun _ => rfl, fun i => ⟨e, ?_, ?_⟩⟩
    · exact ⟨.toRoot, 0, by cases e.request <;> rfl, rfl⟩
    · exact ⟨⟨0, by decide, rfl⟩, rfl⟩
    · show (IvChain.mk (some 0) (replicate (i + 1) 0)).step pairGroup flatTopo 0 e =
        some ⟨some 0, replicate (i + 1 + 1) 0⟩
      rw [IvChain.step, map_some, hforward, replicate_succ' (n := i + 1)]
  exact ⟨hendless (.update (sampleHop (-derIvcbForward))) (by decide +kernel),
    hendless (.invalidate { sampleHop 0 with onRefreshRc := -derIvcbForward }) (by decide +kernel)⟩

end Cart
