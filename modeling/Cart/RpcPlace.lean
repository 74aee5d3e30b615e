/-
The places of an RPC.

An RPC is completed from many functions, each of which goes by its state.  As
long as nobody aborts an RPC that others still refer to, every RPC is in one
place (`Place`): only that place can make it go on, and the callback is invoked
when it leaves for the last one.

Main results: `Good.send`, `Good.invoke`.
-/
import Cart.InverseTables
import Cart.RpcSpec

open Function

namespace Cart

open RpcLife

variable {ι : Type}

/-! ### Places -/

/-- The life of an RPC that was sent and for which nothing is outstanding. -/
def RpcLife.sent {ι : Type} (cb : CompleteCb ι) (n : ℕ) : RpcLife ι :=
  { RpcLife.init ι with crpCompleteCb := some cb, crpUlRetry := n }

/-- For whom a lookup request is still to invoke its callback. -/
def RpcLife.owes {ι : Type} (life : RpcLife ι) : Option ι :=
  match life.crpCompleteCb, life.calls with
  | some (.uriLookup p), 0 => some p
  | _, _ => none

theorem RpcLife.owes_eq_some_iff {life : RpcLife ι} {p : ι} : life.owes = some p ↔
    life.crpCompleteCb = some (.uriLookup p) ∧ life.calls = 0 := by
  unfold owes
  split <;> simp_all

/-- Where an RPC can be. -/
inductive Place (ι : Type) where
  | fresh
  | waiting
  | submitting
  | uri (u : ι)
  | addr
  | wire
  | failed (rc : ℤ)
  | unreach
  | finishing (state : RpcState)
  -- with a lookup of the address that is still to come, or after the wire
  | done (late sent : Bool)

namespace Place

/-- The life of an RPC in that place. -/
def life (cb : CompleteCb ι) (n : ℕ) : Place ι → RpcLife ι
  | .fresh => .init ι
  | .waiting | .submitting | .unreach => .sent cb n
  | .uri u => { RpcLife.sent cb n with crpUlReq := some u }
  | .addr => { RpcLife.sent cb n with addrPending := true }
  | .wire => { RpcLife.sent cb n with crpOnWire := true, hgPending := true }
  | .failed rc => { RpcLife.sent cb n with failed := some rc }
  | .finishing state =>
    { RpcLife.sent cb n with crpOnWire := true, finishing := some state, calls := 1 }
  | .done late sent => { RpcLife.sent cb n with addrPending := late, crpOnWire := sent, calls := 1 }

/-- The states an RPC has there, for a lookup request or another RPC. -/
def Allows (lookup : Bool) : Place ι → RpcState → Prop
  | .fresh, st => st = .inited ∨ st = .canceled ∧ lookup = false
  | .waiting, st => st = .queued ∧ lookup = false
  | .submitting, st => st = .inited ∧ lookup = false
  | .uri _, st => st = .uriLookup ∧ lookup = false
  | .addr, st => st = .addrLookup
  | .wire, st => st = .reqSent
  | .failed _, st => st = .inited ∧ lookup = true
  | .unreach, st => st = .fwdUnreach
  | .finishing state, st => (state = .completed ∨ state = .canceled) ∧
    (st = .replyRecved ∨ st = .reqSent ∨ st = .canceled)
  | .done late sent, st => (late = true → st = .fwdUnreach) ∧
    (sent = true → st = .completed ∨ st = .canceled) ∧
    (st = .completed ∨ st = .canceled ∨ st = .timeout ∨ st = .fwdUnreach)

end Place

/-! ### Requests and those they are for -/

section

variable {f g f' g' : ι → Option ι} {p u v : ι}

/-- The two partial maps are inverse to each other. -/
def Paired (f g : ι → Option ι) : Prop := ∀ p u, f p = some u ↔ g u = some p

variable [DecidableEq ι]

/-- The request of `p` is over. -/
theorem Paired.cut (h : Paired f g) (hf : f p = some u) (hp : f' p = none) (hu : g' u = none)
    (hf' : ∀ x, x ≠ p → f' x = f x) (hg' : ∀ x, x ≠ u → g' x = g x) : Paired f' g' := by
  rw [eq_update_iff.mpr ⟨hp, hf'⟩, eq_update_iff.mpr ⟨hu, hg'⟩]
  exact InverseTables.erase h hf

/-- `p` gets the request `u`. -/
theorem Paired.add (h : Paired f g) (hf : f p = none) (hg : g u = none) (hp : f' p = some u)
    (hu : g' u = some p) (hf' : ∀ x, x ≠ p → f' x = f x) (hg' : ∀ x, x ≠ u → g' x = g x) :
    Paired f' g' := by
  rw [eq_update_iff.mpr ⟨hp, hf'⟩, eq_update_iff.mpr ⟨hu, hg'⟩]
  exact InverseTables.insert h hf hg

/-- `p` gets the request `v` after `u`. -/
theorem Paired.renew (h : Paired f g) (hf : f p = some u) (hg : g v = none) (hne : v ≠ u)
    (hp : f' p = some v) (hu : g' u = none) (hv : g' v = some p)
    (hf' : ∀ x, x ≠ p → f' x = f x) (hg' : ∀ x, x ≠ u → x ≠ v → g' x = g x) : Paired f' g' := by
  refine Paired.add (InverseTables.erase h hf) (update_self _ _ _)
    (by rwa [update_of_ne hne]) hp hv (fun x hx => ?_) (fun x hx => ?_)
  · rw [update_of_ne hx, hf' x hx]
  · by_cases hxu : x = u
    · rw [hxu, update_self, hu]
    · rw [update_of_ne hxu, hg' x hxu hx]

end

namespace RpcWorld

variable {cfg : CtxCfg ι} {w w' w₁ : RpcWorld ι} {r x : ι} {A : Set ι} {cb : CompleteCb ι}
  {env : RpcEnv ι} {n : ℕ} {p q : Place ι}

/-! ### The invariant -/

/-- The RPC `r` is in the place `p`. -/
structure Fits (cfg : CtxCfg ι) (w : RpcWorld ι) (r : ι) (p : Place ι) : Prop where
  life : ∃ cb n, w.life r = p.life cb n ∧ (cfg.opcUriLookup r = false ↔ cb = .user)
  allows : p.Allows (cfg.opcUriLookup r) (w.state r)
  waits : w.Waits cfg r ↔ p = .waiting
  submit : r ∈ w.base.submit ↔ p = .submitting

/-- Every RPC is in one place. -/
structure Good (cfg : CtxCfg ι) (w : RpcWorld ι) : Prop where
  inv : w.base.Inv cfg
  place : ∀ r, ∃ p, Fits cfg w r p
  paired : Paired (fun x => (w.life x).crpUlReq) (fun x => (w.life x).owes)
  tracked : ∀ r ∈ w.base.tracked, (w.life r).crpCompleteCb ≠ none
  live : ∀ r, (w.life r).crpCompleteCb ≠ none → (w.life r).calls = 0 → r ∈ w.base.tracked

/-- Whoever is not affected stays in place, or gets a credit. -/
theorem Fits.moves (h : Fits cfg w x p) (hmoves : Apart cfg A w w') (hx : x ∉ A) :
    ∃ p', Fits cfg w' x p' := by
  have hlife := hmoves.life x hx
  by_cases hw : w.Waits cfg x
  · rcases hmoves.waiter x hx hw with ⟨hw', hst, hsub⟩ | ⟨hw', hst, hsub⟩
    · exact ⟨p, hlife ▸ h.life, hst ▸ h.allows, iff_of_true hw' (h.waits.mp hw),
        hsub.trans h.submit⟩
    · obtain rfl := h.waits.mp hw
      exact ⟨.submitting, hlife ▸ h.life, ⟨hst, h.allows.2⟩, iff_of_false hw' (by simp),
        iff_of_true hsub rfl⟩
  · obtain ⟨hw', hsub⟩ := hmoves.others x hx hw
    exact ⟨p, hlife ▸ h.life, hmoves.state x hx hw ▸ h.allows,
      iff_of_false hw' fun hp => hw (h.waits.mpr hp), hsub.trans h.submit⟩

section

variable (h : Good cfg w)

include h

/-- The invariant after a step, from where it leaves the RPCs it is about. -/
theorem Good.of_moves (hmoves : Apart cfg A w w') (hplace : ∀ x ∈ A, ∃ p, Fits cfg w' x p)
    (hpaired : Paired (fun x => (w'.life x).crpUlReq) (fun x => (w'.life x).owes))
    (htracked : ∀ x ∈ A, x ∈ w'.base.tracked → (w'.life x).crpCompleteCb ≠ none) (hlive : ∀ x ∈ A,
    (w'.life x).crpCompleteCb ≠ none → (w'.life x).calls = 0 → x ∈ w'.base.tracked) : Good cfg w' where
  inv := hmoves.inv
  place x := by
    by_cases hx : x ∈ A
    · exact hplace x hx
    · obtain ⟨p, hp⟩ := h.place x
      exact hp.moves hmoves hx
  paired := hpaired
  tracked x hx := by
    by_cases hA : x ∈ A
    · exact htracked x hA hx
    · rw [hmoves.life x hA]
      exact h.tracked x ((hmoves.tracked x hA).mp hx)
  live x hcb hcalls := by
    by_cases hA : x ∈ A
    · exact hlive x hA hcb hcalls
    · rw [hmoves.life x hA] at hcb hcalls
      exact (hmoves.tracked x hA).mpr (h.live x hcb hcalls)

/-- The invariant after a step whose RPCs all wait for their callbacks. -/
theorem Good.of_landed (hmoves : Apart cfg A w w') (hlands : ∀ x ∈ A, (∃ p, Fits cfg w' x p) ∧
    (w'.life x).crpCompleteCb ≠ none ∧ x ∈ w'.base.tracked) (hpaired : Paired (fun x =>
    (w'.life x).crpUlReq) (fun x => (w'.life x).owes)) : Good cfg w' :=
  h.of_moves hmoves (fun x hx => (hlands x hx).1) hpaired (fun x hx _ => (hlands x hx).2.1)
    (fun x hx _ _ => (hlands x hx).2.2)

theorem Good.fresh (hcb : (w.life r).crpCompleteCb = none) : Fits cfg w r .fresh := by
  obtain ⟨p, hp⟩ := h.place r
  obtain ⟨cb, n, hlife, _⟩ := hp.life
  cases p with
  | fresh => exact hp
  | _ =>
    rw [hlife] at hcb
    exact absurd hcb (by simp [Place.life, sent])

theorem Good.spare (hnew : w.NewLookup cfg env) : Spare cfg w env.ulReq :=
  ⟨hnew.1, fun hw => by simpa using (h.fresh hnew.2).waits.mp hw, fun htr => h.tracked _ htr hnew.2⟩

theorem Good.life_new (hnew : w.NewLookup cfg env) : w.life env.ulReq = .init ι := by
  obtain ⟨cb, n, hlife, _⟩ := (h.fresh hnew.2).life
  exact hlife

end

/-- What a place for an RPC with the callback `cb` is like that is not on one of
the context's lists. -/
structure Lands (lookup : Bool) (cb : CompleteCb ι) (n : ℕ) (p : Place ι) (st : RpcState)
    (L : RpcLife ι) : Prop where
  life : L = p.life cb n
  allows : p.Allows lookup st
  waiting : p ≠ .waiting
  submitting : p ≠ .submitting
  ul : L.crpUlReq = none
  owes : L.owes = (RpcLife.sent cb n).owes
  sent : L.crpCompleteCb ≠ none

theorem SentAs.lands {st : RpcState} {life : RpcLife ι}
    (h : SentAs (.sent cb n) st life) (lookup : Bool) : ∃ p, Lands lookup cb n p st life := by
  cases h with
  | wire => exact ⟨.wire, rfl, rfl, by simp, by simp, rfl, rfl, by simp [sent]⟩
  | unreach => exact ⟨.unreach, rfl, rfl, by simp, by simp, rfl, rfl, by simp [sent]⟩
  | addr => exact ⟨.addr, rfl, rfl, by simp, by simp, rfl, rfl, by simp [sent]⟩

theorem LookupSent.lands {u : ι} (h : LookupSent r u w w') (hlife : w.life u = .init ι) :
    ∃ p, Lands true (.uriLookup r) 0 p (w'.state u) (w'.life u) := by
  rw [LookupSent, hlife] at h
  rcases h with h | ⟨rc, hl, hs⟩
  · exact SentAs.lands h true
  · exact ⟨.failed rc, hl, ⟨hs, rfl⟩, by simp, by simp, by rw [hl]; rfl, by rw [hl]; rfl,
      by simp [hl]⟩

theorem Lands.fits (h : Lands (cfg.opcUriLookup r) cb n p (w.state r) (w.life r))
    (hkind : cfg.opcUriLookup r = false ↔ cb = .user) (hwaits : ¬ w.Waits cfg r)
    (hsubmit : r ∉ w.base.submit) : Fits cfg w r p :=
  ⟨⟨cb, n, h.life, hkind⟩, h.allows, iff_of_false hwaits h.waiting, iff_of_false hsubmit h.submitting⟩

/-- Since `w` only `r` was touched; it is on no list, and its callback is still
to be invoked. -/
structure Held (cfg : CtxCfg ι) (r : ι) (cb : CompleteCb ι) (n : ℕ) (w w₁ : RpcWorld ι) : Prop where
  apart : Apart cfg {r} w w₁
  kind : cfg.opcUriLookup r = false ↔ cb = .user
  waits : ¬ w₁.Waits cfg r
  submit : r ∉ w₁.base.submit
  ul : (w.life r).crpUlReq = none
  owes : (w.life r).owes = (RpcLife.sent cb n).owes
  tracked : cb ≠ .user → r ∈ w₁.base.tracked

theorem Held.moves (h : Held cfg r cb n w w₁) (hmoves : Moves cfg {r} w₁ w') :
    Held cfg r cb n w w' where
  apart := h.apart.trans hmoves.toApart
  kind := h.kind
  waits := (hmoves.stays r h.waits).1
  submit := (hmoves.stays r h.waits).2.not.mpr h.submit
  ul := h.ul
  owes := h.owes
  tracked hcb := hmoves.kept (h.tracked hcb)

theorem Good.uri (h : Good cfg w) {p u : ι} (hul : (w.life p).crpUlReq = some u) :
    Fits cfg w p (.uri u) := by
  obtain ⟨q, hq⟩ := h.place p
  obtain ⟨cb, n, hlife, _⟩ := hq.life
  cases q with
  | uri u' =>
    rw [hlife] at hul
    exact Option.some.inj hul ▸ hq
  | _ =>
    rw [hlife] at hul
    exact absurd hul (by simp [Place.life, sent, init])

theorem completeState_allowed (rc : ℤ) (lookup : Bool) :
    (Place.done false false : Place ι).Allows lookup (completeState rc) := by
  refine ⟨fun h => absurd h Bool.false_ne_true, fun h => absurd h Bool.false_ne_true, ?_⟩
  rw [completeState]
  split
  · exact .inr (.inl rfl)
  split
  · exact .inr (.inr (.inl rfl))
  split
  · exact .inr (.inr (.inr rfl))
  · exact .inl rfl

/-- Where the callback has been invoked. -/
theorem Place.of_called (hq : (q.life cb n).calls ≠ 0) :
    (q.life cb n).crpCompleteCb = some cb ∧ (q.life cb n).crpUlReq = none ∧
      (q.life cb n).owes = none ∧ q ≠ .waiting ∧ q ≠ .submitting := by
  cases q with
  | finishing st | done late sent =>
    refine ⟨rfl, rfl, ?_, by simp, by simp⟩
    cases cb <;> rfl
  | _ => exact absurd rfl hq

/-! ### Sending -/

variable [DecidableEq ι]

/-- A step about one RPC that leaves the requests alone. -/
theorem Good.of_one (h : Good cfg w) (hmoves : Apart cfg {r} w w') (hfits : Fits cfg w' r p)
    (hul : (w'.life r).crpUlReq = (w.life r).crpUlReq) (howes : (w'.life r).owes = (w.life r).owes)
    (htracked : r ∈ w'.base.tracked → (w'.life r).crpCompleteCb ≠ none)
    (hlive : (w'.life r).crpCompleteCb ≠ none → (w'.life r).calls = 0 → r ∈ w'.base.tracked) :
    Good cfg w' := by
  refine h.of_moves hmoves (fun x hx => Set.mem_singleton_iff.mp hx ▸ ⟨p, hfits⟩) ?_
    (fun x hx => Set.mem_singleton_iff.mp hx ▸ htracked)
    (fun x hx => Set.mem_singleton_iff.mp hx ▸ hlive)
  have hsame : ∀ field : RpcLife ι → Option ι, field (w'.life r) = field (w.life r) →
      (fun x => field (w'.life x)) = fun x => field (w.life x) := by
    intro field hr
    funext x
    by_cases hx : x = r
    · rw [hx, hr]
    · rw [hmoves.life x hx]
  exact cast (congrArg₂ Paired (hsame _ hul) (hsame _ howes)).symm h.paired

section

variable (h : Good cfg w) (hnew : w.NewLookup cfg env)

include h hnew

/-- Sending `r` on: it comes to a place, or is still to be completed. -/
theorem Good.send (hheld : Held cfg r cb n w w₁)
    (hlife : w₁.life r = .sent cb n) (htracked : r ∈ w₁.base.tracked) (hur : env.ulReq ≠ r) :
    Fine (w₁.crtReqSendInternal cfg env r) fun res => res.1 = 0 ∧ Good cfg res.2 ∨
      res.1 ≠ 0 ∧ Held cfg r cb n w res.2 ∧ res.2.life r = .sent cb n ∧ res.2.state r = .inited := by
  have hheld' := hheld
  obtain ⟨hmoves, hkind, hwaits, hsubmit, hul, howes, _⟩ := hheld'
  have hur' : env.ulReq ∉ ({r} : Set ι) := hur
  refine (crtReqSendInternal_spec env hmoves.inv ((h.spare hnew).moves hmoves hur') hwaits
    htracked).mono ?_
  rintro ⟨rc, w'⟩ (⟨hm, ⟨hrc, hsent⟩ | ⟨hrc, hl, hs⟩⟩ | hlook)
  · obtain ⟨hw', hsub'⟩ := hm.stays r hwaits
    rw [hlife] at hsent
    obtain ⟨p, hp⟩ := hsent.lands (cfg.opcUriLookup r)
    exact .inl ⟨hrc, h.of_one (hmoves.trans hm.toApart) (hp.fits hkind hw' (hsub'.not.mpr hsubmit))
      (hp.ul.trans hul.symm) (hp.owes.trans howes.symm) (fun _ => hp.sent)
      (fun _ _ => hm.kept htracked)⟩
  · exact .inr ⟨hrc, hheld.moves hm, hl.trans hlife, hs⟩
  · -- `r` waits for the request, which has been sent
    refine .inl ⟨hlook.rc, ?_⟩
    have hm := hlook.moves
    have hopc := hlook.ordinary
    obtain rfl := hkind.mp hopc
    have hinit := h.life_new hnew
    have hinit₁ : w₁.life env.ulReq = .init ι := (hmoves.life _ hur').trans hinit
    obtain ⟨q, hq⟩ := hlook.lookup.lands hinit₁
    obtain ⟨hw', hsub'⟩ := hm.stays r hwaits
    have huspare := (h.spare hnew).moves hmoves hur'
    obtain ⟨huw, husub⟩ := hm.stays _ huspare.waits
    have husubmit : env.ulReq ∉ w'.base.submit := by
      rw [husub, (hmoves.others _ hur' (h.spare hnew).waits).2, (h.fresh hnew.2).submit]
      simp
    have hl := hlook.life
    rw [hlife] at hl
    dsimp only at hl
    have hother : ∀ x, x ≠ r → x ≠ env.ulReq → w'.life x = w.life x := fun x hx hxu =>
      (hm.life x (by simp [hx, hxu])).trans (hmoves.life x hx)
    refine h.of_landed ((hmoves.mono (by simp)).trans hm.toApart) (fun x hx => ?_) ?_
    · rcases hx with rfl | rfl
      · exact ⟨⟨.uri env.ulReq, ⟨.user, n, hl, hkind⟩, ⟨hlook.state, hopc⟩,
          iff_of_false hw' (by simp), iff_of_false (hsub'.not.mpr hsubmit) (by simp)⟩,
          by simp [hl, sent], hm.kept htracked⟩
      · rw [← hnew.1] at hq
        exact ⟨⟨q, hq.fits (by simp [hnew.1]) huw husubmit⟩, hq.sent, hlook.tracked⟩
    · refine h.paired.add (p := r) (u := env.ulReq) hul (by rw [hinit]; rfl) (by rw [hl]) hq.owes
        (fun x hx => ?_) (fun x hxu => ?_)
      · by_cases hxu : x = env.ulReq
        · rw [hxu, hinit, hq.ul]
          rfl
        · rw [hother x hx hxu]
      · by_cases hx : x = r
        · rw [hx, hl, howes]
          rfl
        · rw [hother x hx hxu]

/-- The callback of a lookup request: from a world in which the request `u₀` is
through, its RPC goes on. -/
theorem Good.onward {u₀ p : ι} (hmoves : Apart cfg {u₀} w w₁) (hopc : cfg.opcUriLookup u₀ = true)
    (howes : (w.life u₀).owes = some p) (hul₀ : (w.life u₀).crpUlReq = none)
    (hfits : Fits cfg w₁ u₀ q) (howes₁ : (w₁.life u₀).owes = none)
    (hul₁ : (w₁.life u₀).crpUlReq = none) (hcb₁ : (w₁.life u₀).crpCompleteCb ≠ none)
    (htr₁ : u₀ ∈ w₁.base.tracked) (rc : ℤ) :
    Fine (w₁.crtReqUriLookupByRpcCb cfg env p u₀ rc) (Good cfg) := by
  have hul : (w.life p).crpUlReq = some u₀ := (h.paired p u₀).mpr howes
  have hp := h.uri hul
  obtain ⟨cb, n, hlife, hkind⟩ := hp.life
  obtain ⟨hst, hopcp⟩ := hp.allows
  obtain rfl := hkind.mp hopcp
  have hpu : p ≠ u₀ := fun heq => Bool.false_ne_true (hopcp.symm.trans (heq ▸ hopc))
  have hpw : ¬ w.Waits cfg p := fun hw => by simpa using hp.waits.mp hw
  have hpsub : p ∉ w.base.submit := fun hs => by simpa using hp.submit.mp hs
  have hptr : p ∈ w.base.tracked := h.live p (by rw [hlife]; simp [Place.life, sent])
    (by rw [hlife]; rfl)
  -- `p` is untouched up to here
  have hpu' : p ∉ ({u₀} : Set ι) := hpu
  obtain ⟨hpw₁, hpsub₁⟩ := hmoves.others p hpu' hpw
  have hlife₁ : w₁.life p = { sent .user n with crpUlReq := some u₀ } :=
    (hmoves.life p hpu').trans hlife
  have hspare := h.spare hnew
  have hnu : env.ulReq ≠ u₀ := fun heq => by
    have := hnew.2
    rw [heq] at this
    simp [owes, this] at howes
  refine (crtReqUriLookupByRpcCb_spec env hmoves.inv (hspare.moves hmoves hnu) hpw₁
    (hmoves.kept hptr) ((hmoves.state p hpu' hpw).trans hst) (by rw [hlife₁])
    (by rw [hlife₁]; simp [sent]) rc).mono fun w' honward => ?_
  have hu₀p : u₀ ∉ ({p} : Set ι) := hpu.symm
  -- where `p` is not looking again, the pair is gone
  have hrest : ∀ hm : Moves cfg {p} w₁ w', (∃ q', Fits cfg w' p q') →
      (w'.life p).crpUlReq = none → (w'.life p).owes = none →
      (w'.life p).crpCompleteCb ≠ none → Good cfg w' := by
    intro hm hq' hulp howesp hcbp
    refine h.of_landed ((hmoves.mono (B := {u₀, p}) (by simp)).trans (hm.toApart.mono (by simp)))
      (fun x hx => ?_) ?_
    · rcases hx with rfl | rfl
      · exact ⟨hfits.moves hm.toApart hu₀p, by rwa [hm.life _ hu₀p], hm.kept htr₁⟩
      · exact ⟨hq', hcbp, hm.kept (hmoves.kept hptr)⟩
    · refine h.paired.cut hul hulp (by rw [hm.life _ hu₀p, howes₁]) (fun x hx => ?_)
        (fun x hxu => ?_)
      · rw [hm.life x hx]
        by_cases hxu : x = u₀
        · rw [hxu, hul₀, hul₁]
        · rw [hmoves.life x hxu]
      · by_cases hx : x = p
        · rw [hx, howesp, hlife]
          rfl
        · rw [hm.life x hx, hmoves.life x hxu]
  have hkind' : cfg.opcUriLookup p = false ↔ (.user : CompleteCb ι) = .user := by simp [hopcp]
  cases honward with
  | sent n' hm hsent =>
    rw [hlife₁] at hsent
    obtain ⟨q', hq'⟩ := SentAs.lands (show SentAs (.sent .user n') _ _ from hsent) (cfg.opcUriLookup p)
    obtain ⟨hw', hsub'⟩ := hm.stays p hpw₁
    exact hrest hm ⟨q', hq'.fits hkind' hw' (hsub'.not.mpr (hpsub₁.not.mpr hpsub))⟩ hq'.ul hq'.owes
      hq'.sent
  | done n' rc' hm hs hl =>
    rw [hlife₁] at hl
    obtain ⟨hw', hsub'⟩ := hm.stays p hpw₁
    refine hrest hm ⟨.done false false, ⟨.user, n', hl, hkind'⟩, ?_, iff_of_false hw' (by simp),
      iff_of_false (hsub'.not.mpr (hpsub₁.not.mpr hpsub)) (by simp)⟩ (by rw [hl]) (by rw [hl]; rfl)
      (by rw [hl]; simp [sent])
    rw [hs]
    exact completeState_allowed rc' _
  | looking n' hm hs hl hlookup htr =>
    rw [hlife₁] at hl
    have hinit := h.life_new hnew
    have hinit₁ : w₁.life env.ulReq = .init ι := (hmoves.life _ hnu).trans hinit
    obtain ⟨q', hq'⟩ := hlookup.lands hinit₁
    rw [← hnew.1] at hq'
    obtain ⟨hw', hsub'⟩ := hm.stays p hpw₁
    obtain ⟨huw, husub⟩ := hm.stays _ (hspare.moves hmoves hnu).waits
    have husubmit : env.ulReq ∉ w'.base.submit := by
      rw [husub, (hmoves.others _ hnu hspare.waits).2, (h.fresh hnew.2).submit]
      simp
    have hu₀ : u₀ ∉ ({p, env.ulReq} : Set ι) := by simp [hpu.symm, hnu.symm]
    refine h.of_landed ((hmoves.mono (B := {u₀, p, env.ulReq}) (by simp)).trans
      (hm.toApart.mono (by simp))) (fun x hx => ?_) ?_
    · rcases hx with rfl | rfl | rfl
      · exact ⟨hfits.moves hm.toApart hu₀, by rwa [hm.life _ hu₀], hm.kept htr₁⟩
      · exact ⟨⟨.uri env.ulReq, ⟨.user, n', hl, hkind'⟩, ⟨hs, hopcp⟩, iff_of_false hw' (by simp),
          iff_of_false (hsub'.not.mpr (hpsub₁.not.mpr hpsub)) (by simp)⟩,
          by simp [hl, sent], hm.kept (hmoves.kept hptr)⟩
      · exact ⟨⟨q', hq'.fits (by simp [hnew.1]) huw husubmit⟩, hq'.sent, htr⟩
    · refine h.paired.renew hul (v := env.ulReq) (by rw [hinit]; rfl) hnu (by rw [hl])
        (by rw [hm.life _ hu₀, howes₁]) hq'.owes (fun x hx => ?_) (fun x hxu hxn => ?_)
      · by_cases hxn : x = env.ulReq
        · rw [hxn, hinit, hq'.ul]
          rfl
        · rw [hm.life x (by simp [hx, hxn])]
          by_cases hxu : x = u₀
          · rw [hxu, hul₀, hul₁]
          · rw [hmoves.life x hxu]
      · by_cases hx : x = p
        · rw [hx, hl, hlife]
          rfl
        · rw [hm.life x (by simp [hx, hxn]), hmoves.life x hxu]

/-! ### Completion -/

/-- The callback of `r`, which then is in the place `q`. -/
theorem Good.invoke (hheld : Held cfg r cb n w w₁)
    (hlife : { w₁.life r with calls := (w₁.life r).calls + 1 } = q.life cb n)
    (hallows : q.Allows (cfg.opcUriLookup r) (w₁.state r)) (rc : ℤ) :
    Fine (w₁.invoke cfg env r rc) (Good cfg) := by
  have hcalls : (q.life cb n).calls ≠ 0 := by
    rw [← hlife]
    exact Nat.succ_ne_zero _
  obtain ⟨hcb, hul, howes, hwaiting, hsubmitting⟩ := Place.of_called hcalls
  have hcb₁ : (w₁.life r).crpCompleteCb = some cb := by
    rw [← hcb, ← hlife]
  have hcalled : w₁.called r = w₁.setLife r (q.life cb n) := by
    rw [called, if_neg (by simp [hcb₁]), hlife]
  have hmoves := moves_setLife hheld.apart.inv r (q.life cb n)
  have hlife₂ := life_setLife_self w₁ r (q.life cb n)
  have hheld' := hheld.moves hmoves
  have hfits : Fits cfg (w₁.setLife r (q.life cb n)) r q :=
    ⟨⟨cb, n, hlife₂, hheld.kind⟩, hallows, iff_of_false hheld'.waits hwaiting,
      iff_of_false hheld'.submit hsubmitting⟩
  rw [RpcWorld.invoke, hcb₁]
  cases cb with
  | user =>
    rw [hcalled]
    refine Fine.ok (h.of_one hheld'.apart hfits ?_ ?_ (fun _ => ?_) (fun _ h0 => ?_))
    · rw [hlife₂, hul, hheld.ul]
    · rw [hlife₂, howes, hheld.owes]
      rfl
    · rw [hlife₂, hcb]
      simp
    · rw [hlife₂] at h0
      exact absurd h0 hcalls
  | uriLookup p =>
    have hopc : cfg.opcUriLookup r = true := by
      rw [← Bool.not_eq_false, hheld.kind]
      simp
    rw [hcalled]
    exact h.onward hnew hheld'.apart hopc hheld.owes hheld.ul hfits (by rw [hlife₂, howes])
      (by rw [hlife₂, hul]) (by rw [hlife₂, hcb]; simp) (hheld'.tracked (by simp)) rc

/-- **`crt_rpc_complete`** of an RPC for which at most the lookup of its address
is outstanding. -/
theorem Good.complete (late : Bool) (hheld : Held cfg r cb n w w₁) {rc : ℤ}
    (hlife : w₁.life r = { sent cb n with addrPending := late })
    (hlate : late = true → completeState rc = .fwdUnreach) :
    Fine (w₁.crtRpcComplete cfg env r rc) (Good cfg) := by
  refine h.invoke hnew (hheld.moves (moves_setState hheld.apart.inv r _)) (q := .done late false)
    (by rw [life_setState, hlife]; rfl) ?_ rc
  rw [state_setState_self]
  exact ⟨hlate, (completeState_allowed (ι := ι) rc (cfg.opcUriLookup r)).2⟩

theorem Good.untrackAndComplete (late : Bool)
    (hheld : Held cfg r cb n w w₁) {rc : ℤ} (hst : (w₁.state r).untrackable = true)
    (hlife : w₁.life r = { sent cb n with addrPending := late })
    (hlate : late = true → completeState rc = .fwdUnreach) :
    Fine (w₁.untrackAndComplete cfg env r rc) (Good cfg) := by
  refine Fine.bind (untrack_spec env hheld.apart.inv hheld.waits (.inr hst)) ?_
  rintro w₂ ⟨hmoves, hlife₂⟩
  exact h.complete hnew late (hheld.moves (hmoves.mono (Set.empty_subset _)))
    ((congrFun hlife₂ r).trans hlife) hlate

end

end RpcWorld

end Cart
