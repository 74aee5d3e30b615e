/-
The completion callback of an RPC is invoked once.

This is so as long as nobody aborts an RPC that others still refer to (`Careful`):
`crt_req_abort` completes an RPC without taking it off the wait queue or the wire.

Main results: `good_invariant`, `rpc_completes_at_most_once`,
`rpc_abort_completes_twice`, `rpc_lost_iff`.
-/
import Cart.RpcPlace

open Function List Option

namespace Cart

open RpcLife

namespace RpcWorld

variable {ι : Type} [DecidableEq ι] {cfg : CtxCfg ι} {w w' w₁ : RpcWorld ι} {r x : ι}
  {env : RpcEnv ι}

omit [DecidableEq ι] in
theorem Good.of_base (h : Good cfg w) (hmoves : Moves cfg ∅ w w') (hlife : w'.life = w.life) :
    Good cfg w' := by
  refine h.of_moves hmoves.toApart (fun x hx => absurd hx (Set.notMem_empty x)) ?_
    (fun x hx => absurd hx (Set.notMem_empty x)) (fun x hx => absurd hx (Set.notMem_empty x))
  rw [hlife]
  exact h.paired

omit [DecidableEq ι] in
/-- An RPC in a place without a list whose callback is to come. -/
theorem Good.held (h : Good cfg w) {p : Place ι} {cb : CompleteCb ι} {n : ℕ} (hp : Fits cfg w r p)
    (hlife : w.life r = p.life cb n) (hkind : cfg.opcUriLookup r = false ↔ cb = .user)
    (hcb : (p.life cb n).crpCompleteCb = some cb) (hcalls : (p.life cb n).calls = 0)
    (hul : (p.life cb n).crpUlReq = none) (hwaiting : p ≠ .waiting) (hsubmitting : p ≠ .submitting) :
    Held cfg r cb n w w where
  apart := (Moves.refl h.inv {r}).toApart
  kind := hkind
  waits hw := hwaiting (hp.waits.mp hw)
  submit hs := hsubmitting (hp.submit.mp hs)
  ul := by rw [hlife, hul]
  owes := by
    rw [hlife, owes, hcb, hcalls]
    rfl
  tracked _ := h.live r (by rw [hlife, hcb]; simp) (by rw [hlife, hcalls])

/-! ### Sending -/

section

variable (h : Good cfg w) (hnew : w.NewLookup cfg env)

include h hnew

theorem Good.crtReqSend (hcb : (w.life r).crpCompleteCb = none) (hopc : cfg.opcUriLookup r = false) :
    Fine (w.crtReqSend cfg env r) (Good cfg) := by
  have hfresh := h.fresh hcb
  have hinit : w.life r = .init ι := by
    obtain ⟨cb, n, hlife, _⟩ := hfresh.life
    exact hlife
  have hur : env.ulReq ≠ r := fun heq => Bool.false_ne_true (hopc.symm.trans (heq ▸ hnew.1))
  -- the callback is noted
  have hmoves := moves_setLife h.inv r (.sent .user 0)
  have hheld : Held cfg r .user 0 w (w.setLife r (.sent .user 0)) :=
    ⟨hmoves.toApart, by simp [hopc], fun hw => by simpa using hfresh.waits.mp hw,
      fun hs => by simpa using hfresh.submit.mp hs, by rw [hinit]; rfl, by rw [hinit]; rfl,
      fun hne => absurd rfl hne⟩
  have hlife := life_setLife_self w r (.sent .user 0)
  have hntr : r ∉ (w.setLife r (.sent .user 0)).base.tracked := fun htr => h.tracked r htr hcb
  rw [RpcWorld.crtReqSend,
    show { w.life r with crpCompleteCb := some .user } = sent .user 0 by rw [hinit]; rfl]
  generalize w.setLife r (.sent .user 0) = w₁ at hmoves hheld hlife hntr ⊢
  have hsend : Fine (if env.haveEp = false then .ok (-derInval, w₁)
      else w₁.trackAndSend (fun w => w.crtReqSendInternal cfg env r) cfg env r) fun res =>
        res.1 = 0 ∧ Good cfg res.2 ∨
          res.1 ≠ 0 ∧ Held cfg r .user 0 w res.2 ∧ res.2.life r = .sent .user 0 := by
    split
    · exact Fine.ok (.inr ⟨by simp [derInval, derErrGurtBase], hheld, hlife⟩)
    refine Fine.bind (Fine.ofCtx fun res hres => hres) ?_
    rintro ⟨res, base⟩ htrack
    obtain ⟨hmem, hsubmit, ⟨rfl, hapart, hst, hwaits⟩ | ⟨hres, hm⟩⟩ :=
      track_spec hheld.apart.inv hopc hntr htrack
    · -- no credit: `r` waits
      refine Fine.ok (.inl ⟨rfl, ?_⟩)
      refine h.of_one (hheld.apart.trans hapart) (p := .waiting)
        ⟨⟨.user, 0, hlife, hheld.kind⟩, ⟨hst, hopc⟩, iff_of_true hwaits rfl, ?_⟩ ?_ ?_
        (fun _ => ?_) (fun _ _ => hmem)
      · rw [hsubmit]
        exact iff_of_false hheld.submit (by simp)
      · rw [hinit, hlife]
        rfl
      · rw [hinit, hlife]
        rfl
      · rw [hlife]
        simp [sent]
    have hheld' := hheld.moves hm
    rcases hres with rfl | ⟨rc, hrc, rfl⟩
    · refine Fine.bind (h.send hnew hheld' hlife hmem hur) ?_
      rintro ⟨rc, w₂⟩ (⟨hrc, hgood⟩ | ⟨hrc, hheld₂, hlife₂, hst₂⟩)
      · obtain rfl : rc = 0 := hrc
        exact Fine.ok (.inl ⟨rfl, hgood⟩)
      · dsimp only at hrc ⊢
        rw [if_neg hrc]
        refine Fine.map (untrack_spec env hheld₂.apart.inv hheld₂.waits (.inr ?_)) ?_
        · rw [show w₂.state r = .inited from hst₂]
          rfl
        · rintro w₃ ⟨hm₃, hlife₃⟩
          exact .inr ⟨hrc, hheld₂.moves (hm₃.mono (Set.empty_subset _)),
            (congrFun hlife₃ r).trans hlife₂⟩
    · exact Fine.ok (.inr ⟨hrc, hheld', hlife⟩)
  refine Fine.bind hsend ?_
  rintro ⟨rc, w₂⟩ (⟨hrc, hgood⟩ | ⟨hrc, hheld₂, hlife₂⟩)
  · obtain rfl : rc = 0 := hrc
    exact Fine.ok hgood
  · dsimp only at hrc ⊢
    rw [if_neg hrc]
    exact h.complete hnew false hheld₂ hlife₂ (by simp)

theorem Good.resubmit (hr : r ∈ w.base.submit) : Fine (w.resubmit cfg env r) (Good cfg) := by
  obtain ⟨p, hp⟩ := h.place r
  obtain rfl := hp.submit.mp hr
  obtain ⟨cb, n, hlife, hkind⟩ := hp.life
  have hwaits : ¬ w.Waits cfg r := fun hw => by simpa using hp.waits.mp hw
  have htracked : r ∈ w.base.tracked :=
    h.live r (by rw [hlife]; simp [Place.life, sent]) (by rw [hlife]; rfl)
  have hur : env.ulReq ≠ r := fun heq => (h.spare hnew).tracked (heq ▸ htracked)
  rw [RpcWorld.resubmit]
  have hheld : Held cfg r cb n w
      { w with base := { w.base with submit := w.base.submit.filter fun x => x ≠ r } } := by
    refine ⟨.of_waits (h.inv.congr rfl (List.Subset.refl _) rfl) (fun _ _ => rfl) (fun _ _ => rfl)
      (fun _ _ => Iff.rfl) (fun x hx => ?_) (fun _ _ => Iff.rfl) (List.Subset.refl _), hkind, hwaits,
      by simp, by rw [hlife]; rfl, by rw [hlife]; rfl, fun _ => htracked⟩
    have hxr : x ≠ r := hx
    simp [hxr]
  refine Fine.bind (h.send hnew hheld hlife htracked hur) ?_
  rintro ⟨rc, w₂⟩ (⟨hrc, hgood⟩ | ⟨hrc, hheld₂, hlife₂, hst₂⟩)
  · obtain rfl : rc = 0 := hrc
    exact Fine.ok hgood
  · dsimp only at hrc ⊢
    rw [if_neg hrc]
    refine h.untrackAndComplete hnew false
      (hheld₂.moves (moves_setState hheld₂.apart.inv r .inited)) ?_ hlife₂ (by simp)
    rw [state_setState_self]
    rfl

/-! ### Callbacks -/

theorem Good.crtReqHgAddrLookupCb (hr : (w.life r).addrPending = true) :
    Fine (w.crtReqHgAddrLookupCb cfg env r) (Good cfg) := by
  obtain ⟨p, hp⟩ := h.place r
  obtain ⟨cb, n, hlife, hkind⟩ := hp.life
  have hmoves := moves_setLife h.inv r { w.life r with addrPending := false }
  have hlife₁ := life_setLife_self w r { w.life r with addrPending := false }
  rw [hlife] at hr
  rw [RpcWorld.crtReqHgAddrLookupCb]
  cases p with
  | addr =>
    have hheld := (h.held hp hlife hkind rfl rfl rfl (by simp) (by simp)).moves hmoves
    have hl : (w.setLife r { w.life r with addrPending := false }).life r = .sent cb n := by
      rw [hlife₁, hlife]
      rfl
    have htracked : r ∈ w.base.tracked :=
      h.live r (by rw [hlife]; simp [Place.life, sent]) (by rw [hlife]; rfl)
    have hur : env.ulReq ≠ r := fun heq => (h.spare hnew).tracked (heq ▸ htracked)
    have hst : w.state r = .addrLookup := hp.allows
    rw [state_setLife, if_neg (by simp [hst])]
    split
    · refine h.untrackAndComplete hnew false
        (hheld.moves (moves_setState hheld.apart.inv r .fwdUnreach)) ?_ hl (by simp)
      rw [state_setState_self]
      rfl
    · refine Fine.bind (h.send hnew hheld hl htracked hur) ?_
      rintro ⟨rc, w₂⟩ (⟨hrc, hgood⟩ | ⟨hrc, hheld₂, hlife₂, hst₂⟩)
      · obtain rfl : rc = 0 := hrc
        exact Fine.ok hgood
      · dsimp only at hrc hst₂ ⊢
        rw [if_neg hrc]
        refine h.untrackAndComplete hnew false hheld₂ ?_ hlife₂ (by simp)
        rw [hst₂]
        rfl
  | done late sent =>
    -- the RPC has timed out meanwhile
    obtain rfl : late = true := hr
    have hst := hp.allows.1 rfl
    rw [state_setLife, if_pos hst]
    refine Fine.ok (h.of_one hmoves.toApart (p := .done false sent) ⟨⟨cb, n, ?_, hkind⟩,
      ⟨by simp, hp.allows.2⟩, iff_of_false (fun hw => ?_) (by simp),
      iff_of_false (fun hs => ?_) (by simp)⟩ ?_ ?_ (fun htr => ?_) fun _ h0 => ?_)
    · rw [hlife₁, hlife]
      rfl
    · simpa using hp.waits.mp hw
    · simpa using hp.submit.mp hs
    · rw [hlife₁]
    · rw [hlife₁]
      rfl
    · rw [hlife₁]
      exact h.tracked r htr
    · rw [hlife₁, hlife] at h0
      exact absurd h0 one_ne_zero
  | _ => exact absurd hr Bool.false_ne_true

theorem Good.crtHgReqSendCb (hr : (w.life r).hgPending = true) (ret : HgRet) :
    Fine (w.crtHgReqSendCb cfg env r ret) (Good cfg) := by
  obtain ⟨p, hp⟩ := h.place r
  obtain ⟨cb, n, hlife, hkind⟩ := hp.life
  rw [hlife] at hr
  cases p with
  | wire =>
    have hst : w.state r = .reqSent := hp.allows
    -- the callback, with the state `st` still to be set
    have hcalled : ∀ (st : RpcState), st = .completed ∨ st = .canceled → ∀ w₁ : RpcWorld ι,
        Moves cfg {r} w w₁ →
        w₁.life r = { w.life r with hgPending := false, finishing := some st } →
        (w₁.state r = .replyRecved ∨ w₁.state r = .reqSent ∨ w₁.state r = .canceled) → ∀ rc,
        Fine (w₁.invoke cfg env r rc) (Good cfg) := by
      intro st hst w₁ hm hl hs rc
      refine h.invoke hnew ((h.held hp hlife hkind rfl rfl rfl (by simp) (by simp)).moves hm)
        (q := .finishing st) ?_ ⟨hst, hs⟩ rc
      rw [hl, hlife]
      rfl
    have hm := fun st => moves_setLife h.inv r { w.life r with hgPending := false, finishing := some st }
    cases ret with
    | success =>
      exact hcalled .completed (.inl rfl) _ ((hm _).trans (moves_setState (hm _).inv r _))
        (life_setLife_self _ _ _) (.inl (state_setState_self _ _ _)) _
    | canceled =>
      exact hcalled .canceled (.inr rfl) _ ((hm _).trans (moves_setState (hm _).inv r _))
        (life_setLife_self _ _ _) (.inr (.inr (state_setState_self _ _ _))) _
    | error =>
      exact hcalled .completed (.inl rfl) _ (hm _) (life_setLife_self _ _ _) (.inr (.inl hst)) _
  | _ => exact absurd hr Bool.false_ne_true

end

theorem Good.hgFinish (h : Good cfg w) (hr : (w.life r).finishing ≠ none) :
    Fine (w.hgFinish cfg env r) (Good cfg) := by
  obtain ⟨p, hp⟩ := h.place r
  obtain ⟨cb, n, hlife, hkind⟩ := hp.life
  cases p with
  | finishing st =>
    have hfin : (w.life r).finishing = some st := by
      rw [hlife]
      rfl
    obtain ⟨hdone, _⟩ := hp.allows
    have hm₁ := moves_setLife h.inv r { w.life r with finishing := none }
    have hm := hm₁.trans (moves_setState hm₁.inv r st)
    have hwaits : ¬ w.Waits cfg r := fun hw => by simpa using hp.waits.mp hw
    have hsubmit : r ∉ w.base.submit := fun hs => by simpa using hp.submit.mp hs
    rw [RpcWorld.hgFinish, hfin]
    refine (untrack_spec env hm.inv (hm.stays r hwaits).1 (.inr ?_)).mono ?_
    · rw [state_setState_self]
      rcases hdone with rfl | rfl <;> rfl
    rintro w₂ ⟨hm₂, hlife₂⟩
    have hl : w₂.life r = Place.life cb n (.done false true) := by
      rw [hlife₂, life_setState, life_setLife_self, hlife]
      rfl
    have hs : w₂.state r = st := by
      rw [hm₂.state r (Set.notMem_empty r) (hm.stays r hwaits).1, state_setState_self]
    have hm' := hm.trans (hm₂.mono (Set.empty_subset _))
    obtain ⟨hwaits', hsubmit'⟩ := hm'.stays r hwaits
    refine h.of_one hm'.toApart (p := .done false true) ⟨⟨cb, n, hl, hkind⟩, ⟨by simp, fun _ => ?_, ?_⟩,
      iff_of_false hwaits' (by simp), iff_of_false (hsubmit'.not.mpr hsubmit) (by simp)⟩ ?_ ?_
      (fun _ => ?_) fun _ h0 => ?_
    · rw [hs]
      exact hdone
    · rw [hs]
      exact hdone.imp_right .inl
    · rw [hl, hlife]
      rfl
    · rw [hl, hlife]
      cases cb <;> rfl
    · rw [hl]
      simp [Place.life, sent]
    · rw [hl] at h0
      exact absurd h0 one_ne_zero
  | _ =>
    rw [hlife] at hr
    exact absurd rfl hr

theorem Good.lookupFailed (h : Good cfg w) (hnew : w.NewLookup cfg env)
    (hr : (w.life r).failed ≠ none) : Fine (w.lookupFailed cfg env r) (Good cfg) := by
  obtain ⟨p, hp⟩ := h.place r
  obtain ⟨cb, n, hlife, hkind⟩ := hp.life
  cases p with
  | failed rc =>
    have hfail : (w.life r).failed = some rc := by
      rw [hlife]
      rfl
    rw [RpcWorld.lookupFailed, hfail]
    refine h.complete hnew false ((h.held hp hlife hkind rfl rfl rfl (by simp) (by simp)).moves
      (moves_setLife h.inv r _)) ?_ (by simp)
    rw [life_setLife_self, hlife]
    rfl
  | _ =>
    rw [hlife] at hr
    exact absurd rfl hr

/-! ### Aborts and timeouts -/

/-- When `crt_req_abort` leaves an RPC alone, or nobody else refers to it. -/
def AbortOk (w : RpcWorld ι) (cancelRc : ℤ) (r : ι) : Prop :=
  w.state r = .canceled ∨ w.state r = .completed ∨
    w.state r = .reqSent ∧ (w.life r).crpOnWire = true ∧ cancelRc = 0 ∨
    w.state r = .fwdUnreach ∧ (w.life r).calls = 0 ∨
    w.state r = .inited ∧ (w.life r).crpCompleteCb = none
deriving Decidable

/-- The same for what `crt_req_timeout_hdlr` aborts or completes. -/
def TimeoutOk (w : RpcWorld ι) (cancelRc : ℤ) (r : ι) : Prop :=
  (w.state r = .uriLookup → ∀ u ∈ (w.life r).crpUlReq, w.AbortOk cancelRc u) ∧
    (w.state r = .fwdUnreach → (w.life r).calls = 0) ∧
    ((w.life r).crpOnWire = true → w.AbortOk cancelRc r)
deriving Decidable

/-- The timer of `r` is not renewed. -/
def TimesOut (cfg : CtxCfg ι) (w : RpcWorld ι) (env : RpcEnv ι) (r : ι) : Prop :=
  (w.base.ctx.crtReqTimeoutReset cfg (env.deadlines r) env.present r).map Prod.fst = some false

/-- A step that aborts nothing others refer to. -/
def Careful (cfg : CtxCfg ι) (w : RpcWorld ι) (e : RpcEnv ι × RpcEvent ι) : Prop :=
  match e.2 with
  | .abort r => w.AbortOk e.1.cancelRc r
  | .timeoutHdlr r => w.TimesOut cfg e.1 r → w.TimeoutOk e.1.cancelRc r
  | _ => True

section

variable (h : Good cfg w) (hnew : w.NewLookup cfg env)

include h hnew

theorem Good.crtReqAbort (hok : w.AbortOk env.cancelRc r) (hkind : cfg.opcUriLookup r = false ∨
    (w.life r).crpCompleteCb ≠ none) :
    Fine (w.crtReqAbort cfg env r) fun res => Good cfg res.2 ∧
      (res.1 ≠ 0 → res.2 = w ∧ (w.state r = .canceled ∨ w.state r = .completed)) := by
  rw [RpcWorld.crtReqAbort]
  rcases hok with hst | hst | ⟨hst, hwire, hrc⟩ | ⟨hst, hcalls⟩ | ⟨hst, hcb⟩
  · rw [if_pos (.inl hst)]
    exact Fine.ok ⟨h, fun _ => ⟨rfl, .inl hst⟩⟩
  · rw [if_pos (.inr hst)]
    exact Fine.ok ⟨h, fun _ => ⟨rfl, .inr hst⟩⟩
  · rw [if_neg (by simp [hst]), if_neg (by simp [hst, hwire]), if_neg (by simp [hrc])]
    exact Fine.ok ⟨h, fun hne => absurd rfl hne⟩
  · rw [if_neg (by simp [hst]), if_pos (.inl (by simp [hst]))]
    obtain ⟨p, hp⟩ := h.place r
    obtain ⟨cb, n, hlife, hcb⟩ := hp.life
    have hallows := hp.allows
    rw [hst] at hallows
    rw [hlife] at hcalls
    cases p with
    | unreach =>
      exact Fine.map (h.complete hnew false
        (h.held hp hlife hcb rfl rfl rfl (by simp) (by simp)) hlife (by simp))
        fun w' hgood => ⟨hgood, fun hne => absurd rfl hne⟩
    | finishing st | done late sent => exact absurd hcalls one_ne_zero
    | _ => simp [Place.Allows] at hallows
  · -- it was not sent: only the state is written
    rw [if_neg (by simp [hst]), if_pos (.inl (by simp [hst])), crtRpcComplete, RpcWorld.invoke,
      life_setState, hcb]
    rw [called, life_setState, if_pos hcb]
    have hfresh := h.fresh hcb
    have hmoves := moves_setState h.inv r (completeState (-derCanceled))
    refine ⟨h.of_one hmoves.toApart (p := .fresh) ⟨hfresh.life, ?_, hfresh.waits, hfresh.submit⟩ rfl rfl
      (fun htr => h.tracked r htr) (fun hne => absurd hcb hne), fun hne => absurd rfl hne⟩
    rw [state_setState_self]
    exact .inr ⟨by simp [completeState], hkind.resolve_right (not_not.mpr hcb)⟩

theorem Good.timedOut (hok : w.TimeoutOk env.cancelRc r) : Fine (w.timedOut cfg env r) (Good cfg) := by
  obtain ⟨hokUri, hokUnreach, hokWire⟩ := hok
  obtain ⟨p, hp⟩ := h.place r
  obtain ⟨cb, n, hlife, hkind⟩ := hp.life
  have hallows := hp.allows
  -- what is on the wire is aborted
  have hwire : Fine (if (w.life r).crpOnWire = true then (w.crtReqAbort cfg env r).bind fun res =>
      if res.1 ≠ 0 then res.2.untrack cfg env r else .ok res.2 else .ok w) (Good cfg) := by
    split_ifs with hwire
    · have hcb : (w.life r).crpCompleteCb ≠ none := fun hcb => by
        obtain ⟨_, _, hinit, _⟩ := (h.fresh hcb).life
        rw [hinit] at hwire
        exact Bool.false_ne_true hwire
      have hwaits : ¬ w.Waits cfg r := fun hw => by
        obtain rfl := hp.waits.mp hw
        rw [hlife] at hwire
        exact Bool.false_ne_true hwire
      refine Fine.bind (h.crtReqAbort hnew (hokWire hwire) (.inr hcb)) ?_
      rintro ⟨rc, w₂⟩ ⟨hgood, hrc⟩
      split_ifs with hne
      · obtain ⟨rfl, hst⟩ := hrc hne
        refine (untrack_spec env h.inv hwaits (.inr ?_)).mono fun w₃ hw₃ => h.of_base hw₃.1 hw₃.2
        rcases hst with hst | hst <;> rw [hst] <;> rfl
      · exact Fine.ok hgood
    · exact Fine.ok h
  rw [RpcWorld.timedOut]
  cases hst : w.state r with
  | uriLookup =>
    -- the request for the URI is aborted
    rw [hst] at hallows
    cases p with
    | uri u =>
      have hul : (w.life r).crpUlReq = some u := by
        rw [hlife]
        rfl
      have howes := owes_eq_some_iff.mp ((h.paired r u).mp hul)
      rw [hul]
      exact Fine.map (h.crtReqAbort hnew (hokUri hst u hul) (.inr (howes.1 ▸ some_ne_none _)))
        fun res hres => hres.1
    | _ => simp [Place.Allows] at hallows
  | addrLookup =>
    rw [hst] at hallows
    cases p with
    | addr =>
      refine h.untrackAndComplete hnew true
        (h.held hp hlife hkind rfl rfl rfl (by simp) (by simp)) (by rw [hst]; rfl) hlife fun _ => ?_
      simp [completeState, derUnreach, derCanceled, derTimedout]
    | _ => simp [Place.Allows] at hallows
  | fwdUnreach =>
    have hcalls := hokUnreach hst
    rw [hst] at hallows
    rw [hlife] at hcalls
    cases p with
    | unreach =>
      exact h.untrackAndComplete hnew false
        (h.held hp hlife hkind rfl rfl rfl (by simp) (by simp)) (by rw [hst]; rfl) hlife (by simp)
    | finishing st | done late sent => exact absurd hcalls one_ne_zero
    | _ => simp [Place.Allows] at hallows
  | inited | queued | reqSent | replyRecved | completed | canceled | timeout => exact hwire

theorem Good.crtReqTimeoutHdlr (hr : r ∈ w.base.expired)
    (hok : w.TimesOut cfg env r → w.TimeoutOk env.cancelRc r) :
    Fine (w.crtReqTimeoutHdlr cfg env r) (Good cfg) := by
  refine Fine.bind (Fine.ofCtx fun res hres => hres) ?_
  rintro ⟨reset, ctx⟩ hreset
  obtain ⟨htracked, hflag⟩ := h.inv.expired r hr
  have hwaits : ¬ w.Waits cfg r := fun hw => (h.inv.waiting _ r hw).2 hr
  obtain ⟨reset', ctx', heq, hheap, hre⟩ :=
    CrtContext.crtReqTimeoutReset_spec h.inv.heap hflag cfg (env.deadlines r) env.present
  obtain ⟨rfl, rfl⟩ := Prod.mk.inj (some.inj (heq.symm.trans hreset))
  -- the renewal concerns deadlines only
  obtain ⟨hmoves, hstate⟩ := moves_renewed h.inv hwaits htracked hheap hre
  have hgood := h.of_base hmoves rfl
  dsimp only
  split
  · exact Fine.ok hgood
  · rename_i hnot
    refine hgood.timedOut hnew ?_
    rw [TimeoutOk, hstate]
    simp only [AbortOk, hstate]
    exact hok (by rw [TimesOut, heq, map_some, Bool.of_not_eq_true hnot])

end

theorem Good.timeoutCheck (h : Good cfg w) (now : ℕ) :
    Fine (w.step cfg env (.timeoutCheck now)) (Good cfg) := by
  refine Fine.map (Fine.ofCtx fun base hbase => hbase) fun base hbase => ?_
  obtain ⟨⟨ctx, l⟩, hcheck, rfl⟩ := map_eq_some_iff.mp hbase
  obtain ⟨ctx', l', heq, hex⟩ := CrtContext.timeoutLoop_spec now _ h.inv.heap le_rfl
  obtain ⟨rfl, rfl⟩ := Prod.mk.inj (some.inj (heq.symm.trans hcheck))
  exact h.of_base (.of_epis (h.inv.timeoutCheck hex) (fun _ _ => rfl) (fun x _ => (hex.fields x).1)
    hex.epis rfl (fun _ _ => Iff.rfl) (List.Subset.refl _)) rfl

omit [DecidableEq ι] in
theorem epis_setEpi_self (s : CrtContext ι) (k : ℕ) (epi : CrtEpInflight ι) :
    (s.setEpi k epi).epis k = epi := update_self _ _ _

omit [DecidableEq ι] in
theorem epis_setEpi_of_ne (s : CrtContext ι) {j k : ℕ} (hj : j ≠ k) (epi : CrtEpInflight ι) :
    (s.setEpi k epi).epis j = s.epis j := update_of_ne hj _ _

omit [DecidableEq ι] in
/-- RPCs can be taken off a wait queue. -/
theorem inv_setEpi {s : CtxState ι} (h : s.Inv cfg) {k : ℕ} {epi : CrtEpInflight ι}
    (hreq : epi.epiReqQ = (s.ctx.epis k).epiReqQ)
    (hwait : epi.epiReqWaitq.Sublist (s.ctx.epis k).epiReqWaitq) :
    { s with ctx := s.ctx.setEpi k epi }.Inv cfg := by
  have hsub : ∀ j, ((s.ctx.setEpi k epi).epis j).epiReqWaitq.Sublist (s.ctx.epis j).epiReqWaitq ∧
      ((s.ctx.setEpi k epi).epis j).epiReqQ = (s.ctx.epis j).epiReqQ := by
    intro j
    by_cases hj : j = k
    · rw [hj, epis_setEpi_self]
      exact ⟨hwait, hreq⟩
    · rw [epis_setEpi_of_ne _ hj]
      exact ⟨Sublist.refl _, rfl⟩
  have hqueued : ∀ j, ((s.ctx.setEpi k epi).queued j).Sublist (s.ctx.queued j) := by
    intro j
    rw [CrtContext.queued, (hsub j).2, CrtContext.queued]
    exact (hsub j).1.append_left _
  exact ⟨CrtContext.heapOk_setEpi h.heap k _, fun j => (hqueued j).nodup (h.nodup j),
    fun j x hx => h.queued j x ((hqueued j).subset hx), h.untracked,
    fun j x hx => h.waiting j x ((hsub j).1.subset hx), h.expired⟩

theorem Good.epiAbort (h : Good cfg w) (hnew : w.NewLookup cfg env) (k : ℕ) :
    Fine (w.epiAbort cfg env k) (Good cfg) := by
  rw [RpcWorld.epiAbort]
  split
  · exact Fine.ok h
  rename_i r ws hq
  split
  · trivial
  have hmem : r ∈ (w.base.ctx.epis k).epiReqWaitq := by
    rw [hq]
    exact mem_cons_self
  obtain ⟨rfl, htracked⟩ := h.inv.mem_waitq hmem
  obtain ⟨p, hp⟩ := h.place r
  obtain rfl := hp.waits.mp hmem
  obtain ⟨cb, n, hlife, hkind⟩ := hp.life
  obtain ⟨hst, _⟩ := hp.allows
  rw [if_neg (not_not.mpr hst)]
  have hrws : r ∉ ws := by
    have hnd := h.inv.waitq_nodup (cfg.epRank r)
    rw [hq] at hnd
    exact (nodup_cons.mp hnd).1
  -- `r` is the only one that is taken off
  generalize hepi : ({ w.base.ctx.epis (cfg.epRank r) with
    epiReqWaitq := ws, epiReqWaitNum := (w.base.ctx.epis (cfg.epRank r)).epiReqWaitNum - 1 } :
      CrtEpInflight ι) = epi
  have hwaitq : epi.epiReqWaitq = ws := hepi ▸ rfl
  have hinv : { w.base with ctx := w.base.ctx.setEpi (cfg.epRank r) epi }.Inv cfg := by
    refine inv_setEpi h.inv (hepi ▸ rfl) ?_
    rw [hwaitq, hq]
    exact sublist_cons_self r ws
  have hself : ((w.base.ctx.setEpi (cfg.epRank r) epi).epis (cfg.epRank r)).epiReqWaitq = ws := by
    rw [epis_setEpi_self, hwaitq]
  have hother : ∀ x, x ≠ r →
      (x ∈ ((w.base.ctx.setEpi (cfg.epRank r) epi).epis (cfg.epRank x)).epiReqWaitq ↔
        x ∈ (w.base.ctx.epis (cfg.epRank x)).epiReqWaitq) := by
    intro x hx
    by_cases hk : cfg.epRank x = cfg.epRank r
    · rw [hk, hself, hq, mem_cons, or_iff_right hx]
    · rw [epis_setEpi_of_ne _ hk]
  have hheld : Held cfg r cb n w
      { w with base := { w.base with ctx := w.base.ctx.setEpi (cfg.epRank r) epi } } := by
    refine ⟨.of_waits hinv (fun _ _ => rfl) (fun _ _ => rfl) (fun x hx => hother x hx)
      (fun _ _ => Iff.rfl) (fun _ _ => Iff.rfl) (List.Subset.refl _), hkind, ?_, fun hs => ?_,
      by rw [hlife]; rfl, by rw [hlife]; rfl, fun _ => htracked⟩
    · rw [Waits, hself]
      exact hrws
    · simpa using hp.submit.mp hs
  exact h.complete hnew false hheld hlife (by simp)

/-! ### Runs -/

/-- **Every careful step** keeps every RPC in one place, and no assertion on a
state fails. -/
theorem Good.step (h : Good cfg w) {e : RpcEvent ι} (hnew : w.NewLookup cfg env)
    (henabled : w.Enabled cfg e) (hok : w.Careful cfg (env, e)) : Fine (w.step cfg env e) (Good cfg) := by
  cases e with
  | send r => exact h.crtReqSend hnew henabled.1 henabled.2
  | resubmit r => exact h.resubmit hnew henabled
  | addrLookupCb r => exact h.crtReqHgAddrLookupCb hnew henabled
  | hgReqSendCb r ret => exact h.crtHgReqSendCb hnew henabled ret
  | hgFinish r => exact h.hgFinish henabled
  | lookupFailed u => exact h.lookupFailed hnew henabled
  | timeoutCheck now => exact h.timeoutCheck now
  | timeoutHdlr r => exact h.crtReqTimeoutHdlr hnew henabled hok
  | abort r => exact Fine.map (h.crtReqAbort hnew hok (.inl henabled)) fun res hres => hres.1
  | epiAbort k => exact h.epiAbort hnew k

omit [DecidableEq ι] in
theorem good_create (cfg : CtxCfg ι) (null : ι) : Good cfg (create null) where
  inv := CtxState.inv_create cfg null
  place r := by
    refine ⟨.fresh, ?_, .inl rfl, iff_of_false not_mem_nil (by simp),
      iff_of_false not_mem_nil (by simp)⟩
    cases hopc : cfg.opcUriLookup r with
    | false => exact ⟨.user, 0, rfl, by simp⟩
    | true => exact ⟨.uriLookup r, 0, rfl, by simp⟩
  paired p u := by simp [create, init, owes]
  tracked r hr := absurd hr not_mem_nil
  live r hcb := absurd rfl hcb

theorem good_invariant (cfg : CtxCfg ι) (null : ι) :
    ((rpcLts cfg null).restrict (Careful cfg)).Invariant (Good cfg) := by
  refine ⟨fun w hw => hw ▸ good_create cfg null, ?_⟩
  rintro w ⟨env, e⟩ w' h ⟨⟨hnew, henabled⟩, hok⟩ hstep
  have hfine := h.step hnew henabled hok
  have hstep' : (w.step cfg env e).toOption = some w' := hstep
  cases hres : w.step cfg env e with
  | ok w₁ =>
    rw [hres] at hfine hstep'
    obtain rfl := some.inj hstep'
    exact hfine
  | error _ =>
    rw [hres] at hstep'
    cases hstep'

omit [DecidableEq ι] in
theorem Good.calls_le_one (h : Good cfg w) (r : ι) : (w.life r).calls ≤ 1 := by
  obtain ⟨p, hp⟩ := h.place r
  obtain ⟨cb, n, hlife, _⟩ := hp.life
  rw [hlife]
  cases p <;> simp [Place.life, sent, init]

omit [DecidableEq ι] in
theorem Good.queued_of_waits (h : Good cfg w) {k : ℕ} (hr : r ∈ (w.base.ctx.epis k).epiReqWaitq) :
    w.state r = .queued := by
  obtain ⟨rfl, _⟩ := h.inv.mem_waitq hr
  obtain ⟨p, hp⟩ := h.place r
  obtain rfl := hp.waits.mp hr
  exact hp.allows.1

section

variable (cfg : CtxCfg ι) (w : RpcWorld ι) (r x : ι)

/-- An RPC, or the request for its URI. -/
def Serves : Prop := x = r ∨ (w.life r).crpUlReq = some x

/-- It waits for a credit, its submission, its address, Mercury, or the error of its send. -/
def Awaits : Prop :=
  w.Waits cfg x ∨ x ∈ w.base.submit ∨ (w.life x).addrPending = true ∨ (w.life x).hgPending = true ∨
    (w.life x).failed ≠ none

/-- Its timeout is still to come. -/
def Timed : Prop := (w.base.ctx.rpcs x).crpInBinheap = true ∨ x ∈ w.base.expired

/-- Mercury cannot reach the target, and there is no timeout to tell. -/
def Lost : Prop :=
  (∃ x, w.Serves r x ∧ w.state x = .fwdUnreach) ∧ ∀ x, w.Serves r x → ¬ w.Timed x

end

omit [DecidableEq ι] in
/-- Where an RPC is whose callback is to be invoked. -/
theorem Good.awaits_cases (h : Good cfg w) (hcb : (w.life r).crpCompleteCb ≠ none)
    (hcalls : (w.life r).calls = 0) :
    (w.life r).crpUlReq = none ∧ (w.Awaits cfg r ↔ w.state r ≠ .fwdUnreach) ∨
      ¬ w.Awaits cfg r ∧ w.state r = .uriLookup ∧ (w.life r).crpCompleteCb = some .user ∧
        ∃ u, (w.life r).crpUlReq = some u := by
  obtain ⟨p, hp⟩ := h.place r
  obtain ⟨cb, n, hlife, hkind⟩ := hp.life
  have hallows := hp.allows
  rw [Awaits, hp.waits, hp.submit]
  cases p with
  | fresh => exact absurd (hlife ▸ rfl) hcb
  | finishing state | done late sent =>
    rw [hlife] at hcalls
    cases hcalls
  | uri u =>
    obtain rfl := hkind.mp hallows.2
    simp [hlife, Place.life, RpcLife.sent, RpcLife.init, hallows.1]
  | waiting | submitting | addr | wire | failed rc | unreach =>
    simp_all [Place.Allows, Place.life, RpcLife.sent, RpcLife.init]

instance (w : RpcWorld ι) (e : RpcEnv ι × RpcEvent ι) : Decidable (w.Careful cfg e) := by
  apply RpcEvent.casesOn (motive := fun e' => Decidable (w.Careful cfg (e.1, e'))) e.2 <;> intros <;>
    dsimp only [Careful, TimesOut] <;> infer_instance

end RpcWorld

open RpcWorld

/-- **Completion at most once**, in every run that aborts no RPC others refer to. -/
theorem rpc_completes_at_most_once {ι : Type} [DecidableEq ι] (cfg : CtxCfg ι) (null : ι)
    (w : RpcWorld ι) (hw : ((rpcLts cfg null).restrict (Careful cfg)).Reach w) :
    (∀ r, (w.life r).calls ≤ 1) ∧
    (∀ k, ∀ r ∈ (w.base.ctx.epis k).epiReqWaitq, w.state r = .queued) ∧
    ∀ env e, ((rpcLts cfg null).restrict (Careful cfg)).enabled w (env, e) →
      w.step cfg env e ≠ .error .state := by
  have h := (good_invariant cfg null).reach hw
  refine ⟨h.calls_le_one, fun k r hr => h.queued_of_waits hr, fun env e henabled => ?_⟩
  exact (h.step henabled.1.1 henabled.1.2 henabled.2).ne_state

/-- One credit for each endpoint; lookup requests have numbers from `100` on. -/
def oneCreditCfg : CtxCfg ℕ where
  cgCreditEpCtx := 1
  epRank _ := 0
  coiQueueFront _ := false
  coiResetTimer _ := false
  opcUriLookup r := decide (100 ≤ r)

/-- Everything succeeds; the URI of the target of RPC `2` has to be looked up, by
the request `u`. -/
def calmEnv (u : ℕ) : RpcEnv ℕ where
  deadlines _ := ⟨9, ⟨true, 0⟩⟩
  send r :=
    { lcRc := 0, addrCached := decide (r ≠ 2), uriExists := false, addrRc := 0, hgCreateRc := 0
      forward := .success, heap := ⟨true, 0⟩, uriRc := 0, toSelf := false, fillRc := 0
      addrFilled := true }
  haveEp := true
  epiRc := 0
  ulReq := u
  ulCreateRc := 0
  ulRc := 0
  uriInsertRc := 0
  uriFillRc := 0
  psrReloadRc := 0
  addrInsertRc := 0
  replyRc := 0
  present := true
  cancelRc := 0

/-- One RPC is sent, a second one aborted on the wire, and a third one looks up a URI. -/
theorem rpc_completes_once_three : ∃ w, ((rpcLts oneCreditCfg 0).restrict (Careful oneCreditCfg)).Reach w ∧
    [0, 1, 2].map (fun r => (w.life r).calls) = [1, 1, 1] ∧ ∀ r, (w.life r).calls ≤ 1 := by
  obtain ⟨w, hreach, hcalls⟩ : ∃ w, ((rpcLts oneCreditCfg 0).restrict (Careful oneCreditCfg)).Reach w ∧
      [0, 1, 2].map (fun r => (w.life r).calls) = [1, 1, 1] :=
    Lts.exists_reach_of_exec
      [(calmEnv 100, .send 0), (calmEnv 100, .send 1), (calmEnv 100, .hgReqSendCb 0 .success),
        (calmEnv 100, .hgFinish 0), (calmEnv 100, .send 2), (calmEnv 100, .resubmit 1),
        (calmEnv 100, .abort 1), (calmEnv 100, .hgReqSendCb 1 .canceled), (calmEnv 100, .hgFinish 1),
        (calmEnv 100, .resubmit 2), (calmEnv 101, .hgReqSendCb 100 .success),
        (calmEnv 101, .hgFinish 100), (calmEnv 101, .hgReqSendCb 2 .success)] _ rfl (by decide +kernel)
  exact ⟨w, hreach, hcalls, (rpc_completes_at_most_once oneCreditCfg 0 w hreach).1⟩

/-- An aborted RPC stays in the wait queue, and is completed again or fails an assertion. -/
theorem rpc_abort_completes_twice :
    (∃ w, (rpcLts oneCreditCfg 0).Reach w ∧ (w.life 1).calls = 2) ∧
    ∃ w, (rpcLts oneCreditCfg 0).Reach w ∧
      (rpcLts oneCreditCfg 0).enabled w (calmEnv 100, .epiAbort 0) ∧
      w.step oneCreditCfg (calmEnv 100) (.epiAbort 0) = .error .state := by
  constructor
  · exact Lts.exists_reach_of_exec [(calmEnv 100, .send 0), (calmEnv 100, .send 1),
      (calmEnv 100, .abort 1), (calmEnv 100, .hgReqSendCb 0 .success), (calmEnv 100, .hgFinish 0),
      (calmEnv 100, .resubmit 1), (calmEnv 100, .hgReqSendCb 1 .success)] _ rfl (by decide +kernel)
  · obtain ⟨w, hreach, henabled, hstep⟩ : ∃ w, (rpcLts oneCreditCfg 0).Reach w ∧
        (rpcLts oneCreditCfg 0).enabled w (calmEnv 100, .epiAbort 0) ∧
        (match w.step oneCreditCfg (calmEnv 100) (.epiAbort 0) with
          | .ok _ => none
          | .error f => some f) = some .state :=
      Lts.exists_reach_of_exec [(calmEnv 100, .send 0), (calmEnv 100, .send 1), (calmEnv 100, .abort 1)]
        _ rfl (by decide +kernel)
    refine ⟨w, hreach, henabled, ?_⟩
    split at hstep
    · cases hstep
    · rename_i f hf
      rw [hf, Option.some.inj hstep]

/-- **How an RPC is lost**: one that was sent waits for something, itself or by the request for its
URI, until its callback is invoked, unless Mercury cannot reach the target after the timeout. -/
theorem rpc_lost_iff {ι : Type} [DecidableEq ι] (cfg : CtxCfg ι) (null : ι) :
    ((rpcLts cfg null).restrict (Careful cfg)).Always fun w => ∀ r,
      (w.life r).crpCompleteCb ≠ none → (w.life r).calls = 0 →
        ((∃ x, w.Serves r x ∧ (w.Awaits cfg x ∨ w.Timed x)) ↔ ¬ w.Lost r) := by
  intro w hw r hcb hcalls
  have h := (good_invariant cfg null).reach hw
  rcases h.awaits_cases hcb hcalls with ⟨hul, hiff⟩ | ⟨hnot, hst, _, u, hul⟩
  · simp only [Serves, hul, reduceCtorEq, or_false, exists_eq_left, Lost, forall_eq, hiff, not_and_or,
      not_not]
  · obtain ⟨hcb', hcalls'⟩ := owes_eq_some_iff.mp ((h.paired r u).mp hul)
    rcases h.awaits_cases (hcb' ▸ some_ne_none _) hcalls' with ⟨_, hiff⟩ | ⟨_, _, huser, _⟩
    · simp only [Serves, hul, some.injEq, or_and_right, exists_or, exists_eq_left, exists_eq_left',
        Lost, hnot, hst, hiff, or_imp, forall_and, forall_eq, forall_eq', false_or, reduceCtorEq]
      rw [not_and_or, not_and_or, not_not, not_not, or_left_comm]
    · cases hcb'.symm.trans huser

/-- The timer of RPC 2 runs out while its URI is looked up; the lookup then succeeds, and Mercury
cannot reach the target. -/
theorem rpc_lost_unreachable :
    ∃ w, ((rpcLts oneCreditCfg 0).restrict (Careful oneCreditCfg)).Reach w ∧
      (w.life 2).calls = 0 ∧ ¬ ∃ x, w.Serves 2 x ∧ (w.Awaits oneCreditCfg x ∨ w.Timed x) := by
  obtain ⟨w, hreach, hst, hul, hcb, hcalls, hheap, hexpired⟩ : ∃ w,
      ((rpcLts oneCreditCfg 0).restrict (Careful oneCreditCfg)).Reach w ∧ w.state 2 = .fwdUnreach ∧
      (w.life 2).crpUlReq = none ∧ (w.life 2).crpCompleteCb.isSome ∧ (w.life 2).calls = 0 ∧
      (w.base.ctx.rpcs 2).crpInBinheap = false ∧ 2 ∉ w.base.expired :=
    Lts.exists_reach_of_exec
      [(calmEnv 100, .send 2), (calmEnv 101, .timeoutCheck 10), (calmEnv 101, .timeoutHdlr 2),
        ({ calmEnv 101 with send r := { (calmEnv 101).send r with forward := .naError } },
          .hgReqSendCb 100 .success), (calmEnv 101, .hgFinish 100)] _ rfl (by decide +kernel)
  refine ⟨w, hreach, hcalls, fun hpending => ?_⟩
  refine (rpc_lost_iff oneCreditCfg 0 w hreach 2 (fun hc => ?_) hcalls).mp hpending
    ⟨⟨2, .inl rfl, hst⟩, fun x hx => ?_⟩
  · rw [hc] at hcb
    cases hcb
  · rcases hx with rfl | hx
    · simp [Timed, hheap, hexpired]
    · cases hul.symm.trans hx

end Cart
