/-
What the functions of an RPC's life do.

Each function is specified by what holds when it ends (`Fine`): it stops at no
assertion on a state, and what it leaves is described for the RPCs it is about,
while every other RPC is as before, except that it may have got a credit
(`Apart`, `Moves`).

Main results: `crtReqSendInternal_spec`, `crtReqUriLookupByRpcCb_spec`.
-/
import Cart.RpcLife

open Function List Option

namespace Cart

open CrtContext

/-! ### Programs that stop at no state assertion -/

/-- The program does not stop at an assertion on a state, and where it ends, the
result satisfies `Q`. -/
def Fine {α : Type} (x : Except Fault α) (Q : α → Prop) : Prop :=
  match x with
  | .ok a => Q a
  | .error .context => True
  | .error .state => False

namespace Fine

variable {α β : Type} {x : Except Fault α} {P Q : α → Prop}

theorem ok {a : α} (h : Q a) : Fine (.ok a) Q := h

theorem mono (h : Fine x P) (hPQ : ∀ a, P a → Q a) : Fine x Q := by
  cases x with
  | ok a => exact hPQ a h
  | error f =>
    cases f with
    | context => trivial
    | state => exact h

theorem bind {f : α → Except Fault β} {Q : β → Prop} (h : Fine x P)
    (hf : ∀ a, P a → Fine (f a) Q) : Fine (x.bind f) Q := by
  cases x with
  | ok a => exact hf a h
  | error f =>
    cases f with
    | context => trivial
    | state => exact h

theorem map {f : α → β} {Q : β → Prop} (h : Fine x P) (hf : ∀ a, P a → Q (f a)) :
    Fine (x.map f) Q := by
  cases x with
  | ok a => exact hf a h
  | error f =>
    cases f with
    | context => trivial
    | state => exact h

theorem ofCtx {o : Option α} (h : ∀ a, o = some a → Q a) : Fine (RpcWorld.ofCtx o) Q := by
  cases o with
  | some a => exact h a rfl
  | none => trivial

theorem ne_state (h : Fine x Q) : x ≠ .error .state := by
  rintro rfl
  exact h

end Fine

namespace RpcWorld

variable {ι : Type} {cfg : CtxCfg ι} {w w' w'' : RpcWorld ι} {r x u p : ι} {A B : Set ι}
  {res : ℤ × RpcWorld ι} {d : DeadlineEnv} {st : RpcState}

/-! ### Who is affected -/

/-- The RPC is in the wait queue of its endpoint. -/
def Waits (cfg : CtxCfg ι) (w : RpcWorld ι) (r : ι) : Prop :=
  r ∈ (w.base.ctx.epis (cfg.epRank r)).epiReqWaitq

theorem not_mem_waitq (hinv : w.base.Inv cfg) (hr : ¬ w.Waits cfg r) (k : ℕ) :
    r ∉ (w.base.ctx.epis k).epiReqWaitq := by
  intro hk
  obtain rfl := (hinv.mem_waitq hk).1
  exact hr hk

/-- Outside `A` nothing has changed, except that some that waited got a credit. -/
structure Apart (cfg : CtxCfg ι) (A : Set ι) (w w' : RpcWorld ι) : Prop where
  inv : w'.base.Inv cfg
  life : ∀ x, x ∉ A → w'.life x = w.life x
  others : ∀ x, x ∉ A → ¬ w.Waits cfg x →
    ¬ w'.Waits cfg x ∧ (x ∈ w'.base.submit ↔ x ∈ w.base.submit)
  state : ∀ x, x ∉ A → ¬ w.Waits cfg x → w'.state x = w.state x
  waiter : ∀ x, x ∉ A → w.Waits cfg x →
    w'.Waits cfg x ∧ w'.state x = w.state x ∧ (x ∈ w'.base.submit ↔ x ∈ w.base.submit) ∨
      ¬ w'.Waits cfg x ∧ w'.state x = .inited ∧ x ∈ w'.base.submit
  tracked : ∀ x, x ∉ A → (x ∈ w'.base.tracked ↔ x ∈ w.base.tracked)
  kept : w.base.tracked ⊆ w'.base.tracked

/-- Moreover nobody was put on a list otherwise, nor taken off the submit list. -/
structure Moves (cfg : CtxCfg ι) (A : Set ι) (w w' : RpcWorld ι) : Prop extends
    Apart cfg A w w' where
  stays : ∀ x, ¬ w.Waits cfg x → ¬ w'.Waits cfg x ∧ (x ∈ w'.base.submit ↔ x ∈ w.base.submit)

theorem Apart.mono (h : Apart cfg A w w') (hAB : A ⊆ B) : Apart cfg B w w' where
  inv := h.inv
  life x hx := h.life x fun hA => hx (hAB hA)
  others x hx := h.others x fun hA => hx (hAB hA)
  state x hx := h.state x fun hA => hx (hAB hA)
  waiter x hx := h.waiter x fun hA => hx (hAB hA)
  tracked x hx := h.tracked x fun hA => hx (hAB hA)
  kept := h.kept

theorem Apart.trans (h : Apart cfg A w w') (h' : Apart cfg A w' w'') : Apart cfg A w w'' where
  inv := h'.inv
  life x hx := (h'.life x hx).trans (h.life x hx)
  others x hx hw :=
    ⟨(h'.others x hx (h.others x hx hw).1).1,
      (h'.others x hx (h.others x hx hw).1).2.trans (h.others x hx hw).2⟩
  state x hx hw := (h'.state x hx (h.others x hx hw).1).trans (h.state x hx hw)
  waiter x hx hw := by
    -- who got a credit on the way is not a waiter any more
    rcases h.waiter x hx hw with ⟨hw', hst, hsub⟩ | ⟨hw', hst, hsub⟩
    · rcases h'.waiter x hx hw' with ⟨hw'', hst', hsub'⟩ | hdone
      · exact .inl ⟨hw'', hst'.trans hst, hsub'.trans hsub⟩
      · exact .inr hdone
    · obtain ⟨hw'', hsub'⟩ := h'.others x hx hw'
      exact .inr ⟨hw'', (h'.state x hx hw').trans hst, hsub'.mpr hsub⟩
  tracked x hx := (h'.tracked x hx).trans (h.tracked x hx)
  kept := fun x hx => h'.kept (h.kept hx)

theorem Moves.mono (h : Moves cfg A w w') (hAB : A ⊆ B) : Moves cfg B w w' :=
  ⟨h.toApart.mono hAB, h.stays⟩

theorem Moves.trans (h : Moves cfg A w w') (h' : Moves cfg A w' w'') : Moves cfg A w w'' :=
  ⟨h.toApart.trans h'.toApart, fun x hx =>
    ⟨(h'.stays x (h.stays x hx).1).1, (h'.stays x (h.stays x hx).1).2.trans (h.stays x hx).2⟩⟩

section

variable (hinv : w'.base.Inv cfg) (hlife : ∀ x, x ∉ A → w'.life x = w.life x)
  (hstate : ∀ x, x ∉ A → w'.state x = w.state x)

include hinv hlife hstate

/-- A step that leaves the lists of the others alone. -/
theorem Apart.of_waits (hwaits : ∀ x, x ∉ A → (w'.Waits cfg x ↔ w.Waits cfg x))
    (hsubmit : ∀ x, x ∉ A → (x ∈ w'.base.submit ↔ x ∈ w.base.submit)) (htracked : ∀ x, x ∉ A →
    (x ∈ w'.base.tracked ↔ x ∈ w.base.tracked)) (hkept : w.base.tracked ⊆ w'.base.tracked) : Apart cfg A w w' where
  inv := hinv
  life := hlife
  others x hx hw := ⟨(hwaits x hx).not.mpr hw, hsubmit x hx⟩
  state x hx _ := hstate x hx
  waiter x hx hw := .inl ⟨(hwaits x hx).mpr hw, hstate x hx, hsubmit x hx⟩
  tracked := htracked
  kept := hkept

/-- A step that leaves the wait queues and the submit list alone. -/
theorem Moves.of_waits (hwaits : ∀ x, w'.Waits cfg x ↔ w.Waits cfg x)
    (hsubmit : w'.base.submit = w.base.submit) (htracked : ∀ x, x ∉ A →
    (x ∈ w'.base.tracked ↔ x ∈ w.base.tracked)) (hkept : w.base.tracked ⊆ w'.base.tracked) : Moves cfg A w w' :=
  ⟨.of_waits hinv hlife hstate (fun x _ => hwaits x) (fun x _ => by rw [hsubmit]) htracked hkept,
    fun x hx => ⟨(hwaits x).not.mpr hx, by rw [hsubmit]⟩⟩

theorem Moves.of_epis (hepis : w'.base.ctx.epis = w.base.ctx.epis)
    (hsubmit : w'.base.submit = w.base.submit) (htracked : ∀ x, x ∉ A →
    (x ∈ w'.base.tracked ↔ x ∈ w.base.tracked)) (hkept : w.base.tracked ⊆ w'.base.tracked) : Moves cfg A w w' :=
  .of_waits hinv hlife hstate (fun x => by rw [Waits, hepis, Waits]) hsubmit htracked hkept

end

theorem Moves.refl (hinv : w.base.Inv cfg) (A : Set ι) : Moves cfg A w w :=
  .of_epis hinv (fun _ _ => rfl) (fun _ _ => rfl) rfl rfl (fun _ _ => Iff.rfl) (List.Subset.refl _)

/-! ### Sending -/

variable [DecidableEq ι]

section

variable (w : RpcWorld ι) (r : ι)

@[simp] theorem state_setState_self (st : RpcState) : (w.setState r st).state r = st := by
  simp [state, setState, CrtContext.setState, CrtContext.setRpc]

@[simp] theorem state_setState_of_ne {r x : ι} (hx : x ≠ r) (st : RpcState) :
    (w.setState r st).state x = w.state x := by
  simp [state, setState, CrtContext.setState, CrtContext.setRpc, update_of_ne hx]

@[simp] theorem life_setState (st : RpcState) : (w.setState r st).life = w.life := rfl

@[simp] theorem life_setLife_self (life : RpcLife ι) : (w.setLife r life).life r = life :=
  update_self _ _ _

@[simp] theorem life_setLife_of_ne {r x : ι} (hx : x ≠ r) (life : RpcLife ι) :
    (w.setLife r life).life x = w.life x := update_of_ne hx _ _

@[simp] theorem state_setLife (life : RpcLife ι) : (w.setLife r life).state = w.state := rfl

end

theorem moves_setState (hinv : w.base.Inv cfg) (r : ι) (st : RpcState) :
    Moves cfg {r} w (w.setState r st) :=
  .of_epis (hinv.setState r st) (fun _ _ => rfl) (fun _ hx => state_setState_of_ne w hx st) rfl rfl
    (fun _ _ => Iff.rfl) (List.Subset.refl _)

theorem moves_setLife (hinv : w.base.Inv cfg) (r : ι) (life : RpcLife ι) :
    Moves cfg {r} w (w.setLife r life) :=
  .of_epis hinv (fun _ hx => life_setLife_of_ne w hx life) (fun _ _ => rfl) rfl rfl
    (fun _ _ => Iff.rfl) (List.Subset.refl _)

/-- Untrack lets some that wait have a credit. -/
theorem untrack_spec (env : RpcEnv ι) (hinv : w.base.Inv cfg) (hr : ¬ w.Waits cfg r)
    (hst : cfg.opcUriLookup r = true ∨ (w.state r).untrackable = true) :
    Fine (w.untrack cfg env r) fun w' => Moves cfg ∅ w w' ∧ w'.life = w.life := by
  rw [untrack, if_neg (by rintro ⟨hopc, hun⟩; simp [hopc, hun] at hst)]
  refine Fine.map (Fine.ofCtx fun base hbase => hbase) fun base hbase => ⟨?_, rfl⟩
  have hinv' := hinv.untrack hbase
  obtain ⟨⟨ctx, l⟩, huntrack, rfl⟩ := map_eq_some_iff.mp hbase
  have hwait : ∀ x ∈ (w.base.ctx.epis (cfg.epRank r)).epiReqWaitq,
      (w.base.ctx.rpcs x).crpInBinheap = false := fun x hx => (hinv.waiting _ x hx).1
  rcases crtContextReqUntrack_cases hinv.heap (hinv.waitq_nodup _) hwait huntrack with
    ⟨rfl, rfl⟩ | hun
  · exact .of_epis hinv' (fun _ _ => rfl) (fun _ _ => rfl) rfl (append_nil _)
      (fun _ _ => Iff.rfl) (List.Subset.refl _)
  have hrl : r ∉ l := fun hl => not_mem_waitq hinv hr _ (hun.submit_subset hl)
  have hstate : ∀ x, x ∉ l → (ctx.rpcs x).crpState = (w.base.ctx.rpcs x).crpState := by
    intro x hx
    by_cases hxr : x = r
    · rw [hxr]
      exact (hun.self.2 hrl).2
    · rw [hun.other x hxr hx]
  have hlwaits : ∀ x ∈ l, w.Waits cfg x := fun x hx => by
    have hmem := hun.submit_subset hx
    rw [Waits, (hinv.mem_waitq hmem).1]
    exact hmem
  -- who still waits has not been submitted
  have hnotl : ∀ x, x ∈ (ctx.epis (cfg.epRank x)).epiReqWaitq → x ∉ l := by
    intro x hx hl
    have hrank := (hinv.mem_waitq (hun.submit_subset hl)).1
    have hnd := (hinv.waitq_nodup (cfg.epRank r)).erase r
    rw [hun.waitq_eq, nodup_append] at hnd
    rw [hrank] at hx
    exact hnd.2.2 x hl x hx rfl
  have hstays : ∀ x, x ∉ (w.base.ctx.epis (cfg.epRank x)).epiReqWaitq →
      x ∉ (ctx.epis (cfg.epRank x)).epiReqWaitq ∧ (x ∈ w.base.submit ++ l ↔ x ∈ w.base.submit) := by
    refine fun x hx => ⟨fun hw => hx ((hun.waitq_sublist _).subset hw), ?_⟩
    have hxl : x ∉ l := fun hl => hx (hlwaits x hl)
    simp [hxl]
  refine ⟨⟨hinv', fun _ _ => rfl, fun x _ => hstays x, fun x _ hx => ?_, fun x _ hx => ?_,
    fun _ _ => Iff.rfl, List.Subset.refl _⟩, hstays⟩
  · exact hstate x fun hl => hx (hlwaits x hl)
  · by_cases hxl : x ∈ l
    · exact .inr ⟨fun hw => hnotl x hw hxl, hun.inited x hxl, mem_append_right _ hxl⟩
    · refine .inl ⟨?_, hstate x hxl, by simp [hxl]⟩
      by_cases hk : cfg.epRank x = cfg.epRank r
      · have hxr : x ≠ r := fun heq => hr (heq ▸ hx)
        have hmem : x ∈ (w.base.ctx.epis (cfg.epRank r)).epiReqWaitq.erase r := by
          rw [mem_erase_of_ne hxr, ← hk]
          exact hx
        rw [hun.waitq_eq, mem_append] at hmem
        change x ∈ (ctx.epis (cfg.epRank x)).epiReqWaitq
        rw [hk]
        exact hmem.resolve_left hxl
      · change x ∈ (ctx.epis (cfg.epRank x)).epiReqWaitq
        rw [hun.epis_of_ne hk]
        exact hx

theorem moves_renewed (hinv : w.base.Inv cfg) (hr : ¬ w.Waits cfg r) (htracked : r ∈ w.base.tracked)
    {ctx : CrtContext ι} (hok : ctx.HeapOk) (hre : CrtContext.Retimed r w.base.ctx ctx) :
    Moves cfg ∅ w { w with base := w.base.renewed r ctx } ∧
      ({ w with base := w.base.renewed r ctx } : RpcWorld ι).state = w.state := by
  have hstate : ({ w with base := w.base.renewed r ctx } : RpcWorld ι).state = w.state :=
    funext fun x => (hre.fields x).1
  exact ⟨.of_epis (hinv.renewed hok hre htracked (not_mem_waitq hinv hr)) (fun _ _ => rfl)
    (fun x _ => congrFun hstate x) hre.epis rfl (fun _ _ => Iff.rfl) (List.Subset.refl _), hstate⟩

theorem forceTimeout_spec (env : RpcEnv ι) (hinv : w.base.Inv cfg) (hr : ¬ w.Waits cfg r)
    (htracked : r ∈ w.base.tracked) : Fine (w.forceTimeout cfg env r) fun w' =>
      Moves cfg ∅ w w' ∧ w'.life = w.life := by
  rw [forceTimeout]
  split
  · exact Fine.ok ⟨.refl hinv ∅, rfl⟩
  · refine Fine.map (Fine.ofCtx fun ctx hctx => hctx) fun ctx hctx => ?_
    obtain ⟨ctx', heq, hok, hre⟩ := crtReqForceTimeout_spec hinv.heap cfg
      (env.send r).heap r
    obtain rfl := some.inj (heq.symm.trans hctx)
    exact ⟨(moves_renewed hinv hr htracked hok hre).1, rfl⟩

/-- An RPC that could be sent is on the wire, out of reach, or waits for its address. -/
inductive SentAs (life : RpcLife ι) : RpcState → RpcLife ι → Prop
  | wire : SentAs life .reqSent { life with crpOnWire := true, hgPending := true }
  | unreach : SentAs life .fwdUnreach life
  | addr : SentAs life .addrLookup { life with addrPending := true }

/-- The outcome of sending `r`, without a lookup by another RPC. -/
def SendPost (cfg : CtxCfg ι) (r : ι) (w : RpcWorld ι) (res : ℤ × RpcWorld ι) : Prop :=
  Moves cfg {r} w res.2 ∧ (res.1 = 0 ∧ SentAs (w.life r) (res.2.state r) (res.2.life r) ∨
    res.1 ≠ 0 ∧ res.2.life r = w.life r)

section

variable (env : RpcEnv ι) (hinv : w.base.Inv cfg) (hr : ¬ w.Waits cfg r)
  (htracked : r ∈ w.base.tracked)

include env hinv hr htracked

theorem crtHgReqSend_spec (hst : w.state r = .reqSent) :
    Fine (w.crtHgReqSend cfg env r) (SendPost cfg r w) := by
  rw [crtHgReqSend]
  split
  · refine Fine.ok ⟨moves_setLife hinv r _, .inl ⟨rfl, ?_⟩⟩
    rw [state_setLife, hst, life_setLife_self]
    exact .wire
  · refine Fine.map (forceTimeout_spec env hinv hr htracked) ?_
    rintro w' ⟨hmoves, hlife⟩
    refine ⟨(hmoves.mono (Set.empty_subset _)).trans (moves_setState hmoves.inv r _), .inl ⟨rfl, ?_⟩⟩
    rw [state_setState_self, life_setState, hlife]
    exact .unreach
  · exact Fine.ok ⟨.refl hinv _, .inr ⟨by simp [derHg, derErrGurtBase], rfl⟩⟩

theorem crtReqSendImmediately_spec : Fine (w.crtReqSendImmediately cfg env r) (SendPost cfg r w) := by
  rw [crtReqSendImmediately]
  split_ifs with hrc
  · exact Fine.ok ⟨.refl hinv _, .inr ⟨hrc, rfl⟩⟩
  · have hmoves := moves_setState hinv r .reqSent
    refine (crtHgReqSend_spec env hmoves.inv (hmoves.stays r hr).1 htracked
      (state_setState_self w r _)).mono fun res hres => ⟨hmoves.trans hres.1, hres.2⟩

end

theorem crtReqHgAddrLookup_spec (env : RpcEnv ι) (hinv : w.base.Inv cfg) (r : ι) :
    SendPost cfg r w (w.crtReqHgAddrLookup env r) := by
  rw [crtReqHgAddrLookup]
  have hmoves := moves_setState hinv r .addrLookup
  split_ifs with hrc
  · exact ⟨hmoves, .inr ⟨hrc, rfl⟩⟩
  · refine ⟨hmoves.trans (moves_setLife hmoves.inv r _), .inl ⟨rfl, ?_⟩⟩
    rw [state_setLife, state_setState_self, life_setLife_self]
    exact .addr

/-- The outcome of `crt_req_send_internal`, without a lookup by another RPC. -/
def SendDone (cfg : CtxCfg ι) (r : ι) (w : RpcWorld ι) (res : ℤ × RpcWorld ι) : Prop :=
  Moves cfg {r} w res.2 ∧ (res.1 = 0 ∧ SentAs (w.life r) (res.2.state r) (res.2.life r) ∨
    res.1 ≠ 0 ∧ res.2.life r = w.life r ∧ res.2.state r = .inited)

theorem SendPost.initedOnError (h : SendPost cfg r w res) :
    SendDone cfg r w (initedOnError r res) := by
  obtain ⟨rc, w'⟩ := res
  obtain ⟨hmoves, ⟨rfl, hsent⟩ | ⟨hrc, hlife⟩⟩ := h
  · exact ⟨hmoves, .inl ⟨rfl, hsent⟩⟩
  · have hrc' : rc ≠ 0 := hrc
    rw [RpcWorld.initedOnError, if_neg hrc']
    exact ⟨hmoves.trans (moves_setState hmoves.inv r _), .inr ⟨hrc, hlife, state_setState_self _ r _⟩⟩

omit [DecidableEq ι] in
theorem SendDone.sendPost (h : SendDone cfg r w res) : SendPost cfg r w res := by
  obtain ⟨hmoves, hsent | ⟨hrc, hlife, _⟩⟩ := h
  · exact ⟨hmoves, .inl hsent⟩
  · exact ⟨hmoves, .inr ⟨hrc, hlife⟩⟩

/-- Only the state of `r` was written before. -/
theorem SendDone.of_setState (hinv : w.base.Inv cfg)
    (h : SendDone cfg r (w.setState r st) res) : SendDone cfg r w res :=
  ⟨(moves_setState hinv r st).trans h.1, h.2⟩

section

variable (env : RpcEnv ι) (hinv : w.base.Inv cfg) (hr : ¬ w.Waits cfg r)
  (htracked : r ∈ w.base.tracked)

include env hinv hr htracked

theorem sendWithUri_spec : Fine (w.sendWithUri cfg env r) (SendDone cfg r w) := by
  refine Fine.map (show Fine _ (SendPost cfg r w) from ?_) fun res hres => hres.initedOnError
  split
  · rename_i hrc
    exact Fine.ok ⟨.refl hinv _, .inr ⟨hrc, rfl⟩⟩
  split
  · exact crtReqSendImmediately_spec env hinv hr htracked
  · exact Fine.ok (crtReqHgAddrLookup_spec env hinv r)

theorem uriLookupLocal_spec : Fine (w.uriLookupLocal cfg env r) (SendPost cfg r w) := by
  rw [uriLookupLocal]
  split_ifs with hrc
  · exact Fine.ok ⟨.refl hinv _, .inr ⟨hrc, rfl⟩⟩
  · exact (sendWithUri_spec env hinv hr htracked).mono fun res hres => hres.sendPost

end

/-- Where a lookup request is that was just sent for `r`. -/
def LookupSent (r u : ι) (w w' : RpcWorld ι) : Prop :=
  SentAs { w.life u with crpCompleteCb := some (.uriLookup r) } (w'.state u) (w'.life u) ∨
    ∃ rc, w'.life u = { w.life u with crpCompleteCb := some (.uriLookup r), failed := some rc } ∧
      w'.state u = .inited

/-- The outcome of `crt_req_send_internal` that waits for a lookup by the RPC `u`. -/
structure Looking (cfg : CtxCfg ι) (u r : ι) (w : RpcWorld ι) (res : ℤ × RpcWorld ι) : Prop where
  ordinary : cfg.opcUriLookup r = false
  rc : res.1 = 0
  moves : Moves cfg {r, u} w res.2
  state : res.2.state r = .uriLookup
  life : res.2.life r = { w.life r with crpUlReq := some u }
  lookup : LookupSent r u w res.2
  tracked : u ∈ res.2.base.tracked

theorem Looking.of_setState (hinv : w.base.Inv cfg)
    (h : Looking cfg u r (w.setState r st) res) : Looking cfg u r w res :=
  ⟨h.ordinary, h.rc,
    ((moves_setState hinv r st).mono (Set.singleton_subset_iff.mpr (Set.mem_insert r _))).trans h.moves,
    h.state, h.life, h.lookup, h.tracked⟩

/-- **`crt_req_send_internal`**, given what `crt_req_uri_lookup` does. -/
theorem sendInternalWith_spec (env : RpcEnv ι)
    {uriLookup : RpcWorld ι → Except Fault (ℤ × RpcWorld ι)} (hinv : w.base.Inv cfg)
    (hr : ¬ w.Waits cfg r) (htracked : r ∈ w.base.tracked)
    (huri : Fine (uriLookup ((w.setState r .inited).setState r .uriLookup)) fun res =>
      SendPost cfg r ((w.setState r .inited).setState r .uriLookup) res ∨
      Looking cfg u r ((w.setState r .inited).setState r .uriLookup) res) :
    Fine (w.sendInternalWith uriLookup cfg env r) fun res =>
      SendDone cfg r w res ∨ Looking cfg u r w res := by
  -- the lookup of the local cache starts from `RPC_STATE_INITED`
  have hmoves := moves_setState hinv r .inited
  have hr' := (hmoves.stays r hr).1
  have hinited {first : Except Fault (ℤ × RpcWorld ι)} (hfirst : Fine first fun res =>
      SendPost cfg r (w.setState r .inited) res ∨ Looking cfg u r (w.setState r .inited) res) :
      Fine (first.map (initedOnError r)) fun res => SendDone cfg r w res ∨ Looking cfg u r w res := by
    refine Fine.map hfirst fun res hres => ?_
    rcases hres with h | h
    · exact .inl (SendDone.of_setState hinv h.initedOnError)
    · right
      obtain ⟨rc, w'⟩ := res
      obtain rfl : rc = 0 := h.rc
      exact h.of_setState hinv
  rw [sendInternalWith]
  cases hst : w.state r with
  | queued | inited =>
    refine hinited ?_
    split_ifs with hrc
    · exact Fine.ok (.inl ⟨.refl hmoves.inv _, .inr ⟨hrc, rfl⟩⟩)
    · exact (crtReqSendImmediately_spec env hmoves.inv hr' htracked).mono fun _ h => .inl h
    · exact Fine.ok (.inl (crtReqHgAddrLookup_spec env hmoves.inv r))
    · refine huri.mono fun res hres => hres.imp (fun h => ?_) fun h => h.of_setState hmoves.inv
      exact ⟨(moves_setState hmoves.inv r _).trans h.1, h.2⟩
  | uriLookup => exact (sendWithUri_spec env hinv hr htracked).mono fun _ h => .inl h
  | addrLookup =>
    exact Fine.map (crtReqSendImmediately_spec env hinv hr htracked) fun _ h => .inl h.initedOnError
  | reqSent | replyRecved | completed | canceled | timeout | fwdUnreach =>
    have hpost : SendPost cfg r w (-derProto, w) :=
      ⟨.refl hinv _, .inr ⟨by simp [derProto, derErrGurtBase], rfl⟩⟩
    exact Fine.ok (.inl hpost.initedOnError)

/-- A lookup request is sent without being tracked. -/
theorem trackAndSend_lookup_spec (env : RpcEnv ι) (hinv : w.base.Inv cfg)
    (hu : ¬ w.Waits cfg u) (hopc : cfg.opcUriLookup u = true) (hnew : u ∉ w.base.tracked) :
    Fine (w.trackAndSend (fun w => w.sendInternalWith (fun w => w.uriLookupLocal cfg env u) cfg env u)
      cfg env u) fun res => SendDone cfg u w res ∧ u ∈ res.2.base.tracked := by
  refine Fine.bind (Fine.ofCtx fun res hres => hres) ?_
  rintro ⟨res, base⟩ htrack
  have hinv' := hinv.track hnew htrack
  rw [CtxState.track, crtContextReqTrack, if_pos hopc, map_some] at htrack
  dsimp only at htrack
  rw [if_pos hopc] at htrack
  cases htrack
  dsimp only
  -- `w₁` differs from `w` only in what was tracked
  generalize hw₁ : ({ w with base := { w.base with tracked := u :: w.base.tracked } } : RpcWorld ι) = w₁
  have hmoves : Moves cfg {u} w w₁ := by
    subst hw₁
    refine .of_epis hinv' (fun _ _ => rfl) (fun _ _ => rfl) rfl rfl (fun x hx => ?_)
      (subset_cons_self u _)
    simp only [mem_cons, or_iff_right_iff_imp]
    exact fun heq => absurd heq hx
  have hmem : u ∈ w₁.base.tracked := hw₁ ▸ mem_cons_self
  have hlife : w₁.life = w.life := hw₁ ▸ rfl
  have huw := (hmoves.stays u hu).1
  have hmoves₁ := (moves_setState hmoves.inv u .inited)
  have hmoves₂ := (moves_setState hmoves₁.inv u .uriLookup)
  have hsend : Fine (w₁.sendInternalWith (fun w => w.uriLookupLocal cfg env u) cfg env u) fun res =>
      SendDone cfg u w₁ res ∨ Looking cfg u u w₁ res :=
    sendInternalWith_spec env hmoves.inv huw hmem
      ((uriLookupLocal_spec env hmoves₂.inv (hmoves₂.stays u (hmoves₁.stays u huw).1).1 hmem).mono
        fun _ h => .inl h)
  refine Fine.bind hsend ?_
  rintro ⟨rc, w'⟩ hres
  have hdone : SendDone cfg u w₁ (rc, w') := hres.resolve_right fun h =>
    Bool.false_ne_true (h.ordinary.symm.trans hopc)
  have hdone' : SendDone cfg u w (rc, w') := by
    refine ⟨hmoves.trans hdone.1, ?_⟩
    rw [← hlife]
    exact hdone.2
  split_ifs with hrc
  · subst hrc
    exact Fine.ok ⟨hdone', hdone.1.kept hmem⟩
  · refine Fine.map (untrack_spec env hdone.1.inv (hdone.1.stays u huw).1 (.inl hopc)) ?_
    rintro w'' ⟨hmoves'', hlife''⟩
    obtain ⟨hm, h0 | ⟨_, hl, hs⟩⟩ := hdone'
    · exact absurd h0.1 hrc
    refine ⟨⟨hm.trans (hmoves''.mono (Set.empty_subset _)), .inr ⟨hrc, ?_, ?_⟩⟩,
      hmoves''.kept (hdone.1.kept hmem)⟩
    · exact (congrFun hlife'' u).trans hl
    · exact (hmoves''.state u (Set.notMem_empty u) (hdone.1.stays u huw).1).trans hs

/-- The lookup request of the environment can be used for `r`. -/
structure Spare (cfg : CtxCfg ι) (w : RpcWorld ι) (u : ι) : Prop where
  opc : cfg.opcUriLookup u = true
  waits : ¬ w.Waits cfg u
  tracked : u ∉ w.base.tracked

omit [DecidableEq ι] in
theorem Spare.moves (h : Spare cfg w u) (hmoves : Apart cfg A w w') (hu : u ∉ A) : Spare cfg w' u :=
  ⟨h.opc, (hmoves.others u hu h.waits).1, fun hin => h.tracked ((hmoves.tracked u hu).mp hin)⟩

theorem crtReqUriLookupByRpc_spec (env : RpcEnv ι) (hinv : w.base.Inv cfg)
    (hopc : cfg.opcUriLookup r = false) (hst : w.state r = .uriLookup)
    (hspare : Spare cfg w env.ulReq) (hr : ¬ w.Waits cfg r) :
    Fine (w.crtReqUriLookupByRpc cfg env r) fun res =>
      SendPost cfg r w res ∨ Looking cfg env.ulReq r w res := by
  rw [crtReqUriLookupByRpc]
  split
  · rename_i hrc
    exact Fine.ok (.inl ⟨.refl hinv _, .inr ⟨hrc, rfl⟩⟩)
  dsimp only
  generalize env.ulReq = u at hspare ⊢
  have hur : u ≠ r := fun heq => Bool.false_ne_true (hopc.symm.trans (heq ▸ hspare.opc))
  generalize hw₁ : w.setLife r { w.life r with crpUlReq := some u } = w₁
  have hmoves₁ : Moves cfg {r, u} w w₁ := by
    subst hw₁
    exact (moves_setLife hinv r _).mono (by simp)
  have hlife₁ : w₁.life u = w.life u := hw₁ ▸ life_setLife_of_ne w hur _
  have hmoves₂ : Moves cfg {r, u} w₁
      (w₁.setLife u { w₁.life u with crpCompleteCb := some (.uriLookup r) }) :=
    (moves_setLife hmoves₁.inv u _).mono (by simp)
  -- up to here only the two lives were written
  generalize hw₂ : w₁.setLife u { w₁.life u with crpCompleteCb := some (.uriLookup r) } = w₂ at hmoves₂ ⊢
  have hmoves := hmoves₁.trans hmoves₂
  have hlife₂ : w₂.life u = { w.life u with crpCompleteCb := some (.uriLookup r) } := by
    rw [← hw₂, life_setLife_self, hlife₁]
  have hlifer : w₂.life r = { w.life r with crpUlReq := some u } := by
    rw [← hw₂, life_setLife_of_ne w₁ hur.symm, ← hw₁, life_setLife_self]
  have hstr : w₂.state r = .uriLookup := by
    rw [← hw₂, state_setLife, ← hw₁, state_setLife, hst]
  have htracked : w₂.base.tracked = w.base.tracked := by
    rw [← hw₂, ← hw₁]
    rfl
  refine Fine.map (trackAndSend_lookup_spec env hmoves.inv (hmoves.stays u hspare.waits).1 hspare.opc
    (by rw [htracked]; exact hspare.tracked)) ?_
  rintro ⟨rc, w'⟩ ⟨⟨hmoves', hsent⟩, hmem⟩
  have hmoves'' : Moves cfg {r, u} w w' := hmoves.trans (hmoves'.mono (by simp))
  have hru : r ∉ ({u} : Set ι) := fun heq => hur (Set.mem_singleton_iff.mp heq).symm
  have hstr' : w'.state r = .uriLookup := by
    rw [hmoves'.state r hru (hmoves.stays r hr).1, hstr]
  have hlifer' : w'.life r = { w.life r with crpUlReq := some u } := by
    rw [hmoves'.life r hru, hlifer]
  right
  rcases hsent with ⟨h0, hsent⟩ | ⟨hrc, hl, hs⟩
  · obtain rfl : rc = 0 := h0
    exact ⟨hopc, rfl, hmoves'', hstr', hlifer', .inl (by rwa [hlife₂] at hsent), hmem⟩
  · have hrc' : rc ≠ 0 := hrc
    rw [if_neg hrc']
    refine ⟨hopc, rfl, hmoves''.trans ((moves_setLife hmoves''.inv u _).mono (by simp)), hstr', ?_,
      .inr ⟨rc, ?_, hs⟩, hmem⟩
    · rw [life_setLife_of_ne w' hur.symm, hlifer']
    · rw [life_setLife_self, hl, hlife₂]

/-- **`crt_req_send_internal`** for an RPC that was tracked and does not wait. -/
theorem crtReqSendInternal_spec (env : RpcEnv ι) (hinv : w.base.Inv cfg)
    (hspare : Spare cfg w env.ulReq) (hr : ¬ w.Waits cfg r) (htracked : r ∈ w.base.tracked) :
    Fine (w.crtReqSendInternal cfg env r) fun res =>
      SendDone cfg r w res ∨ Looking cfg env.ulReq r w res := by
  have hmoves₁ := moves_setState hinv r .inited
  have hmoves := hmoves₁.trans (moves_setState hmoves₁.inv r .uriLookup)
  have hur : env.ulReq ∉ ({r} : Set ι) := fun heq =>
    hspare.tracked (Set.mem_singleton_iff.mp heq ▸ htracked)
  refine sendInternalWith_spec env hinv hr htracked ?_
  split_ifs with hopc
  · exact (uriLookupLocal_spec env hmoves.inv (hmoves.stays r hr).1 htracked).mono fun _ h => .inl h
  · rw [crtReqUriLookup]
    split
    · rename_i hrc
      exact Fine.ok (.inl ⟨.refl hmoves.inv _, .inr ⟨hrc, rfl⟩⟩)
    split
    · exact (sendWithUri_spec env hmoves.inv (hmoves.stays r hr).1 htracked).mono fun _ h =>
        .inl h.sendPost
    · exact crtReqUriLookupByRpc_spec env hmoves.inv (Bool.eq_false_iff.mpr hopc)
        (state_setState_self _ r _) (hspare.moves hmoves.toApart hur) (hmoves.stays r hr).1

theorem error_ne_zero {s s' : CrtContext ι} {epiRc rc : ℤ}
    (h : s.crtContextReqTrack cfg d epiRc r = some (.error rc, s')) : rc ≠ 0 := by
  rw [crtContextReqTrack] at h
  split at h
  · simp at h
  split at h
  · rename_i hrc
    have := congrArg Prod.fst (some.inj h)
    exact TrackRc.error.inj this ▸ hrc
  dsimp only at h
  split at h
  · cases h
  split at h
  · simp at h
  · obtain ⟨⟨rc', s₁⟩, _, heq⟩ := map_eq_some_iff.mp h
    split_ifs at heq with hrc
    · simp at heq
    · have := congrArg Prod.fst heq
      exact TrackRc.error.inj this ▸ hrc

/-- **`crt_context_req_track`** of an RPC that was not tracked. -/
theorem track_spec {base : CtxState ι} {epiRc : ℤ} {res : TrackRc}
    (hinv : w.base.Inv cfg) (hopc : cfg.opcUriLookup r = false) (hnew : r ∉ w.base.tracked)
    (h : w.base.track cfg d epiRc r = some (res, base)) :
    r ∈ base.tracked ∧ base.submit = w.base.submit ∧
    (res = .waitq ∧ Apart cfg {r} w { w with base := base } ∧
      (base.ctx.rpcs r).crpState = .queued ∧ ({ w with base := base } : RpcWorld ι).Waits cfg r ∨
    (res = .inflighq ∨ ∃ rc, rc ≠ 0 ∧ res = .error rc) ∧
      Moves cfg {r} w { w with base := base }) := by
  have hinv' := hinv.track hnew h
  obtain ⟨⟨res', ctx⟩, htrack, heq⟩ := map_eq_some_iff.mp h
  dsimp only at heq
  rw [if_neg (by simp [hopc])] at heq
  obtain ⟨rfl, rfl⟩ := Prod.mk.inj heq
  -- the outcome is recorded beside the context
  have hrec : ∀ s : CtxState ι, (s.record r res').ctx = s.ctx ∧
      (s.record r res').tracked = s.tracked ∧ (s.record r res').submit = s.submit := by
    intro s
    cases res' <;> exact ⟨rfl, rfl, rfl⟩
  obtain ⟨hctx, htr, hsub⟩ := hrec { w.base with ctx := ctx, tracked := r :: w.base.tracked }
  have hmem : ∀ x, x ≠ r → (x ∈ ({ w.base with ctx := ctx, tracked := r :: w.base.tracked }.record r
      res').tracked ↔ x ∈ w.base.tracked) := fun x hx => by
    rw [htr]
    simp [hx]
  have hkept : w.base.tracked ⊆ ({ w.base with ctx := ctx, tracked := r :: w.base.tracked }.record r
      res').tracked := by
    rw [htr]
    exact subset_cons_self r _
  refine ⟨by rw [htr]; exact mem_cons_self, hsub, ?_⟩
  rcases crtContextReqTrack_cases hinv.heap (hinv.untracked r hnew) htrack with
    ⟨rfl, hres⟩ | ⟨_, htracked⟩
  · obtain ⟨rc, rfl⟩ := hres.resolve_left (by simp [hopc])
    exact .inr ⟨.inr ⟨rc, error_ne_zero htrack, rfl⟩,
      .of_epis hinv' (fun _ _ => rfl) (fun _ _ => rfl) rfl rfl hmem hkept⟩
  have hstate : ∀ x, x ≠ r → (ctx.rpcs x).crpState = w.state x := fun x hx => by
    rw [htracked.other x hx]
    rfl
  have hplaced := htracked.placed
  cases res' with
  | error rc =>
    exact .inr ⟨.inr ⟨rc, error_ne_zero htrack, rfl⟩,
      .of_epis hinv' (fun _ _ => rfl) hstate hplaced rfl hmem hkept⟩
  | inflighq =>
    refine .inr ⟨.inl rfl, .of_waits hinv' (fun _ _ => rfl) hstate (fun x => ?_) rfl hmem hkept⟩
    change x ∈ (ctx.epis (cfg.epRank x)).epiReqWaitq ↔ x ∈ (w.base.ctx.epis (cfg.epRank x)).epiReqWaitq
    rw [hplaced.1, update_apply]
    split_ifs with hk
    · rw [hk]
      rfl
    · exact Iff.rfl
  | waitq =>
    have hwaits : ∀ x, x ∈ (ctx.epis (cfg.epRank x)).epiReqWaitq ↔
        x = r ∨ x ∈ (w.base.ctx.epis (cfg.epRank x)).epiReqWaitq := by
      intro x
      rw [hplaced.1, update_apply]
      split_ifs with hk
      · rw [hk, CrtEpInflight.enqueue]
        cases cfg.coiQueueFront r <;> simp [or_comm]
      · exact (or_iff_right fun hx => hk (by rw [hx])).symm
    exact .inl ⟨rfl, .of_waits hinv' (fun _ _ => rfl) hstate
      (fun x hx => (hwaits x).trans (or_iff_right hx)) (fun _ _ => Iff.rfl) hmem hkept,
      hplaced.2.2.1, (hwaits r).mpr (.inl rfl)⟩

/-! ### The callback of a lookup -/

/-- The callback of `p` is invoked with the result `rc`. -/
theorem called_spec (hcb : (w.life r).crpCompleteCb ≠ none) (hinv : w.base.Inv cfg) (rc : ℤ) :
    Moves cfg {r} w ((w.setState r (completeState rc)).called r) ∧
      ((w.setState r (completeState rc)).called r).state r = completeState rc ∧
      ((w.setState r (completeState rc)).called r).life r =
        { w.life r with calls := (w.life r).calls + 1 } := by
  have hmoves := moves_setState hinv r (completeState rc)
  rw [called, life_setState, if_neg hcb]
  refine ⟨hmoves.trans (moves_setLife hmoves.inv r _), ?_, life_setLife_self _ _ _⟩
  rw [state_setLife, state_setState_self]

/-- `p` is sent, looks for its URI again, or is completed. -/
inductive Onward (cfg : CtxCfg ι) (u p : ι) (w w' : RpcWorld ι) : Prop
  | sent (n : ℕ) (hmoves : Moves cfg {p} w w')
      (hsent : SentAs { w.life p with crpUlReq := none, crpUlRetry := n } (w'.state p) (w'.life p))
  | looking (n : ℕ) (hmoves : Moves cfg {p, u} w w') (hstate : w'.state p = .uriLookup)
      (hlife : w'.life p = { w.life p with crpUlReq := some u, crpUlRetry := n })
      (hlookup : LookupSent p u w w') (htracked : u ∈ w'.base.tracked)
  | done (n : ℕ) (rc : ℤ) (hmoves : Moves cfg {p} w w') (hstate : w'.state p = completeState rc)
      (hlife : w'.life p = { w.life p with
        crpUlReq := none, crpUlRetry := n, calls := (w.life p).calls + 1 })

/-- How `crt_req_uri_lookup_by_rpc_cb` gets to its end. -/
inductive LookupEnd (cfg : CtxCfg ι) (u p : ι) (w : RpcWorld ι) : ℤ × Bool × RpcWorld ι → Prop
  | sent (n : ℕ) (retried : Bool) (w' : RpcWorld ι) (hmoves : Moves cfg {p} w w')
      (hsent : SentAs { w.life p with
        crpUlReq := if retried then none else (w.life p).crpUlReq, crpUlRetry := n }
        (w'.state p) (w'.life p)) : LookupEnd cfg u p w (0, retried, w')
  | looking (n : ℕ) (w' : RpcWorld ι) (hmoves : Moves cfg {p, u} w w')
      (hstate : w'.state p = .uriLookup)
      (hlife : w'.life p = { w.life p with crpUlReq := some u, crpUlRetry := n })
      (hlookup : LookupSent p u w w') (htracked : u ∈ w'.base.tracked) :
      LookupEnd cfg u p w (0, true, w')
  | failed (n : ℕ) (rc : ℤ) (retried : Bool) (w' : RpcWorld ι) (hrc : rc ≠ 0)
      (hmoves : Moves cfg {p} w w') (hstate : (w'.state p).untrackable = true)
      (hlife : w'.life p = { w.life p with
        crpUlReq := if retried then none else (w.life p).crpUlReq, crpUlRetry := n }) :
      LookupEnd cfg u p w (rc, retried, w')

theorem LookupEnd.onward {rc : ℤ} {retried : Bool} (env : RpcEnv ι) (hp : ¬ w.Waits cfg p)
    (hcb : (w.life p).crpCompleteCb ≠ none) (h : LookupEnd cfg u p w (rc, retried, w')) :
    Fine ((if rc = 0 then .ok w' else (w'.untrack cfg env p).map fun w =>
      (w.setState p (completeState rc)).called p).map fun w =>
        if retried then w else w.setLife p { w.life p with crpUlReq := none }) (Onward cfg u p w) := by
  -- dropping the request, if that was not done before
  have hclear : ∀ w₁ : RpcWorld ι, Moves cfg {p} w w₁ →
      Moves cfg {p} w (if retried then w₁ else w₁.setLife p { w₁.life p with crpUlReq := none }) ∧
      (if retried then w₁ else w₁.setLife p { w₁.life p with crpUlReq := none }).state p =
        w₁.state p ∧
      (if retried then w₁ else w₁.setLife p { w₁.life p with crpUlReq := none }).life p =
        if retried then w₁.life p else { w₁.life p with crpUlReq := none } := by
    intro w₁ hm
    cases retried with
    | true => exact ⟨hm, rfl, rfl⟩
    | false => exact ⟨hm.trans (moves_setLife hm.inv p _), rfl, life_setLife_self _ _ _⟩
  cases h with
  | sent n retried w' hmoves hsent =>
    obtain ⟨hm, hst, hl⟩ := hclear w' hmoves
    refine Fine.ok (.sent n hm ?_)
    rw [hst, hl]
    generalize w'.state p = st at hsent
    generalize w'.life p = life at hsent
    cases retried <;> cases hsent <;> constructor
  | looking n w' hmoves hstate hlife hlookup htracked =>
    exact Fine.ok (.looking n hmoves hstate hlife hlookup htracked)
  | failed n rc retried w' hrc hmoves hstate hlife =>
    rw [if_neg hrc]
    have hp' := (hmoves.stays p hp).1
    have hfail : Fine ((w'.untrack cfg env p).map fun w =>
        (w.setState p (completeState rc)).called p) fun w₂ =>
          Moves cfg {p} w w₂ ∧ w₂.state p = completeState rc ∧
            w₂.life p = { w'.life p with calls := (w'.life p).calls + 1 } := by
      refine Fine.map (untrack_spec env hmoves.inv hp' (.inr hstate)) ?_
      rintro w₁ ⟨hm₁, hl₁⟩
      have hcb₁ : (w₁.life p).crpCompleteCb ≠ none := by
        rw [hl₁, hlife]
        exact hcb
      obtain ⟨hm₂, hs₂, hl₂⟩ := called_spec hcb₁ hm₁.inv rc
      exact ⟨hmoves.trans ((hm₁.mono (Set.empty_subset _)).trans hm₂), hs₂, by rw [hl₂, hl₁]⟩
    refine Fine.map hfail ?_
    rintro w₂ ⟨hm₂, hs₂, hl₂⟩
    obtain ⟨hm, hst, hl⟩ := hclear w₂ hm₂
    refine .done n rc hm (hst.trans hs₂) ?_
    rw [hl, hl₂, hlife]
    cases retried <;> rfl

section

variable (env : RpcEnv ι) (hinv : w.base.Inv cfg) (hspare : Spare cfg w env.ulReq)
  (hp : ¬ w.Waits cfg p) (htracked : p ∈ w.base.tracked) (hst : w.state p = .uriLookup)

include env hinv hspare hp htracked hst

theorem crtReqUriLookupRetry_world_spec :
    Fine (w.crtReqUriLookupRetry cfg env p) fun res => LookupEnd cfg env.ulReq p w (res.1, true, res.2) := by
  have hup : env.ulReq ≠ p := fun heq => hspare.tracked (heq ▸ htracked)
  rw [crtReqUriLookupRetry]
  have hmoves₁ := moves_setLife hinv p { w.life p with crpUlReq := none }
  have hlife₁ := life_setLife_self w p { w.life p with crpUlReq := none }
  have hst₁ : (w.setLife p { w.life p with crpUlReq := none }).state p = .uriLookup := hst
  generalize w.setLife p { w.life p with crpUlReq := none } = w₁ at hmoves₁ hlife₁ hst₁ ⊢
  split
  · rename_i hrc
    refine Fine.ok (.failed _ _ true w₁ hrc hmoves₁ ?_ hlife₁)
    rw [hst₁]
    rfl
  refine Fine.bind (Fine.ofCtx fun res hres => hres) ?_
  rintro ⟨rc, ctx⟩ hretry
  obtain ⟨rc', ctx', heq, hok, hre⟩ :=
    crtReqUriLookupRetry_spec hmoves₁.inv.heap (env.deadlines p) p
  obtain ⟨rfl, rfl⟩ := Prod.mk.inj (some.inj (heq.symm.trans hretry))
  obtain ⟨hmoves₂, hstate₂⟩ := moves_renewed hmoves₁.inv (hmoves₁.stays p hp).1
    (hmoves₁.kept htracked) hok hre
  have hlife₂ : ({ w₁ with base := w₁.base.renewed p ctx' } : RpcWorld ι).life p =
      { w.life p with crpUlReq := none } := hlife₁
  dsimp only
  generalize ({ w₁ with base := w₁.base.renewed p ctx' } : RpcWorld ι) = w₂ at hmoves₂ hstate₂ hlife₂ ⊢
  have hmoves : Moves cfg {p} w w₂ := hmoves₁.trans (hmoves₂.mono (Set.empty_subset _))
  split
  · rename_i hrc
    refine Fine.ok (.failed _ _ true w₂ hrc hmoves ?_ hlife₂)
    rw [hstate₂, hst₁]
    rfl
  -- a new attempt, from `RPC_STATE_INITED`
  have hmoves₃ := hmoves.trans (moves_setState hmoves.inv p .inited)
  have hup' : env.ulReq ∉ ({p} : Set ι) := fun heq => hup (Set.mem_singleton_iff.mp heq)
  refine (crtReqSendInternal_spec env hmoves₃.inv (hspare.moves hmoves₃.toApart hup')
    (hmoves₃.stays p hp).1 (hmoves₃.kept htracked)).mono ?_
  rintro ⟨rc, w'⟩ (⟨hm, ⟨h0, hsent⟩ | ⟨hrc, hl, hs⟩⟩ | h)
  · obtain rfl : rc = 0 := h0
    rw [life_setState, hlife₂] at hsent
    exact .sent _ true w' (hmoves₃.trans hm) hsent
  · rw [life_setState, hlife₂] at hl
    refine .failed _ rc true w' hrc (hmoves₃.trans hm) ?_ hl
    rw [show w'.state p = .inited from hs]
    rfl
  · obtain rfl : rc = 0 := h.rc
    have hlife := h.life
    rw [life_setState, hlife₂] at hlife
    refine .looking _ w' ((hmoves₃.mono (by simp)).trans h.moves) h.state hlife ?_ h.tracked
    have hlookup := h.lookup
    rwa [LookupSent, hmoves₃.life _ hup'] at hlookup

theorem uriLookupOutcome_spec (rc : ℤ) :
    Fine (w.uriLookupOutcome cfg env p rc) (LookupEnd cfg env.ulReq p w) := by
  have hup : env.ulReq ∉ ({p} : Set ι) := fun heq =>
    hspare.tracked (Set.mem_singleton_iff.mp heq ▸ htracked)
  -- giving up keeps `p` in its state
  have hfail : ∀ rc' : ℤ, rc' ≠ 0 → LookupEnd cfg env.ulReq p w (rc', false, w) := fun rc' hrc' =>
    .failed (w.life p).crpUlRetry rc' false w hrc' (.refl hinv _) (by rw [hst]; rfl) rfl
  rw [uriLookupOutcome]
  split
  · rename_i hrc
    split
    · exact Fine.ok (hfail _ (by simp [derOog, derErrGurtBase]))
    dsimp only
    have hmoves := moves_setLife hinv p { w.life p with crpUlRetry := (w.life p).crpUlRetry + 1 }
    have hlife := life_setLife_self w p { w.life p with crpUlRetry := (w.life p).crpUlRetry + 1 }
    have hst' : (w.setLife p { w.life p with crpUlRetry := (w.life p).crpUlRetry + 1 }).state p =
      .uriLookup := hst
    generalize w.setLife p { w.life p with crpUlRetry := (w.life p).crpUlRetry + 1 } = w₁
      at hmoves hlife hst' ⊢
    split
    · refine Fine.map (crtReqUriLookupRetry_world_spec env hmoves.inv (hspare.moves hmoves.toApart hup)
        (hmoves.stays p hp).1 (hmoves.kept htracked) hst') ?_
      rintro ⟨rc', w'⟩ hend
      cases hend with
      | sent n _ _ hm hsent =>
        rw [hlife] at hsent
        exact .sent n true w' (hmoves.trans hm) hsent
      | looking n _ hm hs hl hlookup htr =>
        rw [hlife] at hl
        refine .looking n w' ((hmoves.mono (by simp)).trans hm) hs hl ?_ htr
        rwa [LookupSent, hmoves.life _ hup] at hlookup
      | failed n _ _ _ hrc' hm hs hl =>
        rw [hlife] at hl
        exact .failed n rc' true w' hrc' (hmoves.trans hm) hs hl
    · refine Fine.ok (.failed _ rc false w₁ hrc hmoves ?_ hlife)
      rw [hst']
      rfl
  split
  · exact Fine.ok (hfail _ ‹_›)
  split
  · exact Fine.ok (hfail _ ‹_›)
  split
  · exact Fine.ok (hfail _ ‹_›)
  rw [crtReqSendInternal, sendInternalWith, hst]
  refine Fine.map (sendWithUri_spec env hinv hp htracked) ?_
  rintro ⟨rc', w'⟩ ⟨hm, ⟨h0, hsent⟩ | ⟨hrc', hl, hs⟩⟩
  · obtain rfl : rc' = 0 := h0
    exact .sent (w.life p).crpUlRetry false w' hm hsent
  · refine .failed (w.life p).crpUlRetry rc' false w' hrc' hm ?_ hl
    rw [show w'.state p = .inited from hs]
    rfl

end

/-- **`crt_req_uri_lookup_by_rpc_cb`**: its assertions hold if `p` is still
waiting for the request `u`. -/
theorem crtReqUriLookupByRpcCb_spec (env : RpcEnv ι) (hinv : w.base.Inv cfg)
    (hspare : Spare cfg w env.ulReq) (hp : ¬ w.Waits cfg p) (htracked : p ∈ w.base.tracked)
    (hst : w.state p = .uriLookup) (hul : (w.life p).crpUlReq = some u)
    (hcb : (w.life p).crpCompleteCb ≠ none) (rc : ℤ) :
    Fine (w.crtReqUriLookupByRpcCb cfg env p u rc) (Onward cfg env.ulReq p w) := by
  rw [crtReqUriLookupByRpcCb, if_neg (by simp [hst, hul])]
  refine Fine.bind (uriLookupOutcome_spec env hinv hspare hp htracked hst rc) ?_
  rintro ⟨rc', retried, w'⟩ hend
  exact hend.onward env hp hcb

end RpcWorld

end Cart
