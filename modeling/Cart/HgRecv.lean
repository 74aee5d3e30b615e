/-
Receiving a request (`crt_rpc_handler_common`, `crt_hg.c`).

A request is decoded in steps, and each of them can answer it with an error.  What is left goes
to the handler, or to the collective path.  The checksum is verified at the end of
`crt_hg_unpack_body`, which returns `0` all the same.

Main result: `corrupt_request_rejected_iff`.
-/
import Cart.HgProc

namespace Cart

open Wire

/-- What is registered for an opcode: the format, and whether there is a
handler. -/
structure OpcEntry (In : Type) where
  coiCrf : Option (ReqFormat In)
  coiRpcCb : Bool

/-- `crf_size_in`, and `cr_input_size` with it (`crt_rpc_inout_buff_init`). -/
def OpcEntry.sizeIn {In : Type} (info : OpcEntry In) : ℕ := (info.coiCrf.map ReqFormat.crfSizeIn).getD 0

/-- What `crt_rpc_handler_common` meets. -/
structure HandlerEnv (B In : Type) where
  hgGetInfo : Bool
  hgContextGetData : Bool
  handle : HgHandle
  crtOpcLookup : UInt32 → Option (OpcEntry In)
  rpcAllocated : Bool
  privInitRc : ℤ
  zeroInput : In
  crtRpcCommonHdlr : RpcWire B In → ℤ
  crtCorpcCommonHdlr : RpcWire B In → ℤ

/-- The error replies, and the request that is handed on. -/
structure Handled (B In : Type) where
  errors : List ℤ
  dispatched : Option (RpcWire B In)

/-- A step whose failure is answered with `rc`. -/
def orReply {α : Type} (rc : ℤ) : Except Stop α → Except ℤ α
  | .ok a => .ok a
  | .error _ => .error rc

/-- A condition whose failure is answered with `rc`. -/
def require (p : Prop) [Decidable p] (rc : ℤ) : Except ℤ Unit := if p then .ok () else .error rc

namespace HandlerEnv

variable {B In : Type} (m : Mercury B) (env : HandlerEnv B In)

/-- What was received, nothing if Mercury does not hand it out. -/
def bytes : List UInt8 := env.handle.received.getD []

/-- The opcode of the header is looked up. -/
def opcInfo (rpcTmp : RpcWire B In) : Except ℤ (OpcEntry In) :=
  match env.crtOpcLookup rpcTmp.crpReqHdr.cchOpc with
  | none => .error (-derUnreg)
  | some info => .ok info

/-- The request as it is allocated for the header. -/
def newRequest (rpcTmp : RpcWire B In) : RpcWire B In :=
  { crtHgHeaderCopy rpcTmp (.zero B In) with
    epRank := rpcTmp.crpReqHdr.cchDstRank
    epTag := rpcTmp.crpReqHdr.cchDstTag }

/-- The input of a request, if its format has one. -/
def unpackInput (info : OpcEntry In) (rpc : RpcWire B In) (proc : Stream UInt8) :
    Except Stop (RpcWire B In × Stream UInt8) :=
  if 0 < info.sizeIn then crtHgUnpackBody m env.bytes info.coiCrf env.zeroInput rpc proc
  else .ok (rpc, proc)

/-- `crt_rpc_handler_common` up to the dispatch: the error it replies with, or the request. -/
def accept : Except ℤ (RpcWire B In) :=
  (orReply (-derMisc) (crtHgUnpackHeader m env.handle (.zero B In))).bind fun header =>
  (env.opcInfo header.1).bind fun info =>
  (require (env.rpcAllocated = true) (-derDos)).bind fun _ =>
  (require (env.privInitRc = 0) (-derMisc)).bind fun _ =>
  (orReply (-derMisc) (env.unpackInput m info (newRequest header.1) header.2)).bind fun body =>
  (require (info.coiRpcCb = true) (-derUnreg)).bind fun _ =>
  .ok body.1

def crtRpcHandlerCommon : Handled B In :=
  if env.hgGetInfo = false ∨ env.hgContextGetData = false then ⟨[], none⟩
  else
    match env.accept m with
    | .error rc => ⟨[rc], none⟩
    | .ok rpc =>
      let rc := if rpc.coll then env.crtCorpcCommonHdlr rpc else env.crtRpcCommonHdlr rpc
      ⟨if rc ≠ 0 then [rc] else [], some rpc⟩

/-! ### What a request needs -/

/-- The headers of the request and its input can be decoded, with what is left
of the bytes then. -/
def Decodes (info : OpcEntry In) (proc : Stream UInt8) : Prop :=
  ∃ rpcTmp headers input,
    crtHgUnpackHeader m env.handle (.zero B In) = .ok (rpcTmp, headers) ∧
      env.crtOpcLookup rpcTmp.crpReqHdr.cchOpc = some info ∧
      crtProcInput info.coiCrf env.zeroInput headers = .ok (input, proc)

/-- Every field is decoded, and the checksum is right. -/
def Intact : Prop :=
  ∃ info proc, env.Decodes m info proc ∧ m.hgProcFlush env.bytes proc.buf = true

/-- Nothing but the checksum can stop the request. -/
def Dispatchable : Prop :=
  env.rpcAllocated = true ∧ env.privInitRc = 0 ∧
    ∃ info proc, env.Decodes m info proc ∧ info.coiRpcCb = true

/-- The opcode is registered with an input. -/
def HasInput : Prop :=
  ∀ rpcTmp headers info, crtHgUnpackHeader m env.handle (.zero B In) = .ok (rpcTmp, headers) →
    env.crtOpcLookup rpcTmp.crpReqHdr.cchOpc = some info → 0 < info.sizeIn

variable {m env}

/-- `crt_hg_unpack_body` returns what the format's proc returns. -/
theorem unpackInput_eq {info : OpcEntry In} (hsize : 0 < info.sizeIn) (rpc : RpcWire B In)
    (proc : Stream UInt8) : env.unpackInput m info rpc proc =
      (crtProcInput info.coiCrf env.zeroInput proc).map fun r =>
        ({ rpc with crInput := some r.1 }, r.2) := by
  rw [unpackInput, if_pos hsize, crtHgUnpackBody]
  cases crtProcInput info.coiCrf env.zeroInput proc with
  | error stop => rfl
  | ok r => exact ite_self _

end HandlerEnv

/-! ### The stages -/

theorem orReply_eq_ok {α : Type} {rc : ℤ} {r : Except Stop α} {a : α} :
    orReply rc r = .ok a ↔ r = .ok a := by
  cases r with
  | error stop | ok b => simp [orReply]

theorem require_eq_ok {p : Prop} [Decidable p] {rc : ℤ} {u : Unit} : require p rc = .ok u ↔ p := by
  by_cases hp : p <;> simp [require, hp]

/-- Errors are answered with an error. -/
def ErrorCodes {α : Type} (r : Except ℤ α) : Prop := ∀ rc, r = .error rc → rc ≠ 0

theorem ErrorCodes.bind {α β : Type} {r : Except ℤ α} {k : α → Except ℤ β} (hr : ErrorCodes r)
    (hk : ∀ a, ErrorCodes (k a)) : ErrorCodes (r.bind k) := by
  intro rc h
  cases r with
  | error c =>
    cases h
    exact hr rc rfl
  | ok a => exact hk a rc h

theorem errorCodes_orReply {α : Type} {rc : ℤ} (hrc : rc ≠ 0) (r : Except Stop α) :
    ErrorCodes (orReply rc r) := by
  cases r with
  | error stop =>
    rintro _ ⟨⟩
    exact hrc
  | ok a => rintro _ ⟨⟩

theorem errorCodes_require {p : Prop} [Decidable p] {rc : ℤ} (hrc : rc ≠ 0) :
    ErrorCodes (require p rc) := by
  intro c h
  rw [require] at h
  split_ifs at h
  cases h
  exact hrc

namespace HandlerEnv

variable {B In : Type} {m : Mercury B} {env : HandlerEnv B In}

theorem opcInfo_eq_ok {rpcTmp : RpcWire B In} {info : OpcEntry In} :
    env.opcInfo rpcTmp = .ok info ↔ env.crtOpcLookup rpcTmp.crpReqHdr.cchOpc = some info := by
  rw [opcInfo]
  cases env.crtOpcLookup rpcTmp.crpReqHdr.cchOpc <;> simp

theorem errorCodes_opcInfo (rpcTmp : RpcWire B In) : ErrorCodes (env.opcInfo rpcTmp) := by
  intro rc h
  rw [opcInfo] at h
  cases hlookup : env.crtOpcLookup rpcTmp.crpReqHdr.cchOpc with
  | none =>
    rw [hlookup] at h
    cases h
    decide
  | some info =>
    rw [hlookup] at h
    cases h

theorem errorCodes_accept : ErrorCodes (env.accept m) := by
  refine (errorCodes_orReply (by decide) _).bind fun header => ?_
  refine (errorCodes_opcInfo header.1).bind fun info => ?_
  refine (errorCodes_require (by decide)).bind fun _ => ?_
  refine (errorCodes_require (by decide)).bind fun _ => ?_
  refine (errorCodes_orReply (by decide) _).bind fun body => ?_
  refine (errorCodes_require (by decide)).bind fun _ => ?_
  rintro _ ⟨⟩

/-- Requests are accepted whatever the checksum says. -/
theorem exists_accept_iff (hin : env.HasInput m) :
    (∃ rpc, env.accept m = .ok rpc) ↔ env.Dispatchable m := by
  constructor
  · rintro ⟨rpc, h⟩
    obtain ⟨⟨rpcTmp, headers⟩, hheader, h⟩ := Faults.exists_of_bind_eq_ok h
    obtain ⟨info, hinfo, h⟩ := Faults.exists_of_bind_eq_ok h
    obtain ⟨_, halloc, h⟩ := Faults.exists_of_bind_eq_ok h
    obtain ⟨_, hinit, h⟩ := Faults.exists_of_bind_eq_ok h
    obtain ⟨body, hbody, h⟩ := Faults.exists_of_bind_eq_ok h
    obtain ⟨_, hcb, _⟩ := Faults.exists_of_bind_eq_ok h
    rw [orReply_eq_ok] at hheader hbody
    rw [opcInfo_eq_ok] at hinfo
    rw [require_eq_ok] at halloc hinit hcb
    rw [unpackInput_eq (hin rpcTmp headers info hheader hinfo)] at hbody
    cases hinput : crtProcInput info.coiCrf env.zeroInput headers with
    | error stop =>
      rw [hinput] at hbody
      cases hbody
    | ok r =>
      exact ⟨halloc, hinit, info, r.2, ⟨rpcTmp, headers, r.1, hheader, hinfo, hinput⟩, hcb⟩
  · rintro ⟨halloc, hinit, info, proc, ⟨rpcTmp, headers, input, hheader, hinfo, hinput⟩, hcb⟩
    refine ⟨{ newRequest rpcTmp with crInput := some input }, ?_⟩
    rw [accept, orReply_eq_ok.mpr hheader]
    show (env.opcInfo rpcTmp).bind _ = _
    rw [opcInfo_eq_ok.mpr hinfo]
    rw [require_eq_ok (u := ()) |>.mpr halloc]
    rw [require_eq_ok (u := ()) |>.mpr hinit]
    show (orReply _ _).bind _ = _
    rw [unpackInput_eq (hin rpcTmp headers info hheader hinfo), hinput]
    rw [require_eq_ok (u := ()) |>.mpr hcb]
    rfl

/-- **Corrupt requests** do not get to a handler and are answered, exactly if something other
than the checksum stops them and their origin is known. -/
theorem corrupt_request_rejected_iff (hin : env.HasInput m) :
    (((env.crtRpcHandlerCommon m).dispatched ≠ none → env.Intact m) ∧
        (¬ env.Intact m → (∃ rc, rc ≠ 0 ∧ (env.crtRpcHandlerCommon m).errors = [rc]) ∧
          (env.crtRpcHandlerCommon m).dispatched = none)) ↔
      env.Intact m ∨
        env.hgGetInfo = true ∧ env.hgContextGetData = true ∧ ¬ env.Dispatchable m := by
  by_cases hintact : env.Intact m
  · simp [hintact]
  rw [crtRpcHandlerCommon, ← exists_accept_iff hin]
  by_cases hinfo : env.hgGetInfo = false ∨ env.hgContextGetData = false
  · -- nobody is told
    rw [if_pos hinfo]
    constructor
    · rintro ⟨_, hreply⟩
      obtain ⟨⟨rc, _, hrc⟩, _⟩ := hreply hintact
      cases hrc
    · rintro (h | ⟨hget, hctx, _⟩)
      · exact absurd h hintact
      · simp [hget, hctx] at hinfo
  · rw [if_neg hinfo]
    simp only [not_or, Bool.not_eq_false] at hinfo
    cases haccept : env.accept m with
    | error rc =>
      simp only [hinfo.1, hinfo.2, hintact, ne_eq, not_true_eq_false, false_implies,
        not_false_eq_true, true_implies, true_and, false_or, and_true, reduceCtorEq, exists_false,
        iff_true]
      exact ⟨rc, errorCodes_accept rc haccept, rfl⟩
    | ok rpc =>
      constructor
      · rintro ⟨honly, _⟩
        exact absurd (honly (by simp)) hintact
      · rintro (h | ⟨_, _, h⟩)
        · exact absurd h hintact
        · exact absurd ⟨rpc, rfl⟩ h

end HandlerEnv

/-- A node that knows one collective RPC, and receives `bytes`. -/
def sampleEnv (bytes : List UInt8) : HandlerEnv Unit UInt32 where
  hgGetInfo := true
  hgContextGetData := true
  handle := ⟨some none, some bytes, true⟩
  crtOpcLookup _ := some ⟨some sampleFormat, true⟩
  rpcAllocated := true
  privInitRc := 0
  zeroInput := 0
  crtRpcCommonHdlr _ := 0
  crtCorpcCommonHdlr _ := 0

theorem sampleEnv_hasInput (m : Mercury Unit) (bytes : List UInt8) :
    (sampleEnv bytes).HasInput m := by
  rintro rpcTmp headers _ _ ⟨⟩
  decide

/-- A request whose last byte is missing is answered and rejected. -/
theorem truncated_request_rejected :
    let handled := (sampleEnv sampleBytes.dropLast).crtRpcHandlerCommon littleEndianMercury
    (∃ rc, rc ≠ 0 ∧ handled.errors = [rc]) ∧ handled.dispatched = none := by
  have hcut : ∀ info proc,
      ¬ (sampleEnv sampleBytes.dropLast).Decodes littleEndianMercury info proc := by
    rintro _ _ ⟨_, _, _, hheader, hinfo, hinput⟩
    cases hheader
    cases hinfo
    cases hinput
  exact ((HandlerEnv.corrupt_request_rejected_iff (sampleEnv_hasInput _ _)).mpr
    (Or.inr ⟨rfl, rfl, fun ⟨_, _, _, _, h, _⟩ => hcut _ _ h⟩)).2 fun ⟨_, _, h, _⟩ => hcut _ _ h

/-- A request whose checksum is wrong is handed to the collective path. -/
theorem wrong_checksum_dispatched :
    let m := { littleEndianMercury with hgProcFlush := fun _ _ => false }
    (sampleEnv sampleBytes).HasInput m ∧ ¬ (sampleEnv sampleBytes).Intact m ∧
      ((sampleEnv sampleBytes).crtRpcHandlerCommon m).dispatched.isSome = true ∧
      ((sampleEnv sampleBytes).crtRpcHandlerCommon m).errors = [] := by
  refine ⟨sampleEnv_hasInput _ _, ?_, rfl, rfl⟩
  rintro ⟨_, _, _, hflush⟩
  cases hflush

end Cart
