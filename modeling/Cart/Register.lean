/-
Registration of protocols (`crt_register.c`).

The RPCs of a process are kept in a map of three levels, indexed by eight bits of the base
opcode, eight of the version and sixteen of the RPC.  A registration makes the second and the
third level large enough and then enters its RPCs one after the other.
-/
import Cart.Basic
import Cart.GrowArray

namespace Cart

/-! ### Opcodes -/

def crtProtoMaxVer : UInt32 := 0xFF

def crtProtoMaxCount : UInt32 := 0xFFFF

def crtProtoBaseopcMask : UInt32 := 0xFF000000

def crtProtoVerMask : UInt32 := 0x00FF0000

def crtProtoCountMask : UInt32 := 0x0000FFFF

def crtProtoOpc (baseOpc version rpcIndex : UInt32) : UInt32 :=
  baseOpc ||| version <<< 16 ||| rpcIndex

def l1Idx (opc : UInt32) : ℕ := (opc >>> 24).toNat

def l2Idx (opc : UInt32) : ℕ := ((opc &&& crtProtoVerMask) >>> 16).toNat

def l3Idx (opc : UInt32) : ℕ := (opc &&& crtProtoCountMask).toNat

def validateBaseOpcode (baseOpc : UInt32) : Bool :=
  if baseOpc = 0 then false
  else if baseOpc &&& ~~~crtProtoBaseopcMask ≠ 0 then false
  -- kept for the RPCs of the library
  else if baseOpc = crtProtoBaseopcMask then false
  else true

/-! ### Formats -/

structure CrtReqFormat where
  crfProcIn : ℕ
  crfProcOut : ℕ
  crfSizeIn : ℕ
  crfSizeOut : ℕ
  deriving DecidableEq

/-- The format, the handler and the collective operations can be `NULL`. -/
structure CrtProtoRpcFormat where
  prfReqFmt : Option CrtReqFormat
  prfHdlr : Option ℕ
  prfCoOps : Option ℕ
  prfFlags : UInt32
  deriving DecidableEq

structure CrtProtoFormat where
  cpfVer : UInt32
  cpfCount : UInt32
  cpfPrf : Option (ℕ → CrtProtoRpcFormat)
  cpfBase : UInt32

/-- The opcode of the `i`-th RPC. -/
def CrtProtoFormat.opc (cpf : CrtProtoFormat) (i : ℕ) : UInt32 :=
  crtProtoOpc cpf.cpfBase cpf.cpfVer (UInt32.ofNat i)

/-! ### Records -/

structure CrtOpcInfo where
  coiOpc : UInt32
  coiInited : Bool
  coiProcInit : Bool
  coiRpccbInit : Bool
  coiCoopsInit : Bool
  coiNoReply : Bool
  coiQueueFront : Bool
  coiResetTimer : Bool
  coiRpcCb : Option ℕ
  coiCoOps : Option ℕ
  coiRpcSize : ℕ
  coiInputOffset : ℕ
  coiOutputOffset : ℕ
  coiCrf : Option CrtReqFormat
  deriving DecidableEq

/-- A record whose memory is zero. -/
def CrtOpcInfo.zero : CrtOpcInfo :=
  ⟨0, false, false, false, false, false, false, false, none, none, 0, 0, 0, none⟩

/-- `CRT_MAX_INPUT_SIZE` and `CRT_MAX_OUTPUT_SIZE`. -/
def crtMaxSize : ℕ := 0x4000000

def crtRpcFeatNoReply : UInt32 := (1 : UInt32) <<< 1

def crtRpcFeatNoTimeout : UInt32 := (1 : UInt32) <<< 2

def crtRpcFeatQueueFront : UInt32 := (1 : UInt32) <<< 3

def dBitIsSet (val bit : UInt32) : Bool := val &&& bit ≠ 0

def dAlignup (x a : ℕ) : ℕ := (x + (a - 1)) / a * a

namespace CrtOpcInfo

variable (privSize : ℕ) (info : CrtOpcInfo) (opc flags : UInt32) (crf : Option CrtReqFormat)
  (rpcCb coOps : Option ℕ)

/-- The record that `crt_opc_reg` fills in.  `privSize` is the size of
`struct crt_rpc_priv`. -/
def filled : CrtOpcInfo :=
  let sizeIn := (crf.map CrtReqFormat.crfSizeIn).getD 0
  let sizeOut := (crf.map CrtReqFormat.crfSizeOut).getD 0
  let outputOffset := dAlignup privSize 64
  let inputOffset := dAlignup (outputOffset + sizeOut) 64
  { info with
    coiOpc := opc
    coiCrf := crf
    coiProcInit := true
    coiRpcCb := if rpcCb.isSome then rpcCb else info.coiRpcCb
    coiRpccbInit := rpcCb.isSome || info.coiRpccbInit
    coiCoOps := if coOps.isSome then coOps else info.coiCoOps
    coiCoopsInit := coOps.isSome || info.coiCoopsInit
    coiInited := true
    coiOutputOffset := outputOffset
    coiInputOffset := inputOffset
    coiRpcSize := privSize + inputOffset + sizeIn
    coiNoReply := dBitIsSet flags crtRpcFeatNoReply
    coiResetTimer := dBitIsSet flags crtRpcFeatNoTimeout
    coiQueueFront := dBitIsSet flags crtRpcFeatQueueFront }

def crtOpcReg : ℤ × CrtOpcInfo :=
  if info.coiInited then (-derExist, info)
  else (0, info.filled privSize opc flags crf rpcCb coOps)

end CrtOpcInfo

/-- The input or the output of the RPC is too large. -/
def CrtProtoRpcFormat.TooLarge (prf : CrtProtoRpcFormat) : Prop :=
  ∃ crf ∈ prf.prfReqFmt, crtMaxSize < crf.crfSizeIn ∨ crtMaxSize < crf.crfSizeOut
deriving Decidable

def CrtOpcInfo.crtOpcRegInternal (privSize : ℕ) (info : CrtOpcInfo) (opc : UInt32)
    (prf : CrtProtoRpcFormat) : ℤ × CrtOpcInfo :=
  if prf.TooLarge then (-derInval, info)
  else info.crtOpcReg privSize opc prf.prfFlags prf.prfReqFmt prf.prfHdlr prf.prfCoOps

/-! ### The map -/

/-- `L3_num_slots_total` is the length of the array. -/
structure CrtOpcMapL3 where
  l3Map : List CrtOpcInfo
  deriving DecidableEq

structure CrtOpcMapL2 where
  l2Map : List CrtOpcMapL3
  deriving DecidableEq

structure CrtOpcMap where
  comMap : List CrtOpcMapL2
  deriving DecidableEq

/-- Which allocations of a registration succeed. -/
structure RegEnv where
  allocL2 : Bool
  allocL3 : Bool

/-- The loop of `crt_proto_reg_L3` over `n` RPCs from the `i`-th on. -/
def regLoop (privSize : ℕ) (cpf : CrtProtoFormat) (prf : ℕ → CrtProtoRpcFormat) :
    ℕ → ℕ → List CrtOpcInfo → ℤ × List CrtOpcInfo
  | 0, _, slots => (0, slots)
  | n + 1, i, slots =>
    let (rc, info) := (slots.getD i .zero).crtOpcRegInternal privSize (cpf.opc i) (prf i)
    if rc ≠ 0 then (rc, slots.set i info)
    else regLoop privSize cpf prf n (i + 1) (slots.set i info)

def CrtOpcMapL3.crtProtoRegL3 (privSize : ℕ) (env : RegEnv) (l3 : CrtOpcMapL3) (cpf : CrtProtoFormat)
    (prf : ℕ → CrtProtoRpcFormat) : ℤ × CrtOpcMapL3 :=
  let count := cpf.cpfCount.toNat
  if l3.l3Map.length < count ∧ env.allocL3 = false then (-derNomem, l3)
  else
    let (rc, slots) := regLoop privSize cpf prf count 0 (GrowArray.grow .zero count l3.l3Map)
    (rc, ⟨slots⟩)

namespace CrtOpcMapL2

/-- `get_L3_map`, which returns the second level with an entry for the version. -/
def getL3Map (env : RegEnv) (l2 : CrtOpcMapL2) (cpf : CrtProtoFormat) : Option CrtOpcMapL2 :=
  let ver := cpf.cpfVer.toNat
  if l2.l2Map.length < ver + 1 ∧ env.allocL2 = false then none
  else some ⟨GrowArray.grow ⟨[]⟩ (ver + 1) l2.l2Map⟩

def crtProtoRegL2 (privSize : ℕ) (env : RegEnv) (l2 : CrtOpcMapL2) (cpf : CrtProtoFormat)
    (prf : ℕ → CrtProtoRpcFormat) : ℤ × CrtOpcMapL2 :=
  match l2.getL3Map env cpf with
  | none => (-derNomem, l2)
  | some l2 =>
    let (rc, l3) := (l2.l2Map.getD cpf.cpfVer.toNat ⟨[]⟩).crtProtoRegL3 privSize env cpf prf
    (rc, ⟨l2.l2Map.set cpf.cpfVer.toNat l3⟩)

end CrtOpcMapL2

namespace CrtOpcMap

/-- `crt_opc_map_create` before it registers the RPCs of the library. -/
def crtOpcMapCreate (bits : UInt64) : CrtOpcMap :=
  let count := (~~~((0xFFFFFFFF : UInt64) >>> bits <<< bits) + 1).toUInt32
  ⟨List.replicate count.toNat ⟨[]⟩⟩

def crtOpcMapBits : UInt64 := 8

variable (privSize : ℕ) (env : RegEnv) (map : CrtOpcMap) (opc : UInt32)

/-- `none` is a failed `D_ASSERT`. -/
def crtProtoRegL1 (cpf : CrtProtoFormat) (prf : ℕ → CrtProtoRpcFormat) : Option (ℤ × CrtOpcMap) :=
  let index := (cpf.cpfBase >>> 24).toNat
  match map.comMap[index]? with
  | none => none
  | some l2 =>
    let (rc, l2) := l2.crtProtoRegL2 privSize env cpf prf
    some (rc, ⟨map.comMap.set index l2⟩)

def crtProtoRegisterCommon (cpf : CrtProtoFormat) : Option (ℤ × CrtOpcMap) :=
  if crtProtoMaxVer < cpf.cpfVer then some (-derInval, map)
  else if crtProtoMaxCount < cpf.cpfCount then some (-derInval, map)
  else if cpf.cpfCount = 0 then some (-derInval, map)
  else
    match cpf.cpfPrf with
    | none => some (-derInval, map)
    | some prf => map.crtProtoRegL1 privSize env cpf prf

/-- `crt_proto_register`, or `crt_proto_register_internal`. -/
def crtProtoRegister (internal : Bool) (env : RegEnv) (map : CrtOpcMap)
    (cpf : Option CrtProtoFormat) : Option (ℤ × CrtOpcMap) :=
  match cpf with
  | none => some (-derInval, map)
  | some cpf =>
    if internal then
      if cpf.cpfBase ^^^ crtProtoBaseopcMask ≠ 0 then some (-derInval, map)
      else map.crtProtoRegisterCommon privSize env cpf
    else if validateBaseOpcode cpf.cpfBase = false then some (-derInval, map)
    else map.crtProtoRegisterCommon privSize env cpf

/-! ### Lookups -/

def crtOpcLookup : Option CrtOpcInfo :=
  match map.comMap[l1Idx opc]? with
  | none => none
  | some l2 =>
    match l2.l2Map[l2Idx opc]? with
    | none => none
    | some l3 => l3.l3Map[l3Idx opc]?

/-- The check of `crt_rpc_handler_common` on the opcode of a request. -/
def recvOpcInfo : Option (Except ℤ CrtOpcInfo) :=
  match map.crtOpcLookup opc with
  | none => some (.error (-derUnreg))
  | some info => if info.coiOpc = opc then some (.ok info) else none

def crtProtoLookup : ℤ :=
  match map.comMap[l1Idx opc]? with
  | none => -derNonexist
  | some l2 =>
    if l2.l2Map.length = 0 then -derNonexist
    else
      match l2.l2Map[l2Idx opc]? with
      | none => -derUnreg
      | some l3 => if l3.l3Map.length = 0 then -derUnreg else 0

def crtProtoQueryLocal (baseOpc ver : UInt32) : ℤ :=
  map.crtProtoLookup (crtProtoOpc baseOpc ver 0)

/-- The loop of `crt_hdlr_proto_query`, with `high_ver`, `rc_tmp` and `rc`. -/
def protoQueryLoop (map : CrtOpcMap) (baseOpc : UInt32) :
    List UInt32 → UInt32 → ℤ → ℤ → UInt32 × ℤ × ℤ
  | [], highVer, rcTmp, rc => (highVer, rcTmp, rc)
  | ver :: vers, highVer, rcTmp, rc =>
    if ver < highVer then protoQueryLoop map baseOpc vers highVer rcTmp rc
    else
      let rcTmp := map.crtProtoQueryLocal baseOpc ver
      if rcTmp ≠ 0 then protoQueryLoop map baseOpc vers highVer rcTmp rc
      else if highVer ≤ ver then protoQueryLoop map baseOpc vers ver rcTmp 0
      else protoQueryLoop map baseOpc vers highVer rcTmp rc

/-- `pq_ver` and `pq_rc` of the reply. -/
def crtHdlrProtoQuery (baseOpc : UInt32) (vers : List UInt32) : Option (UInt32 × ℤ) :=
  -- an empty list arrives without a buffer, and the assertion fails
  if vers = [] then none
  else
    let (highVer, rcTmp, rc) := map.protoQueryLoop baseOpc vers 0 (-derNonexist) (-derNonexist)
    some (highVer, if rc ≠ 0 then rcTmp else rc)

end CrtOpcMap

end Cart
