/-
Requests on the wire (`crt_hg_proc.c`).

`crt_proc_in_common` writes the common header, the collective header if there is one, and the
input.  `crt_hg_unpack_header` and `crt_hg_unpack_body` read them back.  Mercury's own procs,
the allocator, the checksum and the proc of the RPC's format are parameters.

Main result: `request_round_trip`.
-/
import Cart.CorpcCreate
import Cart.Wire

open List UInt32

namespace Cart

open Wire

variable {B In : Type}

/-! ### Values on the wire -/

structure CrtCommonHdr where
  cchOpc : UInt32
  cchFlags : UInt32
  cchHlc : UInt64
  cchDstRank : UInt32
  cchSrcRank : UInt32
  cchDstTag : UInt32
  cchXid : UInt32
  cchRc : UInt32
  deriving DecidableEq, Repr

namespace CrtCommonHdr

/-- A header of zeros. -/
def zero : CrtCommonHdr := ⟨0, 0, 0, 0, 0, 0, 0, 0⟩

/-- `sizeof(struct crt_common_hdr)`: the last word is padding. -/
def size : ℕ := 40

/-- The header in memory. -/
def image (hdr : CrtCommonHdr) : List UInt8 :=
  leBytes 4 hdr.cchOpc.toNat ++ (leBytes 4 hdr.cchFlags.toNat ++ (leBytes 8 hdr.cchHlc.toNat ++
    (leBytes 4 hdr.cchDstRank.toNat ++ (leBytes 4 hdr.cchSrcRank.toNat ++
      (leBytes 4 hdr.cchDstTag.toNat ++ (leBytes 4 hdr.cchXid.toNat ++
        (leBytes 4 hdr.cchRc.toNat ++ leBytes 4 0)))))))

/-- The `uint32_t` at an offset. -/
def word (bytes : List UInt8) (offset : ℕ) : UInt32 :=
  .ofNat (ofLeBytes ((bytes.drop offset).take 4))

/-- The memory read as a header. -/
def ofImage (bytes : List UInt8) : CrtCommonHdr where
  cchOpc := word bytes 0
  cchFlags := word bytes 4
  cchHlc := .ofNat (ofLeBytes ((bytes.drop 8).take 8))
  cchDstRank := word bytes 16
  cchSrcRank := word bytes 20
  cchDstTag := word bytes 24
  cchXid := word bytes 28
  cchRc := word bytes 32

@[simp] theorem length_image (hdr : CrtCommonHdr) : hdr.image.length = size := by
  simp [image, size]

@[simp] theorem ofImage_image (hdr : CrtCommonHdr) : ofImage hdr.image = hdr := by
  simp [ofImage, word, image, drop_append, drop_eq_nil_of_le]

end CrtCommonHdr

/-- `struct crt_corpc_hdr`, with all its fields; `B` are the bulk handles. -/
structure CrtCoreqHdr (B : Type) where
  cohGrpid : Option String
  cohBulkHdl : Option B
  cohFilterRanks : Option DRankList
  cohInlineRanks : Option DRankList
  cohGrpVer : UInt32
  cohTreeTopo : UInt32
  cohRoot : UInt32
  cohPadding : UInt32

/-- A header of zeros. -/
def CrtCoreqHdr.zero (B : Type) : CrtCoreqHdr B := ⟨none, none, none, none, 0, 0, 0, 0⟩

/-- `d_iov_t`: a buffer of `iov_buf_len` bytes, of which `iov_len` are in use. -/
structure DIov where
  iovBuf : List UInt8
  iovBufLen : UInt64
  iovLen : UInt64
  iovFits : iovBuf.length = iovBufLen.toNat
  deriving DecidableEq

namespace DIov

/-- No buffer. -/
def null : DIov := ⟨[], 0, 0, rfl⟩

/-- `memcpy` to the start of a buffer, which keeps its size. -/
def overwrite (buf bytes : List UInt8) : List UInt8 :=
  bytes.take buf.length ++ buf.drop bytes.length

@[simp] theorem length_overwrite (buf bytes : List UInt8) :
    (overwrite buf bytes).length = buf.length := by
  simp only [overwrite, length_append, length_take, length_drop]
  omega

/-- The bytes in use. -/
def used (iov : DIov) : List UInt8 := iov.iovBuf.take iov.iovLen.toNat

end DIov

/-! ### The procs -/

/-- Mercury's procs, `D_ALLOC` by the size, and `hg_proc_flush`. -/
structure Mercury (B : Type) where
  uint32 : Prim UInt8 UInt32
  uint64 : Prim UInt8 UInt64
  string : Prim UInt8 (Option String)
  bulk : Prim UInt8 (Option B)
  memcpy : ℕ → Prim UInt8 (List UInt8)
  dAlloc : ℕ → Bool
  hgProcFlush : List UInt8 → List UInt8 → Bool

/-- Mercury's procs read what they wrote. -/
structure Mercury.RoundTrips {B : Type} (m : Mercury B) : Prop where
  uint32 : ∀ x, m.uint32.RoundTrips x
  uint64 : ∀ x, m.uint64.RoundTrips x
  string : ∀ s, m.string.RoundTrips s
  bulk : ∀ b, m.bulk.RoundTrips b
  memcpy : ∀ bytes, (m.memcpy bytes.length).RoundTrips bytes

section Procs

variable (m : Mercury B)

/-- `crt_proc_uint32_t`, and `crt_proc_d_rank_t`. -/
def crtProcUint32 : UInt32 → Proc Stop UInt8 UInt32 := m.uint32.proc (.rc (-derHg))

/-- `crt_proc_uint64_t`. -/
def crtProcUint64 : UInt64 → Proc Stop UInt8 UInt64 := m.uint64.proc (.rc (-derHg))

/-- `crt_proc_d_string_t`, and `crt_proc_crt_group_id_t`. -/
def crtProcDString : Option String → Proc Stop UInt8 (Option String) :=
  m.string.proc (.rc (-derHg))

/-- `crt_proc_crt_bulk_t`. -/
def crtProcCrtBulk : Option B → Proc Stop UInt8 (Option B) := m.bulk.proc (.rc (-derHg))

/-- Of `size` bytes. -/
def crtProcMemcpy (size : ℕ) : List UInt8 → Proc Stop UInt8 (List UInt8) :=
  (m.memcpy size).proc (.rc (-derHg))

/-- `D_ALLOC`. -/
def crtProcAlloc (size : ℕ) : Proc Stop UInt8 Unit :=
  if m.dAlloc size = true then pure () else throw (.rc (-derNomem))

def crtProcDRankListT (data : Option DRankList) : Proc Stop UInt8 (Option DRankList) := do
  match ← getOp with
  | .encode =>
    match data with
    | none =>
      let _ ← crtProcUint32 m 0
      return none
    | some rankList =>
      let _ ← crtProcUint32 m (.ofNat rankList.rlNr)
      let _ ← procEach (crtProcUint32 m) (rankList.toList.map ofNat)
      return some rankList
  | .decode =>
    let rankNum ← crtProcUint32 m 0
    if rankNum = 0 then return none
    -- the list itself, then its array
    crtProcAlloc m 16
    crtProcAlloc m (4 * rankNum.toNat)
    let ranks ← procEach (crtProcUint32 m) (List.replicate rankNum.toNat 0)
    return some (.ofList (ranks.map toNat))
  | .free => return none

/-- The buffer that `crt_proc_d_iov_t` copies from or to. -/
def iovBuffer (div : DIov) (iovBufLen : UInt64) : ProcOp → Proc Stop UInt8 (List UInt8)
  | .decode =>
    if 0 < iovBufLen then do
      crtProcAlloc m iovBufLen.toNat
      return List.replicate iovBufLen.toNat 0
    else return []
  | _ => return div.iovBuf

/-- A buffer with the lengths that go with it. -/
def DIov.ofBuffer (buf : List UInt8) (iovBufLen iovLen : UInt64) : DIov :=
  if h : buf.length = iovBufLen.toNat then ⟨buf, iovBufLen, iovLen, h⟩ else .null

def crtProcDIovT (div : DIov) : Proc Stop UInt8 DIov := do
  let procOp ← getOp
  if procOp = .free then return .null
  let iovLen ← crtProcUint64 m div.iovLen
  let iovBufLen ← crtProcUint64 m div.iovBufLen
  if iovBufLen < iovLen then throw (.rc (-derHg))
  let buf ← iovBuffer m div iovBufLen procOp
  let bytes ← crtProcMemcpy m iovLen.toNat (buf.take iovLen.toNat)
  return .ofBuffer (DIov.overwrite buf bytes) iovBufLen iovLen

def crtProcCorpcHdr (hdr : CrtCoreqHdr B) : Proc Stop UInt8 (CrtCoreqHdr B) := do
  let cohGrpid ← crtProcDString m hdr.cohGrpid
  let cohBulkHdl ← crtProcCrtBulk m hdr.cohBulkHdl
  let cohFilterRanks ← crtProcDRankListT m hdr.cohFilterRanks
  let cohInlineRanks ← crtProcDRankListT m hdr.cohInlineRanks
  let cohGrpVer ← crtProcUint32 m hdr.cohGrpVer
  let cohTreeTopo ← crtProcUint32 m hdr.cohTreeTopo
  let cohRoot ← crtProcUint32 m hdr.cohRoot
  let cohPadding ← crtProcUint32 m hdr.cohPadding
  return ⟨cohGrpid, cohBulkHdl, cohFilterRanks, cohInlineRanks, cohGrpVer, cohTreeTopo, cohRoot,
    cohPadding⟩

def crtProcCommonHdr (hdr : CrtCommonHdr) : Proc Stop UInt8 CrtCommonHdr := do
  let bytes ← crtProcMemcpy m CrtCommonHdr.size hdr.image
  return .ofImage bytes

end Procs

/-! ### Requests -/

/-- The input side of `struct crt_req_format`, its proc as a function. -/
structure ReqFormat (In : Type) where
  crfProcIn : In → Proc Stop UInt8 In
  crfSizeIn : ℕ

/-- The format's proc reads what it wrote, up to what `same` does not tell
apart. -/
def ReqFormat.RoundTrips {In : Type} (crf : ReqFormat In) (same : In → In → Prop) : Prop :=
  ∀ input junk, Transfers (crf.crfProcIn input) (crf.crfProcIn junk) fun _ y => same input y

/-- The part of `struct crt_rpc_priv` that goes over the wire. -/
structure RpcWire (B In : Type) where
  crpFlags : UInt32
  crpReqHdr : CrtCommonHdr
  crpCoreqHdr : CrtCoreqHdr B
  epRank : UInt32
  epTag : UInt32
  crInput : Option In

def crtRpcFlagColl : UInt32 := (1 : UInt32) <<< (16 : UInt32)

namespace RpcWire

/-- `struct crt_rpc_priv rpc_tmp = {0}`. -/
def zero (B In : Type) : RpcWire B In := ⟨0, .zero, .zero B, 0, 0, none⟩

/-- A collective request. -/
def coll (rpc : RpcWire B In) : Bool := rpc.crpFlags &&& crtRpcFlagColl ≠ 0

end RpcWire

/-- What the header of an outgoing request is stamped with. -/
structure StampEnv where
  crtGrpPrivGetPrimaryRank : UInt32 → UInt32
  gpSelf : UInt32
  crtIsService : Bool
  crtHlcGet : UInt64

/-- The stamping in `crt_proc_in_common`. -/
def RpcWire.stamp {B In : Type} (env : StampEnv) (rpc : RpcWire B In) : RpcWire B In :=
  { rpc with
    crpReqHdr := { rpc.crpReqHdr with
      cchFlags := rpc.crpFlags
      cchDstRank := env.crtGrpPrivGetPrimaryRank rpc.epRank
      cchDstTag := rpc.epTag
      cchSrcRank :=
        if env.crtIsService then env.crtGrpPrivGetPrimaryRank env.gpSelf
        else .ofNat crtNoRank
      cchHlc := env.crtHlcGet } }

section Requests

variable (m : Mercury B)

def crtProcInput (crf : Option (ReqFormat In)) (input : In) : Proc Stop UInt8 In :=
  match crf with
  | none => throw .assertFail
  | some crf => crf.crfProcIn input

variable (handle : HgHandle) (rpc : RpcWire B In)

/-- The collective header, which is there for collective requests only. -/
def procCoreqHdr : Proc Stop UInt8 (RpcWire B In) :=
  if rpc.coll then do
    let hdr ← crtProcCorpcHdr m rpc.crpCoreqHdr
    return { rpc with crpCoreqHdr := hdr }
  else return rpc

/-- The headers in `crt_proc_in_common`. -/
def procReqHdrs (env : StampEnv) (rpc : RpcWire B In) : Proc Stop UInt8 (RpcWire B In) := do
  let procOp ← getOp
  if procOp = .free then procCoreqHdr m rpc
  else do
    let rpc := if procOp = .encode then rpc.stamp env else rpc
    let hdr ← crtProcCommonHdr m rpc.crpReqHdr
    -- requests are decoded by the two functions below
    if procOp = .decode then throw .assertFail
    else procCoreqHdr m { rpc with crpReqHdr := hdr }

def crtProcInCommon (env : StampEnv) (crf : Option (ReqFormat In)) (rpc : RpcWire B In) :
    Proc Stop UInt8 (RpcWire B In) := do
  let rpc ← procReqHdrs m env rpc
  match rpc.crInput with
  | none => return rpc
  | some input =>
    let input ← crtProcInput crf input
    return { rpc with crInput := some input }

/-- What Mercury has for a received request; `none` where the call fails. -/
structure HgHandle where
  hgGetInputExtraBuf : Option (Option (List UInt8))
  hgGetInputBuf : Option (List UInt8)
  hgProcCreateSet : Bool

/-- The bytes of the request, if the calls for them succeed. -/
def HgHandle.received : Option (List UInt8) :=
  match handle.hgGetInputExtraBuf with
  | none => none
  | some (some inBuf) => some inBuf
  | some none => handle.hgGetInputBuf

/-- The decoding proc of `crt_hg_unpack_header`. -/
def HgHandle.proc : Except Stop (Stream UInt8) :=
  match handle.received with
  | none => .error (.rc (-derHg))
  | some inBuf => if handle.hgProcCreateSet then .ok ⟨.decode, inBuf⟩ else .error (.rc (-derHg))

/-- What `crt_hg_unpack_header` does with the proc. -/
def unpackHeader : Proc Stop UInt8 (RpcWire B In) := do
  let hdr ← crtProcCommonHdr m rpc.crpReqHdr
  procCoreqHdr m { rpc with crpReqHdr := hdr, crpFlags := hdr.cchFlags }

/-- The request so far, and the proc. -/
def crtHgUnpackHeader : Except Stop (RpcWire B In × Stream UInt8) :=
  handle.proc.bind (unpackHeader m rpc)

/-- On a proc: the request, and the proc when it is freed. -/
def crtHgUnpackBody (received : List UInt8) (crf : Option (ReqFormat In)) (input : In)
    (rpc : RpcWire B In) (proc : Stream UInt8) :
    Except Stop (RpcWire B In × Stream UInt8) :=
  (crtProcInput crf input proc).bind fun (input, proc) =>
    if m.hgProcFlush received proc.buf then .ok ({ rpc with crInput := some input }, proc)
    else
      -- D_GOTO(out, rc), and rc is still 0
      .ok ({ rpc with crInput := some input }, proc)

def crtHgHeaderCopy (src dst : RpcWire B In) : RpcWire B In :=
  let dst := { dst with crpFlags := src.crpFlags, crpReqHdr := src.crpReqHdr }
  if dst.coll then { dst with crpCoreqHdr := src.crpCoreqHdr } else dst

end Requests

/-! ### The procs read what they wrote -/

section RoundTrip

variable {m : Mercury B} {bytes : List UInt8}

theorem crtProcUint32_transfers (hm : m.RoundTrips) (x junk : UInt32) :
    Transfers (crtProcUint32 m x) (crtProcUint32 m junk) fun b c => b = x ∧ c = x :=
  Prim.transfers (hm.uint32 x) _ _ junk

theorem crtProcUint64_transfers (hm : m.RoundTrips) (x junk : UInt64) :
    Transfers (crtProcUint64 m x) (crtProcUint64 m junk) fun b c => b = x ∧ c = x :=
  Prim.transfers (hm.uint64 x) _ _ junk

theorem crtProcMemcpy_transfers (hm : m.RoundTrips) {size : ℕ} (hsize : bytes.length = size)
    (junk : List UInt8) : Transfers (crtProcMemcpy m size bytes) (crtProcMemcpy m size junk)
      fun b c => b = bytes ∧ c = bytes := by
  subst hsize
  exact Prim.transfers (hm.memcpy bytes) _ _ junk

theorem crtProcAlloc_of_ok {size : ℕ} (h : m.dAlloc size = true) :
    crtProcAlloc m size = pure () := by
  rw [crtProcAlloc, if_pos h]

/-- The counter and the ranks of the list are of type `uint32_t`. -/
def DRankList.Fits (l : DRankList) : Prop := l.rlNr < 2 ^ 32 ∧ ∀ r ∈ l.toList, r < 2 ^ 32

theorem map_toNat_ofNat {l : List ℕ} (h : ∀ r ∈ l, r < 2 ^ 32) : (l.map ofNat).map toNat = l := by
  rw [List.map_map]
  refine (map_congr_left fun r hr => ?_).trans (List.map_id l)
  exact toNat_ofNat_of_lt' (h r hr)

theorem crtProcDRankListT_transfers (hm : m.RoundTrips) (halloc : ∀ n, m.dAlloc n = true)
    {data : Option DRankList} (hfits : ∀ l ∈ data, l.Fits) (junk : Option DRankList) :
    Transfers (crtProcDRankListT m data) (crtProcDRankListT m junk)
      fun _ c => c = crtProcDRankList data := by
  refine .getOp_bind ?_
  cases data with
  | none =>
    refine .bind (crtProcUint32_transfers hm 0 0) ?_
    rintro _ _ ⟨rfl, rfl⟩
    exact .pure rfl
  | some l =>
    obtain ⟨hnr, hranks⟩ := hfits l rfl
    have hnum : (ofNat l.rlNr).toNat = l.rlNr := toNat_ofNat_of_lt' hnr
    refine .bind (crtProcUint32_transfers hm _ 0) ?_
    rintro _ _ ⟨rfl, rfl⟩
    by_cases h0 : l.rlNr = 0
    · have hlist : l.toList = [] := length_eq_zero_iff.mp (l.length_toList.trans h0)
      rw [if_pos (by rw [h0]; rfl), hlist, crtProcDRankList, if_pos h0]
      exact .pure rfl
    · rw [if_neg fun h => h0 (hnum.symm.trans (congrArg toNat h)),
        crtProcAlloc_of_ok (halloc _), crtProcAlloc_of_ok (halloc _), hnum, crtProcDRankList,
        if_neg h0, pure_bind, pure_bind]
      refine .bind (P := fun _ c => c = l.toList.map ofNat) ?_ ?_
      · exact procEach_transfers (by simp) fun r _ j =>
          (crtProcUint32_transfers hm r j).mono fun _ _ h => h.2
      · rintro _ _ rfl
        exact .pure (by rw [map_toNat_ofNat hranks])

/-- The buffer is the one of the iov on one side, a new one on the other. -/
theorem iovBuffer_transfers (halloc : ∀ n, m.dAlloc n = true) (iov junk : DIov)
    (iovBufLen : UInt64) :
    Transfers (iovBuffer m iov iovBufLen .encode) (iovBuffer m junk iovBufLen .decode)
      fun b c => b = iov.iovBuf ∧ c = List.replicate iovBufLen.toNat 0 := by
  simp only [iovBuffer]
  by_cases hpos : 0 < iovBufLen
  · rw [if_pos hpos, crtProcAlloc_of_ok (halloc _), pure_bind]
    exact .pure ⟨rfl, rfl⟩
  · have hzero : iovBufLen.toNat = 0 := by
      simpa [UInt64.lt_iff_toNat_lt] using hpos
    rw [if_neg hpos, hzero]
    exact .pure ⟨rfl, rfl⟩

/-- A new buffer after the bytes have been copied to it. -/
theorem DIov.used_ofBuffer {iovBufLen iovLen : UInt64} {iov : DIov}
    (hiov : iov = ofBuffer (overwrite (List.replicate iovBufLen.toNat 0) bytes) iovBufLen iovLen)
    (hlen : bytes.length = iovLen.toNat) (hle : iovLen ≤ iovBufLen) :
    iov.iovLen = iovLen ∧ iov.iovBufLen = iovBufLen ∧ iov.used = bytes := by
  have hfits : bytes.length ≤ iovBufLen.toNat := hlen.trans_le (UInt64.le_iff_toNat_le.mp hle)
  rw [hiov, ofBuffer, dif_pos (by simp)]
  refine ⟨rfl, rfl, ?_⟩
  show (overwrite (replicate iovBufLen.toNat 0) bytes).take iovLen.toNat = bytes
  rw [overwrite, length_replicate, take_of_length_le hfits, ← hlen, take_left]

theorem crtProcDIovT_transfers (hm : m.RoundTrips) (halloc : ∀ n, m.dAlloc n = true)
    (iov junk : DIov) : Transfers (crtProcDIovT m iov) (crtProcDIovT m junk) fun _ c =>
      c.iovLen = iov.iovLen ∧ c.iovBufLen = iov.iovBufLen ∧ c.used = iov.used := by
  refine .getOp_bind ?_
  refine .bind (crtProcUint64_transfers hm _ _) ?_
  rintro _ _ ⟨rfl, rfl⟩
  refine .bind (crtProcUint64_transfers hm _ _) ?_
  rintro _ _ ⟨rfl, rfl⟩
  by_cases hlen : iov.iovBufLen < iov.iovLen
  · rw [if_pos hlen]
    exact .throw _ _
  · have hle : iov.iovLen ≤ iov.iovBufLen := UInt64.not_lt.mp hlen
    have hused : iov.used.length = iov.iovLen.toNat := by
      rw [DIov.used, length_take, iov.iovFits]
      exact Nat.min_eq_left (UInt64.le_iff_toNat_le.mp hle)
    rw [if_neg hlen, if_neg hlen]
    refine .bind (iovBuffer_transfers halloc iov junk _) ?_
    rintro _ _ ⟨rfl, rfl⟩
    refine .bind (crtProcMemcpy_transfers hm hused _) ?_
    rintro _ _ ⟨rfl, rfl⟩
    exact .pure (DIov.used_ofBuffer rfl hused hle)

theorem crtProcCommonHdr_transfers (hm : m.RoundTrips) (hdr junk : CrtCommonHdr) :
    Transfers (crtProcCommonHdr m hdr) (crtProcCommonHdr m junk) fun b c => b = hdr ∧ c = hdr := by
  refine .bind (crtProcMemcpy_transfers hm hdr.length_image _) ?_
  rintro _ _ ⟨rfl, rfl⟩
  exact .pure ⟨hdr.ofImage_image, hdr.ofImage_image⟩

/-- The rank lists of the header are of type `uint32_t`. -/
def CrtCoreqHdr.Fits (hdr : CrtCoreqHdr B) : Prop :=
  (∀ l ∈ hdr.cohFilterRanks, l.Fits) ∧ ∀ l ∈ hdr.cohInlineRanks, l.Fits

/-- The header as it arrives. -/
def CrtCoreqHdr.arrived (hdr : CrtCoreqHdr B) : CrtCoreqHdr B :=
  { hdr with
    cohFilterRanks := crtProcDRankList hdr.cohFilterRanks
    cohInlineRanks := crtProcDRankList hdr.cohInlineRanks }

/-- The fields that determine the tree. -/
def CrtCoreqHdr.tree (hdr : CrtCoreqHdr B) : CrtCorpcHdr :=
  ⟨hdr.cohFilterRanks, hdr.cohGrpVer.toNat, hdr.cohTreeTopo.toNat, hdr.cohRoot.toNat⟩

/-- A child builds the tree from the header that the wire carries. -/
theorem CrtCoreqHdr.tree_arrived (hdr : CrtCoreqHdr B) : hdr.arrived.tree = hdr.tree.received := rfl

theorem crtProcCorpcHdr_transfers (hm : m.RoundTrips) (halloc : ∀ n, m.dAlloc n = true)
    {hdr : CrtCoreqHdr B} (hfits : hdr.Fits) (junk : CrtCoreqHdr B) :
    Transfers (crtProcCorpcHdr m hdr) (crtProcCorpcHdr m junk) fun _ c => c = hdr.arrived := by
  have hword := crtProcUint32_transfers hm
  refine .bind (Prim.transfers (hm.string _) _ _ _) ?_
  rintro _ _ ⟨rfl, rfl⟩
  refine .bind (Prim.transfers (hm.bulk _) _ _ _) ?_
  rintro _ _ ⟨rfl, rfl⟩
  refine .bind (crtProcDRankListT_transfers hm halloc hfits.1 _) ?_
  rintro _ _ rfl
  refine .bind (crtProcDRankListT_transfers hm halloc hfits.2 _) ?_
  rintro _ _ rfl
  refine .bind (hword _ _) ?_
  rintro _ _ ⟨rfl, rfl⟩
  refine .bind (hword _ _) ?_
  rintro _ _ ⟨rfl, rfl⟩
  refine .bind (hword _ _) ?_
  rintro _ _ ⟨rfl, rfl⟩
  refine .bind (hword _ _) ?_
  rintro _ _ ⟨rfl, rfl⟩
  exact .pure rfl

/-- What a collective header becomes on the way: nothing is sent of the one of
an ordinary request. -/
def RpcWire.arrivedCoreqHdr (rpc : RpcWire B In) : CrtCoreqHdr B :=
  if rpc.coll then rpc.crpCoreqHdr.arrived else .zero B

theorem procCoreqHdr_transfers (hm : m.RoundTrips) (halloc : ∀ n, m.dAlloc n = true)
    {src dst : RpcWire B In} (hfits : src.coll = true → src.crpCoreqHdr.Fits)
    (hflags : dst.crpFlags = src.crpFlags) (hzero : dst.crpCoreqHdr = .zero B) :
    Transfers (procCoreqHdr m src) (procCoreqHdr m dst) fun b c =>
      b.crInput = src.crInput ∧ c.crpReqHdr = dst.crpReqHdr ∧ c.crpFlags = src.crpFlags ∧
        c.crpCoreqHdr = src.arrivedCoreqHdr := by
  have hsame : dst.coll = src.coll := by rw [RpcWire.coll, RpcWire.coll, hflags]
  rw [procCoreqHdr, procCoreqHdr, RpcWire.arrivedCoreqHdr, hsame]
  by_cases hcoll : src.coll = true
  · rw [if_pos hcoll, if_pos hcoll, if_pos hcoll]
    refine .bind (crtProcCorpcHdr_transfers hm halloc (hfits hcoll) _) ?_
    rintro _ _ rfl
    exact .pure ⟨rfl, rfl, hflags, rfl⟩
  · rw [if_neg hcoll, if_neg hcoll, if_neg hcoll]
    exact .pure ⟨rfl, rfl, hflags, hzero⟩

theorem procReqHdrs_transfers (hm : m.RoundTrips) (halloc : ∀ n, m.dAlloc n = true)
    (env : StampEnv) {rpc : RpcWire B In} (hfits : rpc.coll = true → rpc.crpCoreqHdr.Fits) :
    Transfers (procReqHdrs m env rpc) (unpackHeader m (.zero B In)) fun b c =>
      b.crInput = rpc.crInput ∧ c.crpReqHdr = (rpc.stamp env).crpReqHdr ∧
        c.crpFlags = rpc.crpFlags ∧ c.crpCoreqHdr = rpc.arrivedCoreqHdr := by
  refine .getOp_left ?_
  refine .bind (crtProcCommonHdr_transfers hm _ _) ?_
  rintro _ _ ⟨rfl, rfl⟩
  -- the flag that decides is in the stamped header
  exact procCoreqHdr_transfers hm halloc hfits rfl rfl

/-! ### The whole request -/

/-- A handle from which these bytes can be read. -/
def HgHandle.Holds (handle : HgHandle) (bytes : List UInt8) : Prop :=
  handle.received = some bytes ∧ handle.hgProcCreateSet = true

theorem HgHandle.Holds.proc {handle : HgHandle} (h : handle.Holds bytes) :
    handle.proc = .ok ⟨.decode, bytes⟩ := by
  simp only [HgHandle.proc, h.1, h.2, if_true]

/-- **A request is read back as it was written**: the headers, the input, and what comes after
it. -/
theorem request_round_trip (hm : m.RoundTrips) (halloc : ∀ n, m.dAlloc n = true)
    {crf : Option (ReqFormat In)} {same : In → In → Prop}
    (hcrf : ∀ fmt ∈ crf, fmt.RoundTrips same) (env : StampEnv) {rpc sent : RpcWire B In}
    (hfits : rpc.coll = true → rpc.crpCoreqHdr.Fits) {bytes : List UInt8}
    (hsent : crtProcInCommon m env crf rpc ⟨.encode, []⟩ = .ok (sent, ⟨.encode, bytes⟩))
    {handle : HgHandle} {rest : List UInt8} (hhandle : handle.Holds (bytes ++ rest)) :
    (∃ rcvd proc, crtHgUnpackHeader m handle (.zero B In) = .ok (rcvd, proc) ∧
      rcvd.crpReqHdr = (rpc.stamp env).crpReqHdr ∧
      rcvd.coll = rpc.coll ∧
      (rpc.coll = true → rcvd.crpCoreqHdr = rpc.crpCoreqHdr.arrived) ∧
      (rpc.coll = false → rcvd.crpCoreqHdr = .zero B) ∧
      (rpc.crInput = none → proc.buf = rest) ∧
      ∀ input, rpc.crInput = some input → ∀ junk, ∃ input', same input input' ∧
        crtHgUnpackBody m (bytes ++ rest) crf junk rcvd proc =
          .ok ({ rcvd with crInput := some input' }, ⟨.decode, rest⟩)) ∧
    ∀ iov junk, Transfers (crtProcDIovT m iov) (crtProcDIovT m junk) fun _ c =>
      c.iovLen = iov.iovLen ∧ c.iovBufLen = iov.iovBufLen ∧ c.used = iov.used := by
  refine ⟨?_, crtProcDIovT_transfers hm halloc⟩
  obtain ⟨⟨written, s⟩, hhdrs, hinput⟩ := Faults.exists_of_bind_eq_ok hsent
  obtain ⟨bs, rcvd, rfl, hreads, hkept, hhdr, hflags, hcoreq⟩ :=
    procReqHdrs_transfers hm halloc env hfits [] written s hhdrs
  have hcoll : rcvd.coll = rpc.coll := by rw [RpcWire.coll, RpcWire.coll, hflags]
  have harrived : (rpc.coll = true → rcvd.crpCoreqHdr = rpc.crpCoreqHdr.arrived) ∧
      (rpc.coll = false → rcvd.crpCoreqHdr = .zero B) := by
    rw [hcoreq, RpcWire.arrivedCoreqHdr]
    exact ⟨fun h => if_pos h, fun h => if_neg (by rw [h]; exact Bool.false_ne_true)⟩
  have hunpack : ∀ tail, bytes ++ rest = bs ++ tail →
      crtHgUnpackHeader m handle (.zero B In) = .ok (rcvd, ⟨.decode, tail⟩) := by
    intro tail htail
    rw [crtHgUnpackHeader, hhandle.proc, htail]
    exact hreads tail
  cases hin : rpc.crInput with
  | none =>
    simp only [hkept, hin] at hinput
    obtain ⟨rfl, hbytes⟩ := Prod.mk.inj (Except.ok.inj hinput)
    obtain rfl := (Stream.mk.inj hbytes).2
    refine ⟨rcvd, _, hunpack rest rfl, hhdr, hcoll, harrived.1, harrived.2, fun _ => rfl, ?_⟩
    rintro input ⟨⟩
  | some input =>
    simp only [hkept, hin] at hinput
    obtain ⟨⟨_, t⟩, hproc, hend⟩ := Faults.exists_of_bind_eq_ok hinput
    cases crf with
    | none => cases hproc
    | some fmt =>
      obtain ⟨bs', _, rfl, _, _⟩ := hcrf fmt rfl input input _ _ t hproc
      obtain ⟨rfl, hbytes⟩ := Prod.mk.inj (Except.ok.inj hend)
      obtain rfl := (Stream.mk.inj hbytes).2
      refine ⟨rcvd, ⟨.decode, bs' ++ rest⟩, hunpack _ (append_assoc bs bs' rest), hhdr, hcoll,
        harrived.1, harrived.2, by simp, ?_⟩
      rintro _ ⟨⟩ junk
      -- what was written does not depend on what it is read over
      obtain ⟨bs'', input', heq, hbody, hsame⟩ := hcrf fmt rfl input junk _ _ _ hproc
      obtain rfl := append_cancel_left (Stream.mk.inj heq).2
      refine ⟨input', hsame, ?_⟩
      rw [crtHgUnpackBody, show crtProcInput (some fmt) junk ⟨.decode, bs' ++ rest⟩ = _ from hbody rest]
      exact ite_self _

end RoundTrip

/-! ### A transport -/

/-- Handles to the only bulk there is. -/
def flagBulk : Prim UInt8 (Option Unit) :=
  .ofImage 1 (fun b => if b.isSome then [1] else [0]) fun bs => if bs = [0] then none else some ()

theorem flagBulk_roundTrips (b : Option Unit) : flagBulk.RoundTrips b := by
  refine Prim.ofImage_roundTrips ?_ ?_ <;> cases b <;> rfl

/-- Mercury on a machine with little-endian words, where handles and the group's
name take one byte. -/
def littleEndianMercury : Mercury Unit where
  uint32 := .le32
  uint64 := .le64
  string := {
    encode := fun s => if s = none then some [0] else if s = some "srv" then some [1] else none
    decode := fun bs => bs.head?.map fun b => (if b = 0 then none else some "srv", bs.tail)
    release := fun _ => none }
  bulk := flagBulk
  memcpy size := .ofImage size id id
  dAlloc _ := true
  hgProcFlush _ _ := true

theorem littleEndianMercury_roundTrips : littleEndianMercury.RoundTrips where
  uint32 := Prim.le32_roundTrips
  uint64 := Prim.le64_roundTrips
  string s := by
    intro bs hbs rest
    simp only [littleEndianMercury] at hbs ⊢
    split_ifs at hbs with hnone hsome
    · cases hbs
      simp [hnone]
    · cases hbs
      simp [hsome]
  bulk := flagBulk_roundTrips
  memcpy bytes := Prim.ofImage_roundTrips rfl rfl

/-- A collective request with a filter, no inline ranks, and one word of input. -/
def sampleRequest : RpcWire Unit UInt32 where
  crpFlags := crtRpcFlagColl
  crpReqHdr := { CrtCommonHdr.zero with cchOpc := 7, cchXid := 3 }
  crpCoreqHdr := ⟨some "srv", none, some (.ofList [2, 5]), some (.ofList []), 1, 2, 0, 0⟩
  epRank := 4
  epTag := 1
  crInput := some 99

/-- Its format. -/
def sampleFormat : ReqFormat UInt32 := ⟨crtProcUint32 littleEndianMercury, 4⟩

/-- A service of rank `6`, in its primary group. -/
def sampleStamp : StampEnv := ⟨id, 6, true, 1000⟩

/-- The request on the wire. -/
def sampleBytes : List UInt8 :=
  CrtCommonHdr.image ⟨7, crtRpcFlagColl, 1000, 4, 6, 1, 3, 0⟩ ++
    [1, 0, 2, 0, 0, 0, 2, 0, 0, 0, 5, 0, 0, 0, 0, 0, 0, 0] ++
    [1, 0, 0, 0, 2, 0, 0, 0, 0, 0, 0, 0, 0, 0, 0, 0, 99, 0, 0, 0]

theorem sampleRequest_round_trip :
    ∃ rcvd proc, crtHgUnpackHeader littleEndianMercury ⟨some none, some (sampleBytes ++ [8]), true⟩
        (.zero Unit UInt32) = .ok (rcvd, proc) ∧
      rcvd.crpReqHdr = ⟨7, crtRpcFlagColl, 1000, 4, 6, 1, 3, 0⟩ ∧
      rcvd.crpCoreqHdr = ⟨some "srv", none, some (.ofList [2, 5]), none, 1, 2, 0, 0⟩ ∧
      crtHgUnpackBody littleEndianMercury (sampleBytes ++ [8]) (some sampleFormat) 0 rcvd proc =
        .ok ({ rcvd with crInput := some 99 }, ⟨.decode, [8]⟩) := by
  have hround := littleEndianMercury_roundTrips
  have hcrf : ∀ fmt ∈ some sampleFormat, fmt.RoundTrips fun x y => y = x := by
    rintro _ ⟨⟩ x junk
    exact (crtProcUint32_transfers hround x junk).mono fun _ _ h => h.2
  have hfits : sampleRequest.crpCoreqHdr.Fits := by
    constructor
    · rintro _ ⟨⟩
      exact ⟨by decide, by decide⟩
    · rintro _ ⟨⟩
      exact ⟨by decide, by decide⟩
  obtain ⟨rcvd, proc, hheader, hhdr, _, hcoreq, _, _, hbody⟩ :=
    (@request_round_trip Unit UInt32 littleEndianMercury hround (fun _ => rfl) (some sampleFormat)
      (fun x y => y = x) hcrf sampleStamp sampleRequest _ (fun _ => hfits) sampleBytes rfl
      ⟨some none, some (sampleBytes ++ [8]), true⟩ [8] ⟨rfl, rfl⟩).1
  obtain ⟨_, rfl, hinput⟩ := hbody 99 rfl 0
  exact ⟨rcvd, proc, hheader, hhdr, hcoreq rfl, hinput⟩

end Cart
