/-
Runs of registrations.

A process registers protocols one after the other, and some registrations fail.

Main results: `proto_register_lookup`, `proto_register_failed`, `proto_query_greatest`,
`registered_for_ever`.
-/
import Cart.Lts
import Cart.RegisterSpec

open List Option GrowArray

namespace Cart

open CrtOpcMap

/-! ### Runs -/

/-- The map, and the protocols that are registered. -/
structure OpcState where
  map : CrtOpcMap
  registered : List CrtProtoFormat

/-- A call of `crt_proto_register` or `crt_proto_register_internal`. -/
structure RegCall where
  internal : Bool
  env : RegEnv
  cpf : Option CrtProtoFormat

/-- The return code and the map after a call. -/
def OpcState.call (privSize : ℕ) (s : OpcState) (c : RegCall) : Option (ℤ × CrtOpcMap) :=
  s.map.crtProtoRegister privSize c.internal c.env c.cpf

/-- The state after `crt_opc_map_create`. -/
def OpcState.empty : OpcState := ⟨.crtOpcMapCreate crtOpcMapBits, []⟩

/-- The runs from the empty map. -/
@[reducible]
def opcLts (privSize : ℕ) : Lts OpcState RegCall where
  init s := s = .empty
  enabled _ _ := True
  step s c := (s.call privSize c).map fun r =>
    ⟨r.2, if r.1 = 0 then c.cpf.toList ++ s.registered else s.registered⟩

/-- The map is in order: a record that is not in use is zero, and a protocol that is
registered has records. -/
structure OpcState.Ok (s : OpcState) : Prop where
  length : s.map.comMap.length = 256
  blank : ∀ opc, ∀ info ∈ s.map.slots opc, info.coiInited = false → info = .zero
  registered : ∀ cpf ∈ s.registered, s.map.slots (cpf.opc 0) ≠ []

variable {privSize : ℕ} {s s' : OpcState} {c : RegCall} {cpf : CrtProtoFormat} {info : CrtOpcInfo}
  {map : CrtOpcMap}

/-! ### The records of a version -/

/-- What a call does to the records of every version. -/
inductive Outcome (privSize : ℕ) (s : OpcState) (c : RegCall) (rc : ℤ) (map' : CrtOpcMap) : Prop
  -- it has not come to the loop
  | early (hrc : rc ≠ 0) (hslots : ∀ opc, map'.slots opc = s.map.slots opc)
      (hwhy : ∀ cpf prf, c.cpf = some cpf → RegArgs c.internal cpf prf → ¬ RegMemory c.env s.map cpf)
  -- it has entered `k` RPCs
  | loop (cpf : CrtProtoFormat) (prf : ℕ → CrtProtoRpcFormat) (k : ℕ) (hcpf : c.cpf = some cpf)
      (hargs : RegArgs c.internal cpf prf) (hmem : RegMemory c.env s.map cpf)
      (hk : k ≤ cpf.cpfCount.toNat) (hrc : rc = 0 ↔ k = cpf.cpfCount.toNat)
      (hstop : k < cpf.cpfCount.toNat → ∀ info ∈ (s.map.room cpf)[k]?, ¬ info.Open (prf k))
      (hentered : ∀ j < k, ∀ info ∈ (s.map.room cpf)[j]?, info.Open (prf j))
      (hother : ∀ opc, ¬ (l1Idx opc = l1Idx cpf.cpfBase ∧ l2Idx opc = cpf.cpfVer.toNat) →
        map'.slots opc = s.map.slots opc)
      (hslots : ∀ opc, l1Idx opc = l1Idx cpf.cpfBase ∧ l2Idx opc = cpf.cpfVer.toNat →
        s.map.slots opc = s.map.slots (cpf.opc 0) ∧
        ∀ j : ℕ, (map'.slots opc)[j]? =
          if j < k then ((s.map.room cpf)[j]?).map fun info => info.entry privSize (cpf.opc j) (prf j)
          else (s.map.room cpf)[j]?)

theorem OpcState.Ok.call_spec (h : s.Ok) (privSize : ℕ) (c : RegCall) :
    ∃ rc map', s.call privSize c = some (rc, map') ∧ map'.comMap.length = 256 ∧
      Outcome privSize s c rc map' := by
  rcases crtProtoRegister_cases privSize c.internal c.env s.map c.cpf with
    ⟨cpf, prf, hcpf, hargs, heq⟩ | ⟨hno, heq⟩
  · obtain ⟨rc, map', hreg, hlen, ⟨hmem, hrc, hslots⟩ | ⟨hmem, hrc, hslots⟩⟩ :=
      crtProtoRegL1_spec privSize c.env hargs h.length
    · refine ⟨rc, map', heq.trans hreg, hlen, .early hrc hslots fun cpf' prf' hcpf' _ => ?_⟩
      rw [hcpf] at hcpf'
      exact some.inj hcpf' ▸ hmem
    · obtain ⟨k, hk, hzero, hstop, hentered, hloop⟩ := regLoop_spec privSize cpf prf cpf.cpfCount.toNat 0
        (s.map.room cpf) (by rw [zero_add]; exact le_length_grow)
      simp only [zero_add, zero_le, true_and, forall_true_left] at hstop hentered hloop
      refine ⟨rc, map', heq.trans hreg, hlen, .loop cpf prf k hcpf hargs hmem hk (hrc ▸ hzero) hstop
        hentered (fun opc hopc => ?_) fun opc hopc => ⟨?_, fun j => ?_⟩⟩
      · rw [hslots opc, if_neg hopc]
      · rw [slots, slots, hopc.1, hopc.2, hargs.l1Idx_opc hargs.count_pos, hargs.l2Idx_opc hargs.count_pos]
      · rw [hslots opc, if_pos hopc, hloop j]
  · refine ⟨_, _, heq, h.length, .early (by decide) (fun _ => rfl) fun cpf prf hcpf hargs => ?_⟩
    exact absurd hargs (hno cpf prf hcpf)

/-- A record that a registration works on is one of the version, or a new one. -/
theorem mem_room (h : info ∈ map.room cpf) : info ∈ map.slots (cpf.opc 0) ∨ info = .zero := by
  rcases mem_append.mp h with hold | hnew
  · exact .inl hold
  · exact .inr (eq_of_mem_replicate hnew)

theorem room_blank (h : s.Ok) (hinfo : info ∈ s.map.room cpf)
    (hinit : info.coiInited = false) : info = .zero := by
  rcases mem_room hinfo with hold | hzero
  · exact h.blank _ info hold hinit
  · exact hzero

/-- Beyond the RPCs of the protocol the array is what it was. -/
theorem room_of_le {j : ℕ} (hj : cpf.cpfCount.toNat ≤ j) :
    (map.room cpf)[j]? = (map.slots (cpf.opc 0))[j]? := by
  by_cases hlt : j < (map.slots (cpf.opc 0)).length
  · exact getElem?_grow_of_lt hlt
  · rw [getElem?_eq_none (not_lt.mp hlt), getElem?_eq_none]
    rw [room, grow, length_append, length_replicate]
    omega

theorem room_of_lt (map : CrtOpcMap) {j : ℕ} (hj : j < cpf.cpfCount.toNat) :
    ∃ info, (map.room cpf)[j]? = some info :=
  ⟨_, getElem?_eq_getElem (hj.trans_le le_length_grow)⟩

/-! ### The invariant -/

variable {rc : ℤ} {map' : CrtOpcMap}

theorem Outcome.blank (ho : Outcome privSize s c rc map') (h : s.Ok) (opc : UInt32) :
    ∀ info ∈ map'.slots opc, info.coiInited = false → info = .zero := by
  cases ho with
  | early hrc hslots hwhy =>
    rw [hslots opc]
    exact h.blank opc
  | loop cpf prf k hcpf hargs hmem hk hrc hstop hentered hother hslots =>
    by_cases hopc : l1Idx opc = l1Idx cpf.cpfBase ∧ l2Idx opc = cpf.cpfVer.toNat
    · intro info hinfo hinit
      obtain ⟨j, hj⟩ := mem_iff_getElem?.mp hinfo
      rw [(hslots opc hopc).2 j] at hj
      split at hj
      · -- an entry is in use
        obtain ⟨old, _, rfl⟩ := map_eq_some_iff.mp hj
        cases hinit
      · exact room_blank h (mem_of_getElem? hj) hinit
    · rw [hother opc hopc]
      exact h.blank opc

/-- The array of a protocol has records after the loop. -/
theorem Outcome.slots_ne_nil (ho : Outcome privSize s c rc map') {opc : UInt32}
    (hopc : s.map.slots opc ≠ [] ∨ rc = 0 ∧ ∃ cpf, c.cpf = some cpf ∧ opc = cpf.opc 0) :
    map'.slots opc ≠ [] := by
  cases ho with
  | early hrc hslots hwhy =>
    rw [hslots opc]
    exact hopc.resolve_right fun hnew => hrc hnew.1
  | loop cpf prf k hcpf hargs hmem hk hrc hstop hentered hother hslots =>
    by_cases hsame : l1Idx opc = l1Idx cpf.cpfBase ∧ l2Idx opc = cpf.cpfVer.toNat
    · intro hnil
      obtain ⟨info, hinfo⟩ := room_of_lt s.map hargs.count_pos
      have hget := (hslots opc hsame).2 0
      rw [hnil, hinfo] at hget
      split at hget
      · cases hget
      · cases hget
    · rw [hother opc hsame]
      refine hopc.resolve_right ?_
      rintro ⟨_, cpf', hcpf', rfl⟩
      obtain rfl := some.inj (hcpf.symm.trans hcpf')
      exact hsame ⟨hargs.l1Idx_opc hargs.count_pos, hargs.l2Idx_opc hargs.count_pos⟩

theorem slots_empty (opc : UInt32) : OpcState.empty.map.slots opc = [] := by
  have hl2 : (crtOpcMapCreate crtOpcMapBits).comMap.getD (l1Idx opc) ⟨[]⟩ = ⟨[]⟩ := by
    rw [getD_eq_getElem?_getD, crtOpcMapCreate, getElem?_replicate]
    split
    · rfl
    · rfl
  rw [OpcState.empty, slots, hl2]
  rfl

theorem step_of_call (hcall : s.call privSize c = some (rc, map')) : (opcLts privSize).step s c =
      some ⟨map', if rc = 0 then c.cpf.toList ++ s.registered else s.registered⟩ := by
  change (s.call privSize c).map _ = _
  rw [hcall]
  rfl

theorem opcLts_ok (privSize : ℕ) : (opcLts privSize).Invariant OpcState.Ok where
  init := by
    rintro s rfl
    refine ⟨?_, fun opc info hinfo => ?_, fun cpf hcpf => absurd hcpf not_mem_nil⟩
    · exact length_replicate
    · rw [slots_empty] at hinfo
      cases hinfo
  step := by
    intro s c s' h _ hstep
    obtain ⟨rc, map', hcall, hlen, ho⟩ := h.call_spec privSize c
    obtain rfl := some.inj ((step_of_call hcall).symm.trans hstep)
    refine ⟨hlen, ho.blank h, fun cpf hcpf => ho.slots_ne_nil ?_⟩
    change cpf ∈ (if rc = 0 then c.cpf.toList ++ s.registered else s.registered) at hcpf
    split_ifs at hcpf with hrc
    · rcases mem_append.mp hcpf with hnew | hold
      · exact .inr ⟨hrc, cpf, mem_toList.mp hnew, rfl⟩
      · exact .inl (h.registered cpf hold)
    · exact .inl (h.registered cpf hcpf)

/-! ### Registrations that succeed -/

/-- The record of the `i`-th RPC of a protocol. -/
def recordOf (privSize : ℕ) (cpf : CrtProtoFormat) (prf : ℕ → CrtProtoRpcFormat) (i : ℕ) : CrtOpcInfo :=
  CrtOpcInfo.zero.entry privSize (cpf.opc i) (prf i)

/-- After a registration that succeeds, its records are found, and the others as
before. -/
theorem Outcome.lookup_of_success (ho : Outcome privSize s c 0 map') (h : s.Ok) :
    ∃ cpf prf, c.cpf = some cpf ∧ RegArgs c.internal cpf prf ∧
      (∀ i < cpf.cpfCount.toNat, map'.crtOpcLookup (cpf.opc i) = some (recordOf privSize cpf prf i)) ∧
      ∀ opc, (∀ i < cpf.cpfCount.toNat, opc ≠ cpf.opc i) →
        map'.crtOpcLookup opc = s.map.crtOpcLookup opc := by
  cases ho with
  | early hrc hslots hwhy => exact absurd rfl hrc
  | loop cpf prf k hcpf hargs hmem hk hrc hstop hentered hother hslots =>
    obtain rfl : k = cpf.cpfCount.toNat := hrc.mp rfl
    refine ⟨cpf, prf, hcpf, hargs, fun i hi => ?_, fun opc hopc => ?_⟩
    · -- the record was free, so it was zero
      obtain ⟨info, hinfo⟩ := room_of_lt s.map hi
      have hzero : info = .zero := room_blank h (mem_of_getElem? hinfo) (hentered i hi info hinfo).1
      rw [crtOpcLookup_eq, (hslots _ ⟨hargs.l1Idx_opc hi, hargs.l2Idx_opc hi⟩).2, hargs.l3Idx_opc hi,
        if_pos hi, hinfo, hzero]
      rfl
    · rw [crtOpcLookup_eq, crtOpcLookup_eq]
      by_cases hsame : l1Idx opc = l1Idx cpf.cpfBase ∧ l2Idx opc = cpf.cpfVer.toNat
      · have hge : cpf.cpfCount.toNat ≤ l3Idx opc := by
          by_contra hlt
          exact hopc (l3Idx opc) (not_le.mp hlt) ((hargs.eq_opc_iff (not_le.mp hlt) opc).mpr ⟨hsame, rfl⟩)
        obtain ⟨hold, hget⟩ := hslots opc hsame
        rw [hget, if_neg (not_lt.mpr hge), room_of_le hge, hold]
      · rw [hother opc hsame]

/-- **Protocol registration.** The `i`-th opcode is then found with its own record, and every
other one as before. -/
theorem proto_register_lookup (hs : (opcLts privSize).Reach s) {cpf : CrtProtoFormat} {internal : Bool}
    {env : RegEnv} (hreg : s.map.crtProtoRegister privSize internal env (some cpf) = some (0, map')) :
    ∃ prf, cpf.cpfPrf = some prf ∧
      (∀ i < cpf.cpfCount.toNat, ∃ info, map'.crtOpcLookup (cpf.opc i) = some info ∧
        info.coiOpc = cpf.opc i ∧ info.coiCrf = (prf i).prfReqFmt ∧ info.coiRpcCb = (prf i).prfHdlr ∧
        info.coiCoOps = (prf i).prfCoOps) ∧
      ∀ opc, (∀ i < cpf.cpfCount.toNat, opc ≠ cpf.opc i) →
        map'.crtOpcLookup opc = s.map.crtOpcLookup opc := by
  have hok := (opcLts_ok privSize).reach hs
  obtain ⟨rc, map'', hcall, _, ho⟩ := hok.call_spec privSize ⟨internal, env, some cpf⟩
  obtain ⟨rfl, rfl⟩ := Prod.mk.inj (Option.some.inj (hcall.symm.trans hreg))
  obtain ⟨cpf', prf, hcpf, hargs, hown, hothers⟩ := ho.lookup_of_success hok
  obtain rfl : cpf = cpf' := Option.some.inj hcpf
  refine ⟨prf, hargs.prf, fun i hi => ⟨_, hown i hi, rfl, rfl, ?_, ?_⟩, hothers⟩
  · show (if (prf i).prfHdlr.isSome then (prf i).prfHdlr else none) = _
    cases (prf i).prfHdlr with
    | none | some hdlr => rfl
  · show (if (prf i).prfCoOps.isSome then (prf i).prfCoOps else none) = _
    cases (prf i).prfCoOps with
    | none | some ops => rfl

/-- A protocol whose `i`-th RPC has an input of the size `sizeIn i` and the handler `i`. -/
def sampleProto (ver count : UInt32) (sizeIn : ℕ → ℕ) : CrtProtoFormat :=
  ⟨ver, count, some fun i => ⟨some ⟨0, 0, sizeIn i, 0⟩, some i, none, 0⟩, 0x01000000⟩

/-- The call with this protocol when there is memory. -/
def sampleCall (ver count : UInt32) (sizeIn : ℕ → ℕ) : RegCall :=
  ⟨false, ⟨true, true⟩, some (sampleProto ver count sizeIn)⟩

/-- Version 3 with two RPCs is registered in the empty map. -/
theorem proto_register_lookup_two :
    ∃ map', (crtOpcMapCreate crtOpcMapBits).crtProtoRegister 1000 false ⟨true, true⟩
        (some (sampleProto 3 2 fun _ => 64)) = some (0, map') ∧
      (∃ info, map'.crtOpcLookup 0x01030001 = some info ∧ info.coiOpc = 0x01030001 ∧
        info.coiRpcCb = some 1) ∧ map'.crtOpcLookup 0x01030002 = none := by
  have hfst : ((crtOpcMapCreate crtOpcMapBits).crtProtoRegister 1000 false ⟨true, true⟩
      (some (sampleProto 3 2 fun _ => 64))).map Prod.fst = some 0 := by decide
  obtain ⟨⟨rc, map'⟩, hreg, rfl⟩ := map_eq_some_iff.mp hfst
  have hreach : (opcLts 1000).Reach ⟨crtOpcMapCreate crtOpcMapBits, []⟩ := ⟨_, [], rfl, .nil _⟩
  obtain ⟨prf, hprf, hown, hothers⟩ := proto_register_lookup hreach hreg
  cases hprf
  obtain ⟨info, hlookup, hopc, _, hcb, _⟩ := hown 1 (by decide)
  refine ⟨map', hreg, ⟨info, hlookup, hopc, hcb⟩, ?_⟩
  rw [hothers 0x01030002 (by decide)]
  rfl

/-! ### Registrations that fail -/

/-- The arguments are refused, there is no memory, or the first RPC is refused. -/
def OpcState.FailsCleanly (s : OpcState) (c : RegCall) : Prop :=
  ∀ cpf prf, c.cpf = some cpf → RegArgs c.internal cpf prf → RegMemory c.env s.map cpf →
    cpf.cpfCount.toNat ≤ (s.map.slots (cpf.opc 0)).length ∧
      ∀ info ∈ (s.map.slots (cpf.opc 0))[0]?, ¬ info.Open (prf 0)

theorem Outcome.lookup_iff (ho : Outcome privSize s c rc map') :
    (∀ opc, map'.crtOpcLookup opc = s.map.crtOpcLookup opc) ↔ s.FailsCleanly c := by
  cases ho with
  | early hne hslots hwhy =>
    refine iff_of_true (fun opc => ?_) fun cpf prf hcpf hargs hmem => absurd hmem (hwhy cpf prf hcpf hargs)
    rw [crtOpcLookup_eq, crtOpcLookup_eq, hslots opc]
  | loop cpf prf k hcpf hargs hmem hk hzero hstop hentered hother hslots =>
    have hlookup : ∀ j < cpf.cpfCount.toNat, map'.crtOpcLookup (cpf.opc j) =
        if j < k then ((s.map.room cpf)[j]?).map fun info => info.entry privSize (cpf.opc j) (prf j)
        else (s.map.room cpf)[j]? := by
      intro j hj
      rw [crtOpcLookup_eq, (hslots _ ⟨hargs.l1Idx_opc hj, hargs.l2Idx_opc hj⟩).2, hargs.l3Idx_opc hj]
    have hbefore : ∀ j < cpf.cpfCount.toNat, s.map.crtOpcLookup (cpf.opc j) =
        (s.map.slots (cpf.opc 0))[j]? := by
      intro j hj
      rw [crtOpcLookup_eq, (hslots _ ⟨hargs.l1Idx_opc hj, hargs.l2Idx_opc hj⟩).1, hargs.l3Idx_opc hj]
    constructor
    · intro hsame cpf' prf' hcpf' hargs' _
      obtain rfl := some.inj (hcpf.symm.trans hcpf')
      obtain rfl := some.inj (hargs.prf.symm.trans hargs'.prf)
      have hlen : cpf.cpfCount.toNat ≤ (s.map.slots (cpf.opc 0)).length := by
        -- the first new record would be found
        by_contra hlt
        rw [not_le] at hlt
        have hfound := hsame (cpf.opc (s.map.slots (cpf.opc 0)).length)
        obtain ⟨info, hinfo⟩ := room_of_lt s.map hlt
        rw [hlookup _ hlt, hbefore _ hlt, hinfo, getElem?_eq_none le_rfl] at hfound
        split at hfound
        · cases hfound
        · cases hfound
      refine ⟨hlen, fun info hinfo hopen => ?_⟩
      have hroom : (s.map.room cpf)[0]? = some info := by
        rw [room, grow_of_le hlen]
        exact hinfo
      have hpos : 0 < k := by
        by_contra hle
        obtain rfl : k = 0 := by omega
        exact hstop hargs.count_pos info hroom hopen
      -- the first record is in use after the call, and was not before
      have hfound := hsame (cpf.opc 0)
      rw [hlookup 0 hargs.count_pos, hbefore 0 hargs.count_pos, if_pos hpos, hroom, hinfo] at hfound
      have hinited : (info.entry privSize (cpf.opc 0) (prf 0)).coiInited = info.coiInited :=
        congrArg CrtOpcInfo.coiInited (some.inj hfound)
      rw [hopen.1] at hinited
      cases hinited
    · intro hclean opc
      obtain ⟨hlen, hfirst⟩ := hclean cpf prf hcpf hargs hmem
      have hroom : s.map.room cpf = s.map.slots (cpf.opc 0) := grow_of_le hlen
      have hk0 : k = 0 := by
        by_contra hne
        obtain ⟨info, hinfo⟩ := room_of_lt s.map hargs.count_pos
        exact hfirst info (hroom ▸ hinfo) (hentered 0 (pos_of_ne_zero hne) info hinfo)
      rw [crtOpcLookup_eq, crtOpcLookup_eq]
      by_cases hopc : l1Idx opc = l1Idx cpf.cpfBase ∧ l2Idx opc = cpf.cpfVer.toNat
      · obtain ⟨hold, hget⟩ := hslots opc hopc
        rw [hget, hk0, if_neg (Nat.not_lt_zero _), hroom, hold]
      · rw [hother opc hopc]

/-- The runs in which every call that fails does so without a trace. -/
def cleanRuns (privSize : ℕ) : Lts OpcState RegCall :=
  (opcLts privSize).restrict fun s c =>
    ∀ rc map', s.call privSize c = some (rc, map') → rc ≠ 0 → s.FailsCleanly c

/-- Every record that is found has been filled in for its opcode by a registration that
succeeded. -/
def OpcState.Initialised (privSize : ℕ) (s : OpcState) : Prop :=
  ∀ opc info, s.map.crtOpcLookup opc = some info → ∃ cpf ∈ s.registered, ∃ prf, cpf.cpfPrf = some prf ∧
    ∃ i < cpf.cpfCount.toNat, opc = cpf.opc i ∧ info = recordOf privSize cpf prf i

theorem cleanRuns_initialised (privSize : ℕ) :
    (cleanRuns privSize).Invariant fun s => s.Ok ∧ s.Initialised privSize where
  init := by
    intro s hs
    refine ⟨(opcLts_ok privSize).init s hs, fun opc info hinfo => ?_⟩
    obtain rfl : s = _ := hs
    rw [crtOpcLookup_eq, slots_empty] at hinfo
    cases hinfo
  step := by
    rintro s c s' ⟨hok, hinit⟩ ⟨henabled, hclean⟩ hstep
    refine ⟨(opcLts_ok privSize).step s c s' hok henabled hstep, ?_⟩
    obtain ⟨rc, map', hcall, _, ho⟩ := hok.call_spec privSize c
    obtain rfl := some.inj ((step_of_call hcall).symm.trans hstep)
    intro opc info hinfo
    change map'.crtOpcLookup opc = some info at hinfo
    by_cases hrc : rc = 0
    · subst hrc
      obtain ⟨cpf, prf, hcpf, hargs, hown, hothers⟩ := ho.lookup_of_success hok
      by_cases hopc : ∃ i < cpf.cpfCount.toNat, opc = cpf.opc i
      · obtain ⟨i, hi, rfl⟩ := hopc
        rw [hown i hi] at hinfo
        refine ⟨cpf, ?_, prf, hargs.prf, i, hi, rfl, (some.inj hinfo).symm⟩
        rw [if_pos rfl, hcpf]
        exact mem_cons_self
      · rw [hothers opc fun i hi heq => hopc ⟨i, hi, heq⟩] at hinfo
        obtain ⟨cpf', hmem, hrest⟩ := hinit opc info hinfo
        refine ⟨cpf', ?_, hrest⟩
        rw [if_pos rfl]
        exact mem_append_right _ hmem
    · rw [ho.lookup_iff.mpr (hclean rc map' hcall hrc) opc] at hinfo
      rw [if_neg hrc]
      exact hinit opc info hinfo

/-- **Failed registration** leaves every lookup as it was exactly if it fails without a trace.
-/
theorem proto_register_failed (privSize : ℕ) :
    (∀ s, (opcLts privSize).Reach s → ∀ c rc map', s.call privSize c = some (rc, map') → rc ≠ 0 →
      ((∀ opc, map'.crtOpcLookup opc = s.map.crtOpcLookup opc) ↔ s.FailsCleanly c)) ∧
    ∀ s, (cleanRuns privSize).Reach s →
      s.Initialised privSize ∧ ∀ opc, s.map.recvOpcInfo opc ≠ none := by
  refine ⟨fun s hs c rc map' hcall hrc => ?_, fun s hs => ?_⟩
  · obtain ⟨rc', map'', hcall', _, ho⟩ := ((opcLts_ok privSize).reach hs).call_spec privSize c
    obtain ⟨rfl, rfl⟩ := Prod.mk.inj (Option.some.inj (hcall'.symm.trans hcall))
    exact ho.lookup_iff
  · have hinit := ((cleanRuns_initialised privSize).reach hs).2
    refine ⟨hinit, fun opc => ?_⟩
    rw [recvOpcInfo]
    split
    · exact some_ne_none _
    · rename_i info hinfo
      obtain ⟨cpf, _, prf, _, i, _, rfl, rfl⟩ := hinit opc info hinfo
      have hopc : (recordOf privSize cpf prf i).coiOpc = cpf.opc i := rfl
      rw [if_pos hopc]
      exact some_ne_none _

/-- A protocol is registered, and a second registration of it fails and changes no
lookup. -/
theorem proto_register_failed_twice :
    ∃ s map', (cleanRuns 1000).Reach s ∧ s.registered ≠ [] ∧
      (s.Initialised 1000 ∧ ∀ opc, s.map.recvOpcInfo opc ≠ none) ∧
      s.call 1000 (sampleCall 0 2 fun _ => 64) = some (-derExist, map') ∧
      ∀ opc, map'.crtOpcLookup opc = s.map.crtOpcLookup opc := by
  have hfirst : (OpcState.empty.call 1000 (sampleCall 0 2 fun _ => 64)).map (fun r =>
      decide (r.1 = 0 ∧ ((⟨r.2, []⟩ : OpcState).call 1000 (sampleCall 0 2 fun _ => 64)).map Prod.fst =
          some (-derExist) ∧ (r.2.slots 0x01000000).length = 2 ∧
        ∀ info ∈ (r.2.slots 0x01000000)[0]?, info.coiInited = true)) = some true := by decide
  obtain ⟨⟨rc, map₁⟩, hcall, hdec⟩ := map_eq_some_iff.mp hfirst
  obtain ⟨rfl, hagain, hlen, hinited⟩ := of_decide_eq_true hdec
  obtain ⟨⟨rc, map'⟩, hcall', rfl⟩ := map_eq_some_iff.mp hagain
  have hclean : (cleanRuns 1000).Reach ⟨map₁, [sampleProto 0 2 fun _ => 64]⟩ := by
    refine ⟨_, _, rfl, .cons ⟨trivial, fun rc map' h hne => ?_⟩ (step_of_call hcall) (.nil _)⟩
    exact absurd (congrArg Prod.fst (Option.some.inj (h.symm.trans hcall))) hne
  have hreach : (opcLts 1000).Reach ⟨map₁, [sampleProto 0 2 fun _ => 64]⟩ :=
    ⟨_, _, rfl, .cons trivial (step_of_call hcall) (.nil _)⟩
  refine ⟨_, map', hclean, cons_ne_nil _ _, (proto_register_failed 1000).2 _ hclean, hcall', ?_⟩
  refine ((proto_register_failed 1000).1 _ hreach (sampleCall 0 2 fun _ => 64) _ map' hcall' (by decide)).mpr ?_
  rintro cpf prf hcpf - -
  cases hcpf
  refine ⟨hlen.ge, fun info hinfo hopen => ?_⟩
  exact absurd ((hinited info hinfo).symm.trans hopen.1) (by decide)

/-- The second RPC is too large: the first is found, and the second has an empty record. -/
theorem proto_register_leaves_records :
    ∃ map', OpcState.empty.call 1000 (sampleCall 0 2 fun i => if i = 0 then 64 else crtMaxSize + 1) =
        some (-derInval, map') ∧
      OpcState.empty.map.crtOpcLookup 0x01000000 = none ∧ map'.crtOpcLookup 0x01000000 ≠ none ∧
      map'.crtOpcLookup 0x01000001 = some .zero ∧ map'.recvOpcInfo 0x01000001 = none := by
  have hrun : (OpcState.empty.call 1000
      (sampleCall 0 2 fun i => if i = 0 then 64 else crtMaxSize + 1)).map (fun r =>
        decide (r.1 = -derInval ∧ r.2.crtOpcLookup 0x01000000 ≠ none ∧
          r.2.crtOpcLookup 0x01000001 = some .zero)) = some true := by decide
  obtain ⟨⟨rc, map'⟩, hcall, hdec⟩ := map_eq_some_iff.mp hrun
  obtain ⟨rfl, hfirst, hsecond⟩ := of_decide_eq_true hdec
  refine ⟨map', hcall, rfl, hfirst, hsecond, ?_⟩
  rw [recvOpcInfo, hsecond]
  rfl

/-- A call leaves the records in use as they are, also one that fails. -/
theorem Outcome.lookup_of_inited {opc : UInt32} (ho : Outcome privSize s c rc map')
    (hinfo : s.map.crtOpcLookup opc = some info) (hinited : info.coiInited = true) :
    map'.crtOpcLookup opc = some info := by
  rw [crtOpcLookup_eq] at hinfo ⊢
  cases ho with
  | early _ hslots => rwa [hslots]
  | loop cpf prf k _ _ _ _ _ _ hentered hother hslots =>
    by_cases hsame : l1Idx opc = l1Idx cpf.cpfBase ∧ l2Idx opc = cpf.cpfVer.toNat
    · obtain ⟨hold, hget⟩ := hslots opc hsame
      rw [hold] at hinfo
      have hroom : (s.map.room cpf)[l3Idx opc]? = some info := by
        rw [room, getElem?_grow_of_lt (List.getElem?_eq_some_iff.mp hinfo).1, hinfo]
      rw [hget, if_neg fun hlt => ?_, hroom]
      exact Bool.false_ne_true ((hentered _ hlt info hroom).1.symm.trans hinited)
    · rwa [hother opc hsame]

/-- **A registered RPC stays**: whatever is registered later, and fails, its record is found
unchanged. -/
theorem registered_for_ever (privSize : ℕ) : (opcLts privSize).Always fun s =>
    ∀ cs s', (opcLts privSize).Run s cs s' → ∀ opc info, s.map.crtOpcLookup opc = some info →
      info.coiInited = true → s'.map.crtOpcLookup opc = some info := by
  intro s hs cs s' hrun opc info hinfo hinited
  have hinv := opcLts_ok privSize
  refine hinv.run_keeps (Q := fun s => s.map.crtOpcLookup opc = some info) ?_ hrun (hinv.reach hs) hinfo
  intro s c s' hok hinfo _ hstep
  obtain ⟨rc, map', hcall, _, ho⟩ := hok.call_spec privSize c
  obtain rfl := Option.some.inj ((step_of_call hcall).symm.trans hstep)
  exact ho.lookup_of_inited hinfo hinited

/-! ### The query -/

section

variable (s : OpcState) (baseOpc ver : UInt32)

/-- A protocol with this base opcode and version is registered. -/
def OpcState.Registered : Prop :=
  ∃ cpf ∈ s.registered, cpf.cpfBase = baseOpc ∧ cpf.cpfVer = ver

/-- Success with the largest requested version that is registered, or an error if none
is. -/
def OpcState.QueryCorrect (vers : List UInt32) : Prop :=
  ∃ ver rc, s.map.crtHdlrProtoQuery baseOpc vers = some (ver, rc) ∧
    (rc = 0 ∧ IsGreatest {v | v ∈ vers ∧ s.Registered baseOpc v} ver ∨
      rc ≠ 0 ∧ ∀ v ∈ vers, ¬ s.Registered baseOpc v)

/-- The version is not registered, but its opcode has records. -/
def OpcState.Misleads : Prop :=
  ¬ s.Registered baseOpc ver ∧ s.map.slots (crtProtoOpc baseOpc ver 0) ≠ []

end

theorem OpcState.Ok.accepts_of_registered (h : s.Ok) {baseOpc ver : UInt32} (hreg : s.Registered baseOpc ver) :
    s.map.Accepts baseOpc ver := by
  obtain ⟨cpf, hmem, rfl, rfl⟩ := hreg
  exact h.registered cpf hmem

/-- **Protocol query** is right exactly if a version is requested and what only seems registered
is below a requested version that is. -/
theorem proto_query_greatest (hs : (opcLts privSize).Reach s) (baseOpc : UInt32) (vers : List UInt32) :
    s.QueryCorrect baseOpc vers ↔ vers ≠ [] ∧
      ∀ v ∈ vers, s.Misleads baseOpc v → ∃ w ∈ vers, s.Registered baseOpc w ∧ v ≤ w := by
  have hok := (opcLts_ok privSize).reach hs
  have haccepts : ∀ v, s.Registered baseOpc v → s.map.Accepts baseOpc v :=
    fun v => hok.accepts_of_registered
  by_cases hvers : vers = []
  · simp [OpcState.QueryCorrect, CrtOpcMap.crtHdlrProtoQuery, hvers]
  obtain ⟨ver, rc, hquery, hspec⟩ := s.map.crtHdlrProtoQuery_spec baseOpc hvers
  simp only [OpcState.QueryCorrect, hquery, some.injEq, Prod.mk.injEq, and_assoc, exists_and_left,
    exists_eq_left', ne_eq, hvers, not_false_eq_true, true_and]
  constructor
  · rintro hcorrect v hv ⟨_, hslots⟩
    rcases hspec with ⟨hrc, hmax⟩ | ⟨_, hnone⟩
    · rcases hcorrect with ⟨_, hgreatest⟩ | ⟨hne, _⟩
      · exact ⟨_, hgreatest.1.1, hgreatest.1.2, hmax.2 ⟨hv, hslots⟩⟩
      · exact absurd hrc hne
    · exact absurd hslots (hnone v hv)
  · intro hcond
    rcases hspec with ⟨hrc, hmax⟩ | ⟨hne, hnone⟩
    · have hupper : ∀ w ∈ vers, s.Registered baseOpc w → w ≤ ver :=
        fun w hw hreg => hmax.2 ⟨hw, haccepts w hreg⟩
      refine .inl ⟨hrc, ⟨hmax.1.1, ?_⟩, fun w hw => hupper w hw.1 hw.2⟩
      by_contra hnot
      obtain ⟨w, hw, hreg, hle⟩ := hcond _ hmax.1.1 ⟨hnot, hmax.1.2⟩
      rw [UInt32.le_antisymm hle (hupper w hw hreg)] at hnot
      exact hnot hreg
    · exact .inr ⟨hne, fun v hv hreg => hnone v hv (haccepts v hreg)⟩

/-- With version 3 registered, the query for 5 and 3 is answered by 3. -/
theorem proto_query_greatest_three :
    ∃ s, (opcLts 1000).Reach s ∧ s.map.crtHdlrProtoQuery 0x01000000 [5, 3] = some (3, 0) ∧
      s.QueryCorrect 0x01000000 [5, 3] := by
  obtain ⟨s, hreach, hquery, hslots, hreg⟩ : ∃ s, (opcLts 1000).Reach s ∧
      s.map.crtHdlrProtoQuery 0x01000000 [5, 3] = some (3, 0) ∧
      s.map.slots (crtProtoOpc 0x01000000 5 0) = [] ∧
      s.registered.map (fun cpf => (cpf.cpfBase, cpf.cpfVer)) = [(0x01000000, 3)] :=
    Lts.exists_reach_of_exec [sampleCall 3 1 fun _ => 64] _ rfl (by decide)
  refine ⟨s, hreach, hquery, (proto_query_greatest hreach _ _).mpr
    ⟨cons_ne_nil _ _, fun v hv hmis => ?_⟩⟩
  have hthree : s.Registered 0x01000000 3 := by
    obtain ⟨cpf, hmem, heq⟩ := List.mem_map.mp (hreg ▸ mem_singleton_self _)
    exact ⟨cpf, hmem, congrArg Prod.fst heq, congrArg Prod.snd heq⟩
  rcases mem_cons.mp hv with rfl | hv
  · exact absurd hslots hmis.2
  · obtain rfl := mem_singleton.mp hv
    exact absurd hthree hmis.1

/-- A query for version 256 falls on the base opcode and is answered. -/
theorem proto_query_runs_over :
    ∃ s, (opcLts 1000).Reach s ∧ s.map.crtHdlrProtoQuery 0x01000000 [256] = some (256, 0) ∧
      ¬ s.Registered 0x01000000 256 ∧ ¬ s.QueryCorrect 0x01000000 [256] := by
  obtain ⟨s, hreach, hquery, hver⟩ : ∃ s, (opcLts 1000).Reach s ∧
      s.map.crtHdlrProtoQuery 0x01000000 [256] = some (256, 0) ∧
      ∀ cpf ∈ s.registered, cpf.cpfVer ≠ 256 :=
    Lts.exists_reach_of_exec [sampleCall 0 1 fun _ => 64] _ rfl (by decide)
  have hnot : ¬ s.Registered 0x01000000 256 := by
    rintro ⟨cpf, hmem, _, h256⟩
    exact hver cpf hmem h256
  refine ⟨s, hreach, hquery, hnot, ?_⟩
  rintro ⟨ver, rc, heq, ⟨_, hgreatest⟩ | ⟨hne, _⟩⟩
  · cases hquery.symm.trans heq
    exact hnot hgreatest.1.2
  · cases hquery.symm.trans heq
    exact hne rfl

end Cart
