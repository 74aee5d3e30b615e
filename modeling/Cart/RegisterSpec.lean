/-
What a registration does to the map of opcodes.

An opcode stands for its three indices (`opc_ext`), and a lookup is one in the
array of records of its base opcode and version (`CrtOpcMap.slots`).

Main results: `regLoop_spec`, `crtProtoRegister_cases`, `crtHdlrProtoQuery_spec`.
-/
import Cart.Register

open List Option GrowArray

namespace Cart

variable {prf : ℕ → CrtProtoRpcFormat} {map : CrtOpcMap} {cpf : CrtProtoFormat} {internal : Bool}

/-! ### Opcodes and indices -/

theorem l1Idx_eq (opc : UInt32) : l1Idx opc = opc.toNat / 2 ^ 24 := by
  rw [l1Idx, UInt32.toNat_shiftRight, Nat.shiftRight_eq_div_pow]
  rfl

theorem l3Idx_eq (opc : UInt32) : l3Idx opc = opc.toNat % 2 ^ 16 := by
  rw [l3Idx, UInt32.toNat_and]
  exact Nat.and_two_pow_sub_one_eq_mod opc.toNat 16

theorem l2Idx_eq (opc : UInt32) : l2Idx opc = opc.toNat / 2 ^ 16 % 2 ^ 8 := by
  rw [l2Idx, UInt32.toNat_shiftRight, UInt32.toNat_and]
  rw [Nat.shiftRight_and_distrib, Nat.shiftRight_eq_div_pow]
  exact Nat.and_two_pow_sub_one_eq_mod _ 8

theorem opc_ext {opc opc' : UInt32} (h1 : l1Idx opc = l1Idx opc') (h2 : l2Idx opc = l2Idx opc')
    (h3 : l3Idx opc = l3Idx opc') : opc = opc' := by
  rw [l1Idx_eq, l1Idx_eq] at h1
  rw [l2Idx_eq, l2Idx_eq] at h2
  rw [l3Idx_eq, l3Idx_eq] at h3
  apply UInt32.toNat_inj.mp
  omega

/-- Only bits of the base opcode are set. -/
def BaseBits (baseOpc : UInt32) : Prop := baseOpc.toNat % 2 ^ 24 = 0

theorem baseBits_of_and (baseOpc : UInt32) (h : baseOpc &&& ~~~crtProtoBaseopcMask = 0) :
    BaseBits baseOpc := by
  have hand := congrArg UInt32.toNat h
  rw [UInt32.toNat_and] at hand
  have hmask : (~~~crtProtoBaseopcMask).toNat = 2 ^ 24 - 1 := by decide
  rw [hmask, Nat.and_two_pow_sub_one_eq_mod] at hand
  exact hand

theorem toNat_crtProtoOpc {baseOpc ver rpcIndex : UInt32} (hbase : BaseBits baseOpc)
    (hver : ver.toNat < 2 ^ 8) (hindex : rpcIndex.toNat < 2 ^ 16) :
    (crtProtoOpc baseOpc ver rpcIndex).toNat =
      baseOpc.toNat + ver.toNat * 2 ^ 16 + rpcIndex.toNat := by
  have hshift : (ver <<< 16).toNat = 2 ^ 16 * ver.toNat := by
    rw [UInt32.toNat_shiftLeft, Nat.shiftLeft_eq]
    show ver.toNat * 2 ^ 16 % 2 ^ 32 = _
    rw [Nat.mod_eq_of_lt (by omega), mul_comm]
  have hmul : baseOpc.toNat = 2 ^ 24 * (baseOpc.toNat / 2 ^ 24) := by
    rw [BaseBits] at hbase
    omega
  have hhigh : baseOpc.toNat ||| 2 ^ 16 * ver.toNat =
      2 ^ 16 * (2 ^ 8 * (baseOpc.toNat / 2 ^ 24) + ver.toNat) := by
    rw [hmul, ← Nat.two_pow_add_eq_or_of_lt (by omega)]
    omega
  rw [crtProtoOpc, UInt32.toNat_or, UInt32.toNat_or, hshift, hhigh,
    ← Nat.two_pow_add_eq_or_of_lt hindex]
  omega

section

variable {baseOpc ver rpcIndex : UInt32} (hbase : BaseBits baseOpc) (hver : ver.toNat < 2 ^ 8)
  (hindex : rpcIndex.toNat < 2 ^ 16)

include hbase hver hindex

theorem l1Idx_crtProtoOpc : l1Idx (crtProtoOpc baseOpc ver rpcIndex) = l1Idx baseOpc := by
  rw [l1Idx_eq, l1Idx_eq, toNat_crtProtoOpc hbase hver hindex]
  rw [BaseBits] at hbase
  omega

theorem l2Idx_crtProtoOpc : l2Idx (crtProtoOpc baseOpc ver rpcIndex) = ver.toNat := by
  rw [l2Idx_eq, toNat_crtProtoOpc hbase hver hindex]
  rw [BaseBits] at hbase
  omega

theorem l3Idx_crtProtoOpc : l3Idx (crtProtoOpc baseOpc ver rpcIndex) = rpcIndex.toNat := by
  rw [l3Idx_eq, toNat_crtProtoOpc hbase hver hindex]
  rw [BaseBits] at hbase
  omega

end

/-! ### Entries -/

namespace CrtOpcInfo

/-- The record is free for the RPC, and the RPC is not too large. -/
def Open (info : CrtOpcInfo) (prf : CrtProtoRpcFormat) : Prop :=
  info.coiInited = false ∧ ¬ prf.TooLarge
deriving Decidable

/-- The record of an RPC that has been entered. -/
def entry (privSize : ℕ) (info : CrtOpcInfo) (opc : UInt32) (prf : CrtProtoRpcFormat) : CrtOpcInfo :=
  info.filled privSize opc prf.prfFlags prf.prfReqFmt prf.prfHdlr prf.prfCoOps

theorem crtOpcRegInternal_of_open {info : CrtOpcInfo} {prf : CrtProtoRpcFormat} (h : info.Open prf)
    (privSize : ℕ) (opc : UInt32) :
    info.crtOpcRegInternal privSize opc prf = (0, info.entry privSize opc prf) := by
  rw [crtOpcRegInternal, if_neg h.2, crtOpcReg, h.1, if_neg Bool.false_ne_true]
  rfl

theorem crtOpcRegInternal_of_not_open {info : CrtOpcInfo} {prf : CrtProtoRpcFormat}
    (h : ¬ info.Open prf) (privSize : ℕ) (opc : UInt32) :
    ∃ rc, rc ≠ 0 ∧ info.crtOpcRegInternal privSize opc prf = (rc, info) := by
  rw [crtOpcRegInternal]
  split_ifs with hlarge
  · exact ⟨_, by decide, rfl⟩
  · have hinited : info.coiInited = true := by
      by_contra hne
      exact h ⟨Bool.eq_false_iff.mpr hne, hlarge⟩
    rw [crtOpcReg, if_pos hinited]
    exact ⟨_, by decide, rfl⟩

end CrtOpcInfo

/-- The loop enters RPCs up to one that it refuses, or all of them. -/
theorem regLoop_spec (privSize : ℕ) (cpf : CrtProtoFormat) (prf : ℕ → CrtProtoRpcFormat) (n : ℕ) :
    ∀ (i : ℕ) (slots : List CrtOpcInfo), i + n ≤ slots.length →
      ∃ k ≤ n, ((regLoop privSize cpf prf n i slots).1 = 0 ↔ k = n) ∧
        (k < n → ∀ info ∈ slots[i + k]?, ¬ info.Open (prf (i + k))) ∧
        (∀ j, i ≤ j → j < i + k → ∀ info ∈ slots[j]?, info.Open (prf j)) ∧
        ∀ j, (regLoop privSize cpf prf n i slots).2[j]? =
          if i ≤ j ∧ j < i + k then (slots[j]?).map fun info => info.entry privSize (cpf.opc j) (prf j)
          else slots[j]? := by
  induction n with
  | zero =>
    intro i slots _
    refine ⟨0, le_rfl, iff_of_true rfl rfl, fun h => absurd h (lt_irrefl 0), ?_, ?_⟩
    · intro j hj hlt
      omega
    · intro j
      rw [if_neg (by omega)]
      rfl
  | succ n ih =>
    intro i slots hlen
    have hi : i < slots.length := by omega
    have hget : slots[i]? = some slots[i] := getElem?_eq_getElem hi
    have hgetD : slots.getD i .zero = slots[i] := by
      rw [getD_eq_getElem?_getD, hget]
      rfl
    rw [regLoop, hgetD]
    by_cases hopen : slots[i].Open (prf i)
    · rw [CrtOpcInfo.crtOpcRegInternal_of_open hopen]
      dsimp only
      rw [if_neg (by decide)]
      obtain ⟨k, hk, hrc, hstop, hentered, hslots⟩ := ih (i + 1)
        (slots.set i (slots[i].entry privSize (cpf.opc i) (prf i))) (by rw [length_set]; omega)
      -- the first entry does not matter to the rest of the loop
      have hother : ∀ j, j ≠ i → (slots.set i (slots[i].entry privSize (cpf.opc i) (prf i)))[j]? =
          slots[j]? := fun j hj => getElem?_set_ne (Ne.symm hj)
      refine ⟨k + 1, by omega, by rw [hrc]; omega, fun hlt => ?_, fun j hj hjk => ?_, fun j => ?_⟩
      · have hrest := hstop (by omega)
        rw [hother _ (by omega)] at hrest
        rw [show i + (k + 1) = i + 1 + k by omega]
        exact hrest
      · by_cases hji : j = i
        · subst hji
          rw [hget]
          rintro info ⟨⟩
          exact hopen
        · have hrest := hentered j (by omega) (by omega)
          rwa [hother j hji] at hrest
      · rw [hslots j]
        by_cases hji : j = i
        · subst hji
          rw [if_neg (by omega), if_pos (by omega), getElem?_set_self hi, hget]
          rfl
        · rw [hother j hji]
          by_cases hin : i + 1 ≤ j ∧ j < i + 1 + k
          · rw [if_pos hin, if_pos (by omega)]
          · rw [if_neg hin, if_neg (by omega)]
    · obtain ⟨rc, hrc, hreg⟩ := CrtOpcInfo.crtOpcRegInternal_of_not_open hopen privSize (cpf.opc i)
      rw [hreg]
      dsimp only
      rw [if_pos hrc, set_getElem_self]
      refine ⟨0, by omega, iff_of_false hrc (by omega), fun _ => ?_, fun j hj hlt => ?_, fun j => ?_⟩
      · rw [add_zero, hget]
        rintro info ⟨⟩
        exact hopen
      · omega
      · rw [if_neg (by omega)]

/-! ### The map -/

namespace CrtOpcMap

/-- The records of the base opcode and the version of `opc`. -/
def slots (map : CrtOpcMap) (opc : UInt32) : List CrtOpcInfo :=
  ((map.comMap.getD (l1Idx opc) ⟨[]⟩).l2Map.getD (l2Idx opc) ⟨[]⟩).l3Map

theorem crtOpcLookup_eq (map : CrtOpcMap) (opc : UInt32) :
    map.crtOpcLookup opc = (map.slots opc)[l3Idx opc]? := by
  rw [crtOpcLookup, slots, getD_eq_getElem?_getD, getD_eq_getElem?_getD]
  cases map.comMap[l1Idx opc]? with
  | none => rfl
  | some l2 =>
    dsimp only [getD_some]
    cases l2.l2Map[l2Idx opc]? with
    | none | some l3 => rfl

/-- A version counts as registered if there are records for it. -/
theorem crtProtoLookup_eq_zero_iff (map : CrtOpcMap) (opc : UInt32) :
    map.crtProtoLookup opc = 0 ↔ map.slots opc ≠ [] := by
  have hnonexist : -derNonexist ≠ 0 := by decide
  have hunreg : -derUnreg ≠ 0 := by decide
  rw [crtProtoLookup, slots, getD_eq_getElem?_getD, getD_eq_getElem?_getD]
  cases map.comMap[l1Idx opc]? with
  | none => exact iff_of_false hnonexist fun h => h rfl
  | some l2 =>
    dsimp only [getD_some]
    split_ifs with hzero
    · rw [length_eq_zero_iff.mp hzero]
      exact iff_of_false hnonexist fun h => h rfl
    · cases l2.l2Map[l2Idx opc]? with
      | none => exact iff_of_false hunreg fun h => h rfl
      | some l3 =>
        dsimp only [getD_some]
        split_ifs with hzero
        · exact iff_of_false hunreg fun h => h (length_eq_zero_iff.mp hzero)
        · exact iff_of_true rfl fun h => hzero (length_eq_zero_iff.mpr h)

end CrtOpcMap

/-! ### Registrations -/

/-- The arguments of a registration are accepted. -/
structure RegArgs (internal : Bool) (cpf : CrtProtoFormat) (prf : ℕ → CrtProtoRpcFormat) : Prop where
  base : if internal then cpf.cpfBase = crtProtoBaseopcMask else validateBaseOpcode cpf.cpfBase = true
  ver : cpf.cpfVer ≤ crtProtoMaxVer
  count_le : cpf.cpfCount ≤ crtProtoMaxCount
  count_ne : cpf.cpfCount ≠ 0
  prf : cpf.cpfPrf = some prf

namespace RegArgs

section

variable (h : RegArgs internal cpf prf)

include h

theorem baseBits : BaseBits cpf.cpfBase := by
  have hbase := h.base
  cases internal with
  | true =>
    rw [if_pos rfl] at hbase
    rw [hbase]
    exact (by decide : crtProtoBaseopcMask.toNat % 2 ^ 24 = 0)
  | false =>
    rw [if_neg Bool.false_ne_true, validateBaseOpcode] at hbase
    split at hbase
    · cases hbase
    · split at hbase
      · cases hbase
      · rename_i hand
        exact baseBits_of_and cpf.cpfBase (not_not.mp hand)

theorem ver_lt : cpf.cpfVer.toNat < 2 ^ 8 :=
  Nat.lt_succ_of_le (UInt32.le_iff_toNat_le.mp h.ver)

theorem count_lt : cpf.cpfCount.toNat < 2 ^ 16 :=
  Nat.lt_succ_of_le (UInt32.le_iff_toNat_le.mp h.count_le)

theorem count_pos : 0 < cpf.cpfCount.toNat := by
  rw [pos_iff_ne_zero]
  intro hzero
  exact h.count_ne (UInt32.toNat_inj.mp hzero)

end

section

variable (h : RegArgs internal cpf prf) {i : ℕ} (hi : i < cpf.cpfCount.toNat)

include h hi

theorem toNat_index : (UInt32.ofNat i).toNat = i := by
  have hlt := h.count_lt
  exact UInt32.toNat_ofNat_of_lt' (show i < 2 ^ 32 by omega)

theorem index_lt : (UInt32.ofNat i).toNat < 2 ^ 16 := by
  rw [h.toNat_index hi]
  exact hi.trans h.count_lt

theorem l1Idx_opc : l1Idx (cpf.opc i) = l1Idx cpf.cpfBase :=
  l1Idx_crtProtoOpc h.baseBits h.ver_lt (h.index_lt hi)

theorem l2Idx_opc : l2Idx (cpf.opc i) = cpf.cpfVer.toNat :=
  l2Idx_crtProtoOpc h.baseBits h.ver_lt (h.index_lt hi)

theorem l3Idx_opc : l3Idx (cpf.opc i) = i :=
  (l3Idx_crtProtoOpc h.baseBits h.ver_lt (h.index_lt hi)).trans (h.toNat_index hi)

end

/-- The opcodes of a protocol are those with its base opcode, its version and a small
index. -/
theorem eq_opc_iff (h : RegArgs internal cpf prf) {i : ℕ} (hi : i < cpf.cpfCount.toNat) (opc : UInt32) :
    opc = cpf.opc i ↔ (l1Idx opc = l1Idx cpf.cpfBase ∧ l2Idx opc = cpf.cpfVer.toNat) ∧ l3Idx opc = i := by
  constructor
  · rintro rfl
    exact ⟨⟨h.l1Idx_opc hi, h.l2Idx_opc hi⟩, h.l3Idx_opc hi⟩
  · rintro ⟨⟨h1, h2⟩, h3⟩
    exact opc_ext (h1.trans (h.l1Idx_opc hi).symm) (h2.trans (h.l2Idx_opc hi).symm)
      (h3.trans (h.l3Idx_opc hi).symm)

end RegArgs

namespace CrtOpcMap

/-- The second level of the protocol. -/
def versions (map : CrtOpcMap) (cpf : CrtProtoFormat) : List CrtOpcMapL3 :=
  (map.comMap.getD (l1Idx cpf.cpfBase) ⟨[]⟩).l2Map

/-- The allocations that the registration needs succeed. -/
def RegMemory (env : RegEnv) (map : CrtOpcMap) (cpf : CrtProtoFormat) : Prop :=
  ((map.versions cpf).length < cpf.cpfVer.toNat + 1 → env.allocL2 = true) ∧
    ((map.slots (cpf.opc 0)).length < cpf.cpfCount.toNat → env.allocL3 = true)
deriving Decidable

theorem slots_set {index : ℕ} (h : index < map.comMap.length) (l2 : CrtOpcMapL2) (opc : UInt32) :
    (⟨map.comMap.set index l2⟩ : CrtOpcMap).slots opc =
      if l1Idx opc = index then (l2.l2Map.getD (l2Idx opc) ⟨[]⟩).l3Map else map.slots opc := by
  rw [slots, getD_set h]
  split
  · rfl
  · rfl

/-- The array that the loop of a registration works on. -/
def room (map : CrtOpcMap) (cpf : CrtProtoFormat) : List CrtOpcInfo :=
  grow .zero cpf.cpfCount.toNat (map.slots (cpf.opc 0))

/-- A registration lacks memory, or comes to the loop on the array of its version. -/
theorem crtProtoRegL1_spec (privSize : ℕ) (env : RegEnv) (h : RegArgs internal cpf prf)
    (hmap : map.comMap.length = 256) :
    ∃ rc map', map.crtProtoRegL1 privSize env cpf prf = some (rc, map') ∧ map'.comMap.length = 256 ∧
      (¬ RegMemory env map cpf ∧ rc ≠ 0 ∧ (∀ opc, map'.slots opc = map.slots opc) ∨
      RegMemory env map cpf ∧
        rc = (regLoop privSize cpf prf cpf.cpfCount.toNat 0 (map.room cpf)).1 ∧
        ∀ opc, map'.slots opc =
          if l1Idx opc = l1Idx cpf.cpfBase ∧ l2Idx opc = cpf.cpfVer.toNat then
            (regLoop privSize cpf prf cpf.cpfCount.toNat 0 (map.room cpf)).2
          else map.slots opc) := by
  have hindex : l1Idx cpf.cpfBase < map.comMap.length := by
    rw [l1Idx_eq, hmap]
    have := cpf.cpfBase.toNat_lt
    omega
  have hl2 : map.comMap[l1Idx cpf.cpfBase]? = some (map.comMap.getD (l1Idx cpf.cpfBase) ⟨[]⟩) := by
    rw [getD_eq_getElem?_getD, getElem?_eq_getElem hindex]
    rfl
  have hslots : (map.versions cpf).getD cpf.cpfVer.toNat ⟨[]⟩ = ⟨map.slots (cpf.opc 0)⟩ := by
    rw [slots, h.l1Idx_opc h.count_pos, h.l2Idx_opc h.count_pos]
    rfl
  -- whatever is put in for the base opcode, the others stay
  have hother : ∀ l2 : CrtOpcMapL2, (⟨map.comMap.set (l1Idx cpf.cpfBase) l2⟩ : CrtOpcMap).comMap.length =
      256 := fun l2 => (length_set ..).trans hmap
  rw [crtProtoRegL1]
  dsimp only
  rw [show (cpf.cpfBase >>> 24).toNat = l1Idx cpf.cpfBase from rfl, hl2]
  refine ⟨_, _, rfl, hother _, ?_⟩
  rw [CrtOpcMapL2.crtProtoRegL2, CrtOpcMapL2.getL3Map]
  split
  · rename_i hnone
    split at hnone
    · rename_i hmem
      refine .inl ⟨fun hok => ?_, (by decide : -derNomem ≠ 0), fun opc => ?_⟩
      · exact Bool.false_ne_true (hmem.2.symm.trans (hok.1 hmem.1))
      · rw [slots_set hindex]
        split_ifs with hopc
        · rw [slots, hopc]
        · rfl
    · cases hnone
  · rename_i l2 hsome
    split at hsome
    · cases hsome
    · rename_i hmem
      cases hsome
      have hget : (grow ⟨[]⟩ (cpf.cpfVer.toNat + 1) (map.versions cpf)).getD
          cpf.cpfVer.toNat ⟨[]⟩ = ⟨map.slots (cpf.opc 0)⟩ := getD_grow.trans hslots
      have hver : cpf.cpfVer.toNat <
          (grow ⟨[]⟩ (cpf.cpfVer.toNat + 1) (map.versions cpf)).length :=
        Nat.lt_of_succ_le le_length_grow
      -- what a lookup finds when the array of the version is replaced
      have hset : ∀ (l3 : CrtOpcMapL3) (opc : UInt32), (⟨map.comMap.set (l1Idx cpf.cpfBase)
          ⟨(grow ⟨[]⟩ (cpf.cpfVer.toNat + 1) (map.versions cpf)).set cpf.cpfVer.toNat l3⟩⟩ :
            CrtOpcMap).slots opc =
          if l1Idx opc = l1Idx cpf.cpfBase ∧ l2Idx opc = cpf.cpfVer.toNat then l3.l3Map
          else map.slots opc := by
        intro l3 opc
        rw [slots_set hindex]
        rw [getD_set hver, getD_grow]
        by_cases h1 : l1Idx opc = l1Idx cpf.cpfBase
        · rw [if_pos h1]
          by_cases h2 : l2Idx opc = cpf.cpfVer.toNat
          · rw [if_pos h2, if_pos ⟨h1, h2⟩]
          · rw [if_neg h2, if_neg fun hand => h2 hand.2, slots, h1]
            rfl
        · rw [if_neg h1, if_neg fun hand => h1 hand.1]
      rw [show (map.comMap.getD (l1Idx cpf.cpfBase) ⟨[]⟩).l2Map = map.versions cpf from rfl] at hmem ⊢
      rw [hget, CrtOpcMapL3.crtProtoRegL3]
      split_ifs with hmem3
      · refine .inl ⟨fun hok => ?_, (by decide : -derNomem ≠ 0), fun opc => ?_⟩
        · exact Bool.false_ne_true (hmem3.2.symm.trans (hok.2 hmem3.1))
        · rw [hset]
          split_ifs with hopc
          · rw [slots, slots, hopc.1, hopc.2, h.l1Idx_opc h.count_pos, h.l2Idx_opc h.count_pos]
          · rfl
      · refine .inr ⟨⟨fun hlt => ?_, fun hlt => ?_⟩, rfl, hset _⟩
        · by_contra hne
          exact hmem ⟨hlt, Bool.eq_false_iff.mpr hne⟩
        · by_contra hne
          exact hmem3 ⟨hlt, Bool.eq_false_iff.mpr hne⟩

/-- The arguments are accepted, or nothing happens. -/
theorem crtProtoRegister_cases (privSize : ℕ) (internal : Bool) (env : RegEnv) (map : CrtOpcMap)
    (cpf : Option CrtProtoFormat) : (∃ cpf₀ prf, cpf = some cpf₀ ∧ RegArgs internal cpf₀ prf ∧
      map.crtProtoRegister privSize internal env cpf = map.crtProtoRegL1 privSize env cpf₀ prf) ∨
    (∀ cpf₀ prf, cpf = some cpf₀ → ¬ RegArgs internal cpf₀ prf) ∧
      map.crtProtoRegister privSize internal env cpf = some (-derInval, map) := by
  cases cpf with
  | none =>
    refine .inr ⟨?_, rfl⟩
    rintro cpf₀ prf ⟨⟩
  | some cpf =>
    by_cases hargs : ∃ prf, RegArgs internal cpf prf
    · obtain ⟨prf, h⟩ := hargs
      refine .inl ⟨cpf, prf, rfl, h, ?_⟩
      have hcommon : map.crtProtoRegisterCommon privSize env cpf =
          map.crtProtoRegL1 privSize env cpf prf := by
        rw [crtProtoRegisterCommon, if_neg (UInt32.not_lt.mpr h.ver),
          if_neg (UInt32.not_lt.mpr h.count_le), if_neg h.count_ne, h.prf]
      have hbase := h.base
      rw [crtProtoRegister]
      cases internal with
      | true =>
        rw [if_pos rfl] at hbase ⊢
        rw [if_neg (by rw [hbase, UInt32.xor_self]; exact fun hne => hne rfl), hcommon]
      | false =>
        rw [if_neg Bool.false_ne_true] at hbase ⊢
        rw [if_neg (by rw [hbase]; exact Bool.true_eq_false.mp), hcommon]
    · refine .inr ⟨?_, ?_⟩
      · rintro cpf₀ prf ⟨⟩ h
        exact hargs ⟨prf, h⟩
      -- one of the checks fails
      have hcommon : (if internal then cpf.cpfBase = crtProtoBaseopcMask
          else validateBaseOpcode cpf.cpfBase = true) →
          map.crtProtoRegisterCommon privSize env cpf = some (-derInval, map) := by
        intro hbase
        rw [crtProtoRegisterCommon]
        split
        · rfl
        rename_i hver
        split
        · rfl
        rename_i hcount
        split
        · rfl
        rename_i hzero
        cases hprf : cpf.cpfPrf with
        | none => rfl
        | some prf =>
          exact absurd ⟨prf, hbase, UInt32.not_lt.mp hver, UInt32.not_lt.mp hcount, hzero, hprf⟩ hargs
      rw [crtProtoRegister]
      split
      · rename_i hinternal
        split_ifs with hbase
        · rfl
        · refine hcommon ?_
          rw [if_pos hinternal]
          exact UInt32.xor_eq_zero_iff.mp (not_not.mp hbase)
      · rename_i hinternal
        split_ifs with hbase
        · rfl
        · refine hcommon ?_
          rw [if_neg hinternal]
          exact Bool.eq_true_of_not_eq_false hbase

/-! ### The query -/

/-- There are records for the version. -/
def Accepts (map : CrtOpcMap) (baseOpc ver : UInt32) : Prop := map.slots (crtProtoOpc baseOpc ver 0) ≠ []

/-- The variables of the loop of the query after the numbers in `seen`. -/
inductive QueryState (map : CrtOpcMap) (baseOpc : UInt32) (seen : List UInt32) : UInt32 → ℤ → ℤ → Prop
  | found {highVer rcTmp} (h : IsGreatest {v | v ∈ seen ∧ map.Accepts baseOpc v} highVer) :
      QueryState map baseOpc seen highVer rcTmp 0
  | missing {rcTmp rc} (hrc : rc ≠ 0) (htmp : rcTmp ≠ 0) (h : ∀ v ∈ seen, ¬ map.Accepts baseOpc v) :
      QueryState map baseOpc seen 0 rcTmp rc

variable {baseOpc ver highVer : UInt32} {seen : List UInt32} {rcTmp rc : ℤ}

/-- A number that is not accepted or too small changes no result. -/
theorem QueryState.skip (h : QueryState map baseOpc seen highVer rcTmp rc) {rcTmp' : ℤ}
    (htmp' : rc ≠ 0 → rcTmp' ≠ 0)
    (hver : map.Accepts baseOpc ver → rc = 0 ∧ ver ≤ highVer) :
    QueryState map baseOpc (seen ++ [ver]) highVer rcTmp' rc := by
  cases h with
  | found h =>
    refine .found ⟨⟨mem_append_left _ h.1.1, h.1.2⟩, ?_⟩
    rintro v ⟨hv, hacc⟩
    rcases mem_append.mp hv with hold | hnew
    · exact h.2 ⟨hold, hacc⟩
    · obtain rfl := mem_singleton.mp hnew
      exact (hver hacc).2
  | missing hrc _ h =>
    refine .missing hrc (htmp' hrc) fun v hv hacc => ?_
    rcases mem_append.mp hv with hold | hnew
    · exact h v hold hacc
    · obtain rfl := mem_singleton.mp hnew
      exact hrc (hver hacc).1

/-- A number that is accepted and not smaller is the new result. -/
theorem QueryState.take (h : QueryState map baseOpc seen highVer rcTmp rc) (hacc : map.Accepts baseOpc ver)
    (hle : highVer ≤ ver) : QueryState map baseOpc (seen ++ [ver]) ver 0 0 := by
  refine .found ⟨⟨mem_append_right _ (mem_singleton_self ver), hacc⟩, ?_⟩
  rintro v ⟨hv, hv'⟩
  rcases mem_append.mp hv with hold | hnew
  · cases h with
    | found h => exact UInt32.le_trans (h.2 ⟨hold, hv'⟩) hle
    | missing _ _ h => exact absurd hv' (h v hold)
  · obtain rfl := mem_singleton.mp hnew
    exact UInt32.le_refl v

theorem protoQueryLoop_spec (vers : List UInt32) :
    ∀ {seen highVer rcTmp rc}, QueryState map baseOpc seen highVer rcTmp rc →
      QueryState map baseOpc (seen ++ vers) (map.protoQueryLoop baseOpc vers highVer rcTmp rc).1
        (map.protoQueryLoop baseOpc vers highVer rcTmp rc).2.1
        (map.protoQueryLoop baseOpc vers highVer rcTmp rc).2.2 := by
  induction vers with
  | nil =>
    intro seen highVer rcTmp rc h
    rw [append_nil]
    exact h
  | cons ver vers ih =>
    intro seen highVer rcTmp rc h
    rw [append_cons, protoQueryLoop]
    split
    · -- only after a result can a number be below `high_ver`
      rename_i hlt
      refine ih (h.skip ?_ fun _ => ?_)
      · intro hrc
        cases h with
        | found => exact absurd rfl hrc
        | missing _ htmp _ => exact htmp
      · cases h with
        | found => exact ⟨rfl, UInt32.le_of_lt hlt⟩
        | missing => exact absurd hlt (UInt32.not_lt.mpr (UInt32.zero_le))
    · rename_i hge
      dsimp only
      split
      · rename_i hrefused
        refine ih (h.skip (fun _ => hrefused) fun hacc => ?_)
        exact absurd ((map.crtProtoLookup_eq_zero_iff _).mpr hacc) hrefused
      · rename_i haccepted
        have hzero : map.crtProtoQueryLocal baseOpc ver = 0 := not_not.mp haccepted
        rw [if_pos (UInt32.not_lt.mp hge), hzero]
        exact ih (h.take ((map.crtProtoLookup_eq_zero_iff _).mp hzero) (UInt32.not_lt.mp hge))

/-- The answer is the largest requested number for which there are records, or an error
if there is none. -/
theorem crtHdlrProtoQuery_spec (map : CrtOpcMap) (baseOpc : UInt32) {vers : List UInt32}
    (hvers : vers ≠ []) : ∃ ver rc, map.crtHdlrProtoQuery baseOpc vers = some (ver, rc) ∧
      (rc = 0 ∧ IsGreatest {v | v ∈ vers ∧ map.Accepts baseOpc v} ver ∨
        rc ≠ 0 ∧ ∀ v ∈ vers, ¬ map.Accepts baseOpc v) := by
  have hstart : QueryState map baseOpc [] 0 (-derNonexist) (-derNonexist) :=
    .missing (by decide) (by decide) fun v hv => absurd hv not_mem_nil
  have hend := protoQueryLoop_spec vers hstart
  rw [nil_append] at hend
  rw [crtHdlrProtoQuery, if_neg hvers]
  generalize map.protoQueryLoop baseOpc vers 0 (-derNonexist) (-derNonexist) = r at hend
  obtain ⟨highVer, rcTmp, rc⟩ := r
  refine ⟨_, _, rfl, ?_⟩
  cases hend with
  | found h => exact .inl ⟨rfl, h⟩
  | missing hrc htmp h =>
    rw [if_pos hrc]
    exact .inr ⟨htmp, h⟩

end CrtOpcMap

end Cart
