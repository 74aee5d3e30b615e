/-
The binary heap (`gurt/heap.c`).

Every node knows its slot (`chn_idx`).  The two loops that repair the order carry a node
without storing it before they end; the loop invariants speak of the heap with this node
stored (`store`).

Main results: `dBinheapInsert_spec`, `dBinheapRemove_spec`.
-/
import Cart.Basic
import Cart.HeapOrder

open Equiv Function Option

namespace Cart

open HeapOrder

def dbhSize : ℕ := 512

def dbhPoison : ℕ := 0xdeadbeef

/-- What a triply indirect table can hold. -/
def dbhMax : ℕ := dbhSize + dbhSize ^ 2 + dbhSize ^ 3

/-- A heap of nodes `ν`.  `slots` is what `d_binheap_pointer` points to, and
`chnIdx` the index stored in a node. -/
structure DBinheap (ν : Type) where
  slots : ℕ → ν
  dBhNodesCnt : ℕ
  dBhHwm : ℕ
  chnIdx : ν → ℕ

/-- What can make an insertion fail: the memory for new slots, and
`hop_enter`. -/
structure HeapEnv where
  allocated : Bool
  enterRc : ℤ

namespace DBinheap

variable {ν : Type} [DecidableEq ν]

/-- `d_binheap_create_inplace` without preallocation. -/
def create (null : ν) : DBinheap ν := ⟨fun _ => null, 0, 0, fun _ => 0⟩

section

variable (cmp : ν → ν → Bool) (h : DBinheap ν) (e : ν)

/-- Stores a node in a slot: `e->chn_idx = i; *ptr = e`. -/
def store (i : ℕ) (e : ν) : DBinheap ν :=
  { h with slots := Function.update h.slots i e, chnIdx := Function.update h.chnIdx e i }

/-- As far as the number of slots is concerned. -/
def dBinheapGrow (allocated : Bool) (h : DBinheap ν) : Option (ℤ × DBinheap ν) :=
  if h.dBhHwm % dbhSize ≠ 0 then none
  else if dbhMax ≤ h.dBhHwm ∨ allocated = false then some (-derNomem, h)
  else some (0, { h with dBhHwm := h.dBhHwm + dbhSize })

/-- The loop of `d_binheap_bubble`: carries `e` upwards from slot `cur`.  The
first argument bounds the rounds. -/
def bubbleLoop (cmp : ν → ν → Bool) (e : ν) :
    ℕ → ℕ → Bool → DBinheap ν → Option (ℕ × Bool × DBinheap ν)
  | 0, cur, did, h => some (cur, did, h)
  | fuel + 1, cur, did, h =>
    if cur = 0 then some (cur, did, h)
    else
      let parentIdx := (cur - 1) / 2
      let parent := h.slots parentIdx
      if h.chnIdx parent ≠ parentIdx then none
      else if cmp parent e then some (cur, did, h)
      else bubbleLoop cmp e fuel parentIdx true (h.store cur parent)

/-- Whether `e` has moved. -/
def dBinheapBubble : Option (Bool × DBinheap ν) :=
  if h.slots (h.chnIdx e) ≠ e then none
  else (bubbleLoop cmp e (h.chnIdx e) (h.chnIdx e) false h).map fun (cur, did, h) =>
    (did, h.store cur e)

/-- The child that `d_binheap_sink` looks at: the second one, if there is one
that compares to the first. -/
def sinkChild (cur : ℕ) : ℕ :=
  if 2 * cur + 2 < h.dBhNodesCnt ∧ cmp (h.slots (2 * cur + 2)) (h.slots (2 * cur + 1)) = true then
    2 * cur + 2
  else 2 * cur + 1

/-- The loop of `d_binheap_sink`: carries `e` downwards from slot `cur`. -/
def sinkLoop (cmp : ν → ν → Bool) (e : ν) :
    ℕ → ℕ → Bool → DBinheap ν → Option (ℕ × Bool × DBinheap ν)
  | 0, cur, did, h => some (cur, did, h)
  | fuel + 1, cur, did, h =>
    if h.dBhNodesCnt ≤ cur ∨ h.dBhNodesCnt ≤ 2 * cur + 1 then some (cur, did, h)
    else
      let childIdx := h.sinkChild cmp cur
      let child := h.slots childIdx
      if h.chnIdx child ≠ childIdx then none
      else if cmp e child then some (cur, did, h)
      else sinkLoop cmp e fuel childIdx true (h.store cur child)

def dBinheapSink : Option (Bool × DBinheap ν) :=
  if h.slots (h.chnIdx e) ≠ e then none
  else (sinkLoop cmp e h.dBhNodesCnt (h.chnIdx e) false h).map fun (cur, did, h) =>
    (did, h.store cur e)

/-- The slot for one more node. -/
def growIfFull (allocated : Bool) (h : DBinheap ν) : Option (ℤ × DBinheap ν) :=
  if h.dBhNodesCnt = h.dBhHwm then h.dBinheapGrow allocated else some (0, h)

def dBinheapInsert (env : HeapEnv) (h : DBinheap ν) (e : ν) : Option (ℤ × DBinheap ν) :=
  if h.dBhHwm < h.dBhNodesCnt then none
  else (h.growIfFull env.allocated).bind fun (rc, h) =>
    if rc ≠ 0 then some (rc, h)
    else if env.enterRc ≠ 0 then some (env.enterRc, h)
    else
      (({ h.store h.dBhNodesCnt e with dBhNodesCnt := h.dBhNodesCnt + 1 } :
        DBinheap ν).dBinheapBubble cmp e).map fun (_, h) => (0, h)

/-- `last` takes the slot of the node that is removed. -/
def refill (cur : ℕ) (last : ν) : Option (DBinheap ν) :=
  ((h.store cur last).dBinheapBubble cmp last).bind fun (did, h) =>
    if did then some h else (h.dBinheapSink cmp last).map Prod.snd

/-- `d_binheap_remove_locked`. -/
def dBinheapRemove : Option (DBinheap ν) :=
  let cur := h.chnIdx e
  if cur = dbhPoison ∨ h.dBhNodesCnt ≤ cur ∨ h.slots cur ≠ e then none
  else
    let n := h.dBhNodesCnt - 1
    let last := h.slots n
    let h := { h with dBhNodesCnt := n }
    (if last = e then some h else h.refill cmp cur last).map fun h =>
      { h with chnIdx := Function.update h.chnIdx e dbhPoison }

def dBinheapRoot : Option ν :=
  if h.dBhNodesCnt = 0 then none else some (h.slots 0)

/-! ### Indices and contents -/

/-- Every node in the first `n` slots knows its slot. -/
def Indexed (n : ℕ) (h : DBinheap ν) : Prop := ∀ i, i < n → h.chnIdx (h.slots i) = i

/-- The node is in one of the slots in use. -/
def Contains (x : ν) : Prop := ∃ i, i < h.dBhNodesCnt ∧ h.slots i = x

instance (x : ν) : Decidable (h.Contains x) :=
  inferInstanceAs (Decidable (∃ i, i < h.dBhNodesCnt ∧ h.slots i = x))

end

/-- The indices are right and the slots in use have memory. -/
structure Wf (h : DBinheap ν) : Prop where
  indexed : h.Indexed h.dBhNodesCnt
  cnt_le : h.dBhNodesCnt ≤ h.dBhHwm
  hwm_mod : h.dBhHwm % dbhSize = 0
  hwm_le : h.dBhHwm ≤ dbhMax

variable {h : DBinheap ν} {n : ℕ} {e : ν}

omit [DecidableEq ν] in
theorem Wf.contains_iff (hwf : h.Wf) {x : ν} :
    h.Contains x ↔ h.chnIdx x < h.dBhNodesCnt ∧ h.slots (h.chnIdx x) = x := by
  constructor
  · rintro ⟨i, hi, rfl⟩
    rw [hwf.indexed i hi]
    exact ⟨hi, rfl⟩
  · rintro ⟨hlt, heq⟩
    exact ⟨_, hlt, heq⟩

/-- The carried node changes places with the one in slot `b`. -/
theorem Indexed.store_store {a b : ℕ} (hidx : (h.store a e).Indexed n) (ha : a < n) (hb : b < n)
    (hab : a ≠ b) : h.chnIdx (h.slots b) = b ∧ ((h.store a (h.slots b)).store b e).Indexed n ∧
      ((h.store a (h.slots b)).store b e).slots = (h.store a e).slots ∘ swap a b := by
  have hslot : ∀ i, i ≠ a → (h.store a e).slots i = h.slots i := fun i hi =>
    update_of_ne hi _ _
  have hself : (h.store a e).chnIdx e = a := update_self _ _ _
  -- a node in another slot is not the carried one
  have hne : ∀ i, i < n → i ≠ a → h.slots i ≠ e := by
    intro i hi hia heq
    have := hidx i hi
    rw [hslot i hia, heq, hself] at this
    exact hia this.symm
  have hidx' : ∀ i, i < n → i ≠ a → h.chnIdx (h.slots i) = i := by
    intro i hi hia
    have := hidx i hi
    rw [hslot i hia] at this
    simpa only [store, update_of_ne (hne i hi hia)] using this
  refine ⟨hidx' b hb hab.symm, ?_, ?_⟩
  · intro i hi
    simp only [store]
    by_cases hib : i = b
    · subst hib
      rw [update_self, update_self]
    · rw [update_of_ne hib]
      by_cases hia : i = a
      · subst hia
        rw [update_self, update_of_ne (hne b hb hab.symm), update_self]
      · have hxb : h.slots i ≠ h.slots b := by
          intro heq
          have := hidx' i hi hia
          rw [heq, hidx' b hb hab.symm] at this
          exact hib this.symm
        rw [update_of_ne hia, update_of_ne (hne i hi hia),
          update_of_ne hxb]
        exact hidx' i hi hia
  · funext i
    simp only [store, comp_apply]
    by_cases hib : i = b
    · subst hib
      rw [update_self, swap_apply_right, update_self]
    · rw [update_of_ne hib]
      by_cases hia : i = a
      · subst hia
        rw [update_self, swap_apply_left, update_of_ne hab.symm]
      · rw [update_of_ne hia, swap_apply_of_ne_of_ne hia hib,
          update_of_ne hia]

/-- `h'` holds the nodes of `h`, in other slots. -/
structure Rearranged (h h' : DBinheap ν) : Prop where
  cnt : h'.dBhNodesCnt = h.dBhNodesCnt
  hwm : h'.dBhHwm = h.dBhHwm
  indexed : h'.Indexed h.dBhNodesCnt
  contains : ∀ x, h'.Contains x ↔ h.Contains x

omit [DecidableEq ν] in
theorem Rearranged.refl (hidx : h.Indexed h.dBhNodesCnt) : Rearranged h h :=
  ⟨rfl, rfl, hidx, fun _ => Iff.rfl⟩

omit [DecidableEq ν] in
theorem Rearranged.trans {h₁ h₂ h₃ : DBinheap ν} (h₁₂ : Rearranged h₁ h₂)
    (h₂₃ : Rearranged h₂ h₃) : Rearranged h₁ h₃ :=
  ⟨h₂₃.cnt.trans h₁₂.cnt, h₂₃.hwm.trans h₁₂.hwm, h₁₂.cnt ▸ h₂₃.indexed,
    fun x => (h₂₃.contains x).trans (h₁₂.contains x)⟩

omit [DecidableEq ν] in
/-- Exchanging two slots in use does not change the contents. -/
theorem contains_of_swap {h h' : DBinheap ν} {a b : ℕ} (hcnt : h'.dBhNodesCnt = h.dBhNodesCnt)
    (ha : a < h.dBhNodesCnt) (hb : b < h.dBhNodesCnt)
    (hslots : h'.slots = h.slots ∘ swap a b) (x : ν) : h'.Contains x ↔ h.Contains x := by
  have hswap : ∀ i, i < h.dBhNodesCnt → swap a b i < h.dBhNodesCnt := by
    intro i hi
    by_cases hia : i = a
    · rwa [hia, swap_apply_left]
    · by_cases hib : i = b
      · rwa [hib, swap_apply_right]
      · rwa [swap_apply_of_ne_of_ne hia hib]
  constructor
  · rintro ⟨i, hi, rfl⟩
    exact ⟨_, hswap i (hcnt ▸ hi), by rw [hslots, comp_apply]⟩
  · rintro ⟨i, hi, rfl⟩
    refine ⟨swap a b i, hcnt ▸ hswap i hi, ?_⟩
    rw [hslots, comp_apply, swap_apply_self]

theorem rearranged_store {a b : ℕ} (hidx : (h.store a e).Indexed h.dBhNodesCnt)
    (ha : a < h.dBhNodesCnt) (hb : b < h.dBhNodesCnt) (hab : a ≠ b) :
    Rearranged (h.store a e) ((h.store a (h.slots b)).store b e) := by
  obtain ⟨_, hidx', hslots⟩ := hidx.store_store ha hb hab
  exact ⟨rfl, rfl, hidx', contains_of_swap rfl ha hb hslots⟩

/-! ### The loops -/

/-- The comparison follows the keys, in both directions. -/
structure Follows {K : Type} [Preorder K] (cmp : ν → ν → Bool) (key : ν → K) : Prop where
  le : ∀ a b, cmp a b = true → key a ≤ key b
  ge : ∀ a b, cmp a b = false → key b ≤ key a

section

variable {K : Type} [Preorder K] {cmp : ν → ν → Bool} {key : ν → K} (hcmp : Follows cmp key)

include hcmp

/-- **The loop of `d_binheap_bubble`** does not move the carried node, or puts everything in
order. -/
theorem bubbleLoop_spec (fuel : ℕ) : ∀ (cur : ℕ) (did : Bool) (h : DBinheap ν), cur ≤ fuel →
    cur < h.dBhNodesCnt → (h.store cur e).Indexed h.dBhNodesCnt →
    Around h.dBhNodesCnt (key ∘ (h.store cur e).slots) cur →
    ∃ cur' did' h', bubbleLoop cmp e fuel cur did h = some (cur', did', h') ∧
      Rearranged (h.store cur e) (h'.store cur' e) ∧
      (did' = did ∧ h'.store cur' e = h.store cur e ∧ Up (key ∘ (h.store cur e).slots) cur ∨
        did' = true ∧ Ordered h.dBhNodesCnt (key ∘ (h'.store cur' e).slots)) := by
  induction fuel with
  | zero =>
    intro cur did h hfuel _ hidx _
    refine ⟨cur, did, h, rfl, .refl hidx, .inl ⟨rfl, rfl, fun h0 => ?_⟩⟩
    omega
  | succ fuel ih =>
    intro cur did h hfuel hcur hidx har
    rw [bubbleLoop]
    by_cases h0 : cur = 0
    · rw [if_pos h0]
      refine ⟨cur, did, h, rfl, .refl hidx, .inl ⟨rfl, rfl, fun hpos => ?_⟩⟩
      omega
    · have hpos := Nat.pos_of_ne_zero h0
      have hp := par_lt hpos
      obtain ⟨hassert, hidx', hslots⟩ := hidx.store_store hcur (hp.trans hcur) hp.ne'
      have hkcur : (key ∘ (h.store cur e).slots) cur = key e := by
        simp only [store, comp_apply, update_self]
      have hkpar : (key ∘ (h.store cur e).slots) (par cur) = key (h.slots (par cur)) := by
        simp only [store, comp_apply, update_of_ne hp.ne]
      rw [if_neg h0]
      rw [← par, if_neg (not_not.mpr hassert)]
      split_ifs with hle
      · refine ⟨cur, did, h, rfl, .refl hidx, .inl ⟨rfl, rfl, fun _ => ?_⟩⟩
        rw [hkcur, hkpar]
        exact hcmp.le _ _ hle
      · rw [Bool.not_eq_true] at hle
        obtain ⟨har', hdown⟩ := har.swap_up hpos hcur (by
          rw [hkcur, hkpar]
          exact hcmp.ge _ _ hle)
        rw [comp_assoc, ← hslots] at har' hdown
        obtain ⟨cur', did', h', heq, hre, hor⟩ :=
          ih (par cur) true (h.store cur (h.slots (par cur))) (by omega) (hp.trans hcur) hidx' har'
        refine ⟨cur', did', h', heq,
          (rearranged_store hidx hcur (hp.trans hcur) hp.ne').trans hre, .inr ?_⟩
        rcases hor with ⟨hdid, hsame, hup⟩ | ⟨hdid, hord⟩
        · exact ⟨hdid, hsame ▸ har'.ordered hup hdown⟩
        · exact ⟨hdid, hord⟩

omit [DecidableEq ν] in
/-- The child that is looked at has the smaller key. -/
theorem sinkChild_spec (h : DBinheap ν) {cur : ℕ} (hchild : 2 * cur + 1 < h.dBhNodesCnt) :
    0 < h.sinkChild cmp cur ∧ par (h.sinkChild cmp cur) = cur ∧
      h.sinkChild cmp cur < h.dBhNodesCnt ∧
      ∀ i, 0 < i → i < h.dBhNodesCnt → par i = cur →
        key (h.slots (h.sinkChild cmp cur)) ≤ key (h.slots i) := by
  rw [sinkChild]
  split_ifs with h2
  · refine ⟨by omega, by rw [par]; omega, h2.1, fun i hi hn hpar => ?_⟩
    rcases (par_eq_iff hi).mp hpar with rfl | rfl
    · exact hcmp.le _ _ h2.2
    · exact le_rfl
  · refine ⟨by omega, by rw [par]; omega, hchild, fun i hi hn hpar => ?_⟩
    rcases (par_eq_iff hi).mp hpar with rfl | rfl
    · exact le_rfl
    · exact hcmp.ge _ _ (Bool.not_eq_true _ ▸ fun hle => h2 ⟨hn, hle⟩)

/-- **The loop of `d_binheap_sink`** puts a heap in order whose carried node is
in order with the one above. -/
theorem sinkLoop_spec (fuel : ℕ) : ∀ (cur : ℕ) (did : Bool) (h : DBinheap ν),
    h.dBhNodesCnt ≤ fuel + cur → cur < h.dBhNodesCnt →
    (h.store cur e).Indexed h.dBhNodesCnt →
    Around h.dBhNodesCnt (key ∘ (h.store cur e).slots) cur →
    Up (key ∘ (h.store cur e).slots) cur →
    ∃ cur' did' h', sinkLoop cmp e fuel cur did h = some (cur', did', h') ∧
      Rearranged (h.store cur e) (h'.store cur' e) ∧
      Ordered h.dBhNodesCnt (key ∘ (h'.store cur' e).slots) := by
  induction fuel with
  | zero =>
    intro cur did h hfuel hcur
    omega
  | succ fuel ih =>
    intro cur did h hfuel hcur hidx har hup
    rw [sinkLoop]
    by_cases hleaf : h.dBhNodesCnt ≤ 2 * cur + 1
    · rw [if_pos (.inr hleaf)]
      refine ⟨cur, did, h, rfl, .refl hidx, har.ordered hup fun i hi hn hpar => ?_⟩
      rcases (par_eq_iff hi).mp hpar with rfl | rfl <;> omega
    · rw [if_neg (by omega)]
      obtain ⟨hpos, hpar, hlt, hmin⟩ := sinkChild_spec hcmp h (show 2 * cur + 1 < h.dBhNodesCnt by omega)
      generalize h.sinkChild cmp cur = c at hpos hpar hlt hmin ⊢
      have hcc : cur < c := hpar ▸ par_lt hpos
      obtain ⟨hassert, hidx', hslots⟩ := hidx.store_store hcur hlt hcc.ne
      have hkcur : (key ∘ (h.store cur e).slots) cur = key e := by
        simp only [store, comp_apply, update_self]
      have hkother : ∀ i, i ≠ cur → (key ∘ (h.store cur e).slots) i = key (h.slots i) := by
        intro i hi
        simp only [store, comp_apply, update_of_ne hi]
      have hmin' : ∀ i, 0 < i → i < h.dBhNodesCnt → par i = cur →
          (key ∘ (h.store cur e).slots) c ≤ (key ∘ (h.store cur e).slots) i := by
        intro i hi hn hpi
        rw [hkother c hcc.ne', hkother i (hpi ▸ (par_lt hi).ne')]
        exact hmin i hi hn hpi
      rw [if_neg (not_not.mpr hassert)]
      split_ifs with hle
      · refine ⟨cur, did, h, rfl, .refl hidx, har.ordered hup fun i hi hn hpi => ?_⟩
        refine le_trans ?_ (hmin' i hi hn hpi)
        rw [hkcur, hkother c hcc.ne']
        exact hcmp.le _ _ hle
      · rw [Bool.not_eq_true] at hle
        obtain ⟨har', hup'⟩ := har.swap_down hpos hpar hmin' hlt (by
          rw [hkcur, hkother c hcc.ne']
          exact hcmp.ge _ _ hle)
        rw [comp_assoc, ← hslots] at har' hup'
        obtain ⟨cur', did', h', heq, hre, hord⟩ :=
          ih c true (h.store cur (h.slots c))
            (show h.dBhNodesCnt ≤ fuel + c by omega) hlt hidx' har' hup'
        exact ⟨cur', did', h', heq, (rearranged_store hidx hcur hlt hcc.ne).trans hre, hord⟩

omit hcmp in
theorem store_self (hslot : h.slots (h.chnIdx e) = e) : h.store (h.chnIdx e) e = h := by
  have h1 : update h.slots (h.chnIdx e) e = h.slots := by
    nth_rewrite 2 [← hslot]
    exact update_eq_self _ _
  rw [store, h1, update_eq_self]

section

variable (hidx : h.Indexed h.dBhNodesCnt) (hcur : h.chnIdx e < h.dBhNodesCnt)
  (hslot : h.slots (h.chnIdx e) = e) (har : Around h.dBhNodesCnt (key ∘ h.slots) (h.chnIdx e))

include hidx hcur hslot har

theorem dBinheapBubble_spec : ∃ did h', h.dBinheapBubble cmp e = some (did, h') ∧ Rearranged h h' ∧
      (did = false ∧ h' = h ∧ Up (key ∘ h.slots) (h.chnIdx e) ∨
        did = true ∧ Ordered h.dBhNodesCnt (key ∘ h'.slots)) := by
  have hstore := store_self hslot
  obtain ⟨cur', did', h', heq, hre, hor⟩ := bubbleLoop_spec hcmp (h.chnIdx e) (h.chnIdx e) false h
    le_rfl hcur (hstore.symm ▸ hidx) (hstore.symm ▸ har)
  rw [hstore] at hre hor
  refine ⟨did', h'.store cur' e, ?_, hre, hor⟩
  rw [dBinheapBubble, if_neg (not_not.mpr hslot), heq]
  rfl

theorem dBinheapSink_spec (hup : Up (key ∘ h.slots) (h.chnIdx e)) :
    ∃ did h', h.dBinheapSink cmp e = some (did, h') ∧ Rearranged h h' ∧
      Ordered h.dBhNodesCnt (key ∘ h'.slots) := by
  have hstore := store_self hslot
  obtain ⟨cur', did', h', heq, hre, hord⟩ := sinkLoop_spec hcmp h.dBhNodesCnt (h.chnIdx e) false h
    (Nat.le_add_right _ _) hcur (hstore.symm ▸ hidx) (hstore.symm ▸ har) (hstore.symm ▸ hup)
  rw [hstore] at hre
  refine ⟨did', h'.store cur' e, ?_, hre, hord⟩
  rw [dBinheapSink, if_neg (not_not.mpr hslot), heq]
  rfl

end

end

/-! ### Insertion and removal -/

/-- The heap is well formed and in order. -/
structure Inv {K : Type} [Preorder K] (key : ν → K) (h : DBinheap ν) : Prop extends Wf h where
  ordered : Ordered h.dBhNodesCnt (key ∘ h.slots)

section

variable {K : Type} [Preorder K] {cmp : ν → ν → Bool} {key : ν → K}

omit [DecidableEq ν] in
theorem Inv.congr {key' : ν → K} (hinv : h.Inv key)
    (heq : ∀ x, h.Contains x → key' x = key x) : h.Inv key' := by
  refine ⟨hinv.toWf, fun i hi hn => ?_⟩
  have hp := (par_lt hi).trans hn
  rw [comp_apply, comp_apply, heq _ ⟨_, hp, rfl⟩, heq _ ⟨_, hn, rfl⟩]
  exact hinv.ordered i hi hn

omit [DecidableEq ν] in
theorem Inv.root_le (hinv : h.Inv key) {r x : ν} (hr : h.dBinheapRoot = some r)
    (hx : h.Contains x) : key r ≤ key x := by
  obtain ⟨i, hi, rfl⟩ := hx
  rw [dBinheapRoot, if_neg (by omega)] at hr
  rw [← some.inj hr]
  exact hinv.ordered.root_le i hi

omit [DecidableEq ν] in
theorem contains_root {r : ν} (hr : h.dBinheapRoot = some r) : h.Contains r := by
  rw [dBinheapRoot] at hr
  split at hr
  · cases hr
  · rename_i hne
    exact ⟨0, Nat.pos_of_ne_zero hne, some.inj hr⟩

omit [DecidableEq ν] in
theorem not_contains_of_root (hr : h.dBinheapRoot = none) (x : ν) : ¬ h.Contains x := by
  rw [dBinheapRoot] at hr
  split at hr
  · rename_i h0
    rintro ⟨i, hi, _⟩
    omega
  · cases hr

omit [DecidableEq ν] in
theorem dBinheapGrow_frame {allocated : Bool} {rc : ℤ} {h' : DBinheap ν}
    (hgrow : h.dBinheapGrow allocated = some (rc, h')) :
    h'.slots = h.slots ∧ h'.dBhNodesCnt = h.dBhNodesCnt ∧ h'.chnIdx = h.chnIdx := by
  rw [dBinheapGrow] at hgrow
  by_cases hmod : h.dBhHwm % dbhSize ≠ 0
  · rw [if_pos hmod] at hgrow
    cases hgrow
  · rw [if_neg hmod] at hgrow
    split_ifs at hgrow with hfail
    · cases hgrow
      exact ⟨rfl, rfl, rfl⟩
    · cases hgrow
      exact ⟨rfl, rfl, rfl⟩

omit [DecidableEq ν] in
theorem Wf.grow (hwf : h.Wf) (allocated : Bool) :
    ∃ rc h', h.dBinheapGrow allocated = some (rc, h') ∧ h'.Wf ∧
      (rc = 0 → h'.dBhHwm = h.dBhHwm + dbhSize) := by
  rw [dBinheapGrow, if_neg (not_not.mpr hwf.hwm_mod)]
  split_ifs with hfail
  · exact ⟨_, h, rfl, hwf, fun h0 => absurd h0 (by decide)⟩
  · refine ⟨_, _, rfl, ⟨hwf.indexed, hwf.cnt_le.trans (Nat.le_add_right _ _), ?_, ?_⟩, fun _ => rfl⟩
    · rw [Nat.add_mod_right]
      exact hwf.hwm_mod
    · have hmod := hwf.hwm_mod
      simp only [not_or, not_le, dbhMax, dbhSize] at hfail hmod ⊢
      omega

omit [DecidableEq ν] in
theorem growIfFull_spec (hwf : h.Wf) (allocated : Bool) :
    ∃ rc h', h.growIfFull allocated = some (rc, h') ∧ h'.Wf ∧ h'.slots = h.slots ∧
      h'.dBhNodesCnt = h.dBhNodesCnt ∧ (rc = 0 → h'.dBhNodesCnt < h'.dBhHwm) := by
  rw [growIfFull]
  split_ifs with hfull
  · obtain ⟨rc, h', hgrow, hwf', hhwm⟩ := hwf.grow allocated
    obtain ⟨hslots, hcnt, _⟩ := dBinheapGrow_frame hgrow
    refine ⟨rc, h', hgrow, hwf', hslots, hcnt, fun h0 => ?_⟩
    rw [hcnt, hhwm h0, hfull, dbhSize]
    exact Nat.lt_add_of_pos_right (by decide)
  · exact ⟨0, h, rfl, hwf, rfl, rfl, fun _ => lt_of_le_of_ne hwf.cnt_le hfull⟩

variable (hcmp : Follows cmp key)

include hcmp

/-- Insertion once there is a slot. -/
theorem insert_bubble_spec (hinv : h.Inv key) (hspace : h.dBhNodesCnt < h.dBhHwm)
    (hnew : ¬ h.Contains e) :
    ∃ did h', ({ h.store h.dBhNodesCnt e with dBhNodesCnt := h.dBhNodesCnt + 1 } :
        DBinheap ν).dBinheapBubble cmp e = some (did, h') ∧ h'.Inv key ∧
      ∀ x, h'.Contains x ↔ x = e ∨ h.Contains x := by
  have hne : ∀ i, i < h.dBhNodesCnt → h.slots i ≠ e := fun i hi heq => hnew ⟨i, hi, heq⟩
  have hcontains : ∀ x, ({ h.store h.dBhNodesCnt e with dBhNodesCnt := h.dBhNodesCnt + 1 } :
      DBinheap ν).Contains x ↔ x = e ∨ h.Contains x := by
    intro x
    constructor
    · rintro ⟨i, hi, rfl⟩
      by_cases hic : i = h.dBhNodesCnt
      · left
        rw [hic]
        exact update_self _ _ _
      · have hlt : i < h.dBhNodesCnt := lt_of_le_of_ne (Nat.lt_succ_iff.mp hi) hic
        exact .inr ⟨i, hlt, (update_of_ne hic _ _).symm⟩
    · rintro (rfl | ⟨i, hi, rfl⟩)
      · exact ⟨_, Nat.lt_succ_self _, update_self _ _ _⟩
      · exact ⟨i, Nat.lt_succ_of_lt hi, update_of_ne hi.ne _ _⟩
  generalize hg : ({ h.store h.dBhNodesCnt e with dBhNodesCnt := h.dBhNodesCnt + 1 } :
    DBinheap ν) = g at hcontains ⊢
  have hcnt : g.dBhNodesCnt = h.dBhNodesCnt + 1 := hg ▸ rfl
  have hhwm : g.dBhHwm = h.dBhHwm := hg ▸ rfl
  have hslots : g.slots = update h.slots h.dBhNodesCnt e := hg ▸ rfl
  have hchn : g.chnIdx = update h.chnIdx e h.dBhNodesCnt := hg ▸ rfl
  have hchne : g.chnIdx e = h.dBhNodesCnt := by rw [hchn, update_self]
  have hidx : g.Indexed g.dBhNodesCnt := by
    intro i hi
    rw [hslots, hchn]
    by_cases hic : i = h.dBhNodesCnt
    · rw [hic, update_self, update_self]
    · rw [update_of_ne hic, update_of_ne (hne i (by omega))]
      exact hinv.indexed i (by omega)
  -- the new node is last, so that there is nothing below it
  have har : Around g.dBhNodesCnt (key ∘ g.slots) (g.chnIdx e) := by
    rw [hchne, hcnt]
    refine ⟨fun i hi hn hic hpc => ?_, fun _ i hi hn hpi => ?_⟩
    · rw [hslots, comp_apply, comp_apply, update_of_ne hic,
        update_of_ne hpc]
      exact hinv.ordered i hi (by omega)
    · have := par_lt hi
      omega
  obtain ⟨did, h', heq, hre, hor⟩ := dBinheapBubble_spec hcmp hidx (by omega)
    (by rw [hchne, hslots, update_self]) har
  refine ⟨did, h', heq, ⟨⟨hre.cnt ▸ hre.indexed, ?_, ?_, ?_⟩, ?_⟩, fun x => ?_⟩
  · rw [hre.cnt, hre.hwm, hcnt, hhwm]
    exact hspace
  · rw [hre.hwm, hhwm]
    exact hinv.hwm_mod
  · rw [hre.hwm, hhwm]
    exact hinv.hwm_le
  · rw [hre.cnt]
    rcases hor with ⟨_, rfl, hup⟩ | ⟨_, hord⟩
    · refine har.ordered hup fun i hi hn hpi => ?_
      have := par_lt hi
      omega
    · exact hord
  · exact (hre.contains x).trans (hcontains x)

/-- **`d_binheap_insert`** adds the node, or leaves the contents alone. -/
theorem dBinheapInsert_spec (hinv : h.Inv key) (hnew : ¬ h.Contains e) (env : HeapEnv) :
    ∃ rc h', h.dBinheapInsert cmp env e = some (rc, h') ∧ h'.Inv key ∧
      ∀ x, h'.Contains x ↔ rc = 0 ∧ x = e ∨ h.Contains x := by
  obtain ⟨rc, g, hgrow, hwf, hslots, hcnt, hspace⟩ := growIfFull_spec hinv.toWf env.allocated
  have hginv : g.Inv key := ⟨hwf, by rw [hcnt, hslots]; exact hinv.ordered⟩
  have hgcontains : ∀ x, g.Contains x ↔ h.Contains x := by
    intro x
    rw [Contains, Contains, hcnt, hslots]
  rw [dBinheapInsert, if_neg (not_lt.mpr hinv.cnt_le), hgrow, bind_some]
  dsimp only
  by_cases hrc : rc = 0
  · rw [if_neg (not_not.mpr hrc)]
    by_cases henter : env.enterRc = 0
    · rw [if_neg (not_not.mpr henter)]
      obtain ⟨did, h', heq, hinv', hcontains⟩ := insert_bubble_spec hcmp hginv (hspace hrc)
        (fun hc => hnew ((hgcontains e).mp hc))
      rw [heq]
      refine ⟨0, h', rfl, hinv', fun x => ?_⟩
      rw [hcontains, hgcontains]
      simp
    · rw [if_pos henter]
      exact ⟨_, g, rfl, hginv, fun x => by simp [hgcontains, henter]⟩
  · rw [if_pos hrc]
    exact ⟨_, g, rfl, hginv, fun x => by simp [hgcontains, hrc]⟩

/-- The last node takes the slot `cur`. -/
theorem refill_spec (hinv : h.Inv key) {cur : ℕ} (hcur : cur < h.dBhNodesCnt - 1) :
    ∃ h', ({ h with dBhNodesCnt := h.dBhNodesCnt - 1 } : DBinheap ν).refill cmp cur
        (h.slots (h.dBhNodesCnt - 1)) = some h' ∧ h'.Inv key ∧
      h'.dBhNodesCnt = h.dBhNodesCnt - 1 ∧
      ∀ x, h'.Contains x ↔ x ≠ h.slots cur ∧ h.Contains x := by
  -- `g` is the heap with the last node in the slot `cur`
  rw [refill]
  generalize hg : ({ h with dBhNodesCnt := h.dBhNodesCnt - 1 } : DBinheap ν).store cur
    (h.slots (h.dBhNodesCnt - 1)) = g
  generalize hlast : h.slots (h.dBhNodesCnt - 1) = last at hg
  have hcnt : g.dBhNodesCnt = h.dBhNodesCnt - 1 := hg ▸ rfl
  have hhwm : g.dBhHwm = h.dBhHwm := hg ▸ rfl
  have hslots : g.slots = update h.slots cur last := hg ▸ rfl
  have hchn : g.chnIdx = update h.chnIdx last cur := hg ▸ rfl
  have hchnl : g.chnIdx last = cur := by rw [hchn, update_self]
  have hchnlast : h.chnIdx last = h.dBhNodesCnt - 1 := by
    rw [← hlast]
    exact hinv.indexed _ (by omega)
  have hchncur : h.chnIdx (h.slots cur) = cur := hinv.indexed cur (by omega)
  have hidx : g.Indexed g.dBhNodesCnt := by
    intro i hi
    rw [hslots, hchn]
    by_cases hic : i = cur
    · rw [hic, update_self, update_self]
    · have hchni := hinv.indexed i (by omega)
      have hne : h.slots i ≠ last := fun heq => by
        rw [heq, hchnlast] at hchni
        omega
      rw [update_of_ne hic, update_of_ne hne, hchni]
  have har : Around g.dBhNodesCnt (key ∘ g.slots) (g.chnIdx last) := by
    rw [hchnl, hcnt]
    have hord : Ordered (h.dBhNodesCnt - 1) (key ∘ h.slots) := fun i hi hn =>
      hinv.ordered i hi (by omega)
    refine (hord.around hcur).congr (fun i _ hic => ?_) hcur
    rw [hslots, comp_apply, comp_apply, update_of_ne hic]
  have hcontains : ∀ x, g.Contains x ↔ x ≠ h.slots cur ∧ h.Contains x := by
    intro x
    constructor
    · rintro ⟨i, hi, rfl⟩
      rw [hslots]
      by_cases hic : i = cur
      · rw [hic, update_self]
        refine ⟨fun heq => ?_, ⟨_, (by omega), hlast⟩⟩
        rw [heq, hchncur] at hchnlast
        omega
      · rw [update_of_ne hic]
        refine ⟨fun heq => ?_, ⟨i, (by omega), rfl⟩⟩
        have hchni := hinv.indexed i (by omega)
        rw [heq, hchncur] at hchni
        exact hic hchni.symm
    · rintro ⟨hx, i, hi, rfl⟩
      by_cases hil : i = h.dBhNodesCnt - 1
      · refine ⟨cur, by omega, ?_⟩
        rw [hslots, update_self, hil, hlast]
      · refine ⟨i, by omega, ?_⟩
        rw [hslots, update_of_ne (fun hic : i = cur => hx (by rw [hic]))]
  have hslotl : g.slots (g.chnIdx last) = last := by rw [hchnl, hslots, update_self]
  obtain ⟨did, g', hbubble, hre, hor⟩ :=
    dBinheapBubble_spec hcmp hidx (by omega) hslotl har
  -- either it has moved up and all is well, or it may have to move down
  obtain ⟨h', heq, hre', hord⟩ : ∃ h', (if did = true then some g'
      else (g'.dBinheapSink cmp last).map Prod.snd) = some h' ∧ Rearranged g h' ∧
      Ordered g.dBhNodesCnt (key ∘ h'.slots) := by
    rcases hor with ⟨rfl, rfl, hup⟩ | ⟨rfl, hord⟩
    · obtain ⟨did', h', hsink, hre', hord⟩ :=
        dBinheapSink_spec hcmp hidx (by omega) hslotl har hup
      exact ⟨h', by rw [if_neg Bool.false_ne_true, hsink]; rfl, hre', hord⟩
    · exact ⟨g', by rw [if_pos rfl], hre, hord⟩
  refine ⟨h', by rw [hbubble]; exact heq, ⟨⟨hre'.cnt ▸ hre'.indexed, ?_, ?_, ?_⟩, ?_⟩,
    hre'.cnt.trans hcnt, fun x => (hre'.contains x).trans (hcontains x)⟩
  · have := hinv.cnt_le
    rw [hre'.cnt, hre'.hwm, hcnt, hhwm]
    omega
  · rw [hre'.hwm, hhwm]
    exact hinv.hwm_mod
  · rw [hre'.hwm, hhwm]
    exact hinv.hwm_le
  · rw [hre'.cnt]
    exact hord

/-- **`d_binheap_remove`** takes out the node, and nothing else. -/
theorem dBinheapRemove_spec (hinv : h.Inv key) (he : h.Contains e) :
    ∃ h', h.dBinheapRemove cmp e = some h' ∧ h'.Inv key ∧
      h'.dBhNodesCnt = h.dBhNodesCnt - 1 ∧ ∀ x, h'.Contains x ↔ x ≠ e ∧ h.Contains x := by
  obtain ⟨hlt, hslot⟩ := hinv.contains_iff.mp he
  have hpoison : h.chnIdx e ≠ dbhPoison := by
    have := hinv.cnt_le
    have := hinv.hwm_le
    simp only [dbhMax, dbhSize, dbhPoison] at *
    omega
  -- poisoning the index of a node that is not there does no harm
  have hpoisoned : ∀ g : DBinheap ν, g.Inv key → ¬ g.Contains e →
      ({ g with chnIdx := update g.chnIdx e dbhPoison } : DBinheap ν).Inv key := by
    intro g hg hne
    refine ⟨⟨fun i hi => ?_, hg.cnt_le, hg.hwm_mod, hg.hwm_le⟩, hg.ordered⟩
    exact (update_of_ne (fun heq => hne ⟨i, hi, heq⟩) _ _).trans (hg.indexed i hi)
  rw [dBinheapRemove]
  dsimp only
  rw [if_neg (by simp [hpoison, hslot, hlt])]
  by_cases hlast : h.slots (h.dBhNodesCnt - 1) = e
  · have hidx : h.chnIdx e = h.dBhNodesCnt - 1 := by
      rw [← hlast]
      exact hinv.indexed _ (by omega)
    have hcontains : ∀ x, ({ h with dBhNodesCnt := h.dBhNodesCnt - 1 } : DBinheap ν).Contains x ↔
        x ≠ e ∧ h.Contains x := by
      intro x
      constructor
      · rintro ⟨i, hi, rfl⟩
        have hi' : i < h.dBhNodesCnt - 1 := hi
        refine ⟨fun heq => ?_, ⟨i, by omega, rfl⟩⟩
        have hchni := hinv.indexed i (by omega)
        rw [show h.slots i = e from heq, hidx] at hchni
        omega
      · rintro ⟨hx, i, hi, rfl⟩
        refine ⟨i, show i < h.dBhNodesCnt - 1 from ?_, rfl⟩
        have : i ≠ h.dBhNodesCnt - 1 := fun heq => hx (heq ▸ hlast)
        omega
    have hinv' : ({ h with dBhNodesCnt := h.dBhNodesCnt - 1 } : DBinheap ν).Inv key := by
      have := hinv.cnt_le
      exact ⟨⟨fun i hi => hinv.indexed i (show i < h.dBhNodesCnt by
          have : i < h.dBhNodesCnt - 1 := hi
          omega), show h.dBhNodesCnt - 1 ≤ h.dBhHwm by omega, hinv.hwm_mod, hinv.hwm_le⟩,
        fun i hi hn => hinv.ordered i hi (by
          have : i < h.dBhNodesCnt - 1 := hn
          omega)⟩
    rw [if_pos hlast]
    exact ⟨_, rfl, hpoisoned _ hinv' fun hc => ((hcontains e).mp hc).1 rfl, rfl, hcontains⟩
  · have hcur : h.chnIdx e < h.dBhNodesCnt - 1 := by
      have : h.chnIdx e ≠ h.dBhNodesCnt - 1 := fun heq => hlast (heq ▸ hslot)
      omega
    obtain ⟨h', heq, hinv', hcnt, hcontains⟩ := refill_spec hcmp hinv hcur
    rw [hslot] at hcontains
    rw [if_neg hlast, heq]
    exact ⟨_, rfl, hpoisoned _ hinv' fun hc => ((hcontains e).mp hc).1 rfl, hcnt, hcontains⟩

end

end DBinheap

end Cart
