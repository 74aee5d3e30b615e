/-
The storage of the binary heap over its whole life (`gurt/heap.c`).

`d_binheap_destroy_inplace` takes the places of the tree away from the leaves upwards, so that
what is left is a tree all the time.

Main results: `heap_storage_refines`, `binheap_storage_sound`.
-/
import Cart.BinheapStore
import Cart.Lts

open Function Option

namespace Cart

open BlockMemory

variable {addr : Place → ℕ} {ν : Type}

namespace HeapStore

variable {s s' : HeapStore ν} {U : Place → Prop} {w : Walk ν} {idx : ℕ}

/-! ### Destruction -/

theorem freeCell_spec {d p : Place} {i : ℕ} (h : Laid U addr w.mem) (hc : HasCell d i p) (hp : U p)
    (hempty : ∀ i q, HasCell p i q → ¬ U q) :
    ∃ w', freeCell (addr d) i w = some w' ∧ Laid (fun q => U q ∧ q ≠ p) addr w'.mem ∧
      ∀ m, Freed m w → Freed m w' := by
  obtain ⟨hd, hread⟩ := h.cell d i p hc hp
  have hfree : w.free (some (addr p)) = some ⟨free (addr p) w.mem, w.freed ++ [addr p]⟩ :=
    if_pos (h.isSome hp)
  have hlive : (free (addr p) w.mem (addr d)).isSome = true := by
    rw [free_of_ne]
    · exact h.isSome hd
    · intro heq
      obtain rfl := h.inj d p hd hp heq
      exact hempty i d hc hp
  refine ⟨⟨setCell (free (addr p) w.mem) (addr d) i .null, w.freed ++ [addr p]⟩, ?_,
    h.dropChild hc hp hempty, fun m hm => (hm.free hfree).setCell _ _ _⟩
  rw [freeCell, hread]
  dsimp only
  rw [hfree, bind_some, write_of_isSome hc.lt hlive, map_some]

/-- The loop over a directory of fragments frees those of them that are there. -/
theorem freeLoop_spec {d : Place} {p : ℕ → Place} (hcell : ∀ i, i < dbhSize → HasCell d i (p i))
    (hleaf : ∀ i k q, ¬ HasCell (p i) k q) (fuel : ℕ) :
    ∀ (i n : ℕ) (U : Place → Prop) (w : Walk ν), i + fuel = dbhSize → n % dbhSize = 0 →
      Laid U addr w.mem → (∀ k, i ≤ k → k < dbhSize → (U (p k) ↔ dbhSize * (k - i) < n)) →
      ∃ w', freeLoop (addr d) fuel i n w = some (n - dbhSize * fuel, w') ∧
        Laid (fun q => U q ∧ ∀ k, i ≤ k → k < dbhSize → q ≠ p k) addr w'.mem ∧
        ∀ m, Freed m w → Freed m w' := by
  induction fuel with
  | zero =>
    intro i n U w hi _ h _
    refine ⟨w, rfl, h.congr fun q => and_iff_left fun k hik hk => ?_, fun m hm => hm⟩
    omega
  | succ fuel ih =>
    intro i n U w hi hmod h hU
    have hi' : i < dbhSize := by omega
    rw [freeLoop]
    by_cases hn : 0 < n
    · have hp : U (p i) := (hU i le_rfl hi').mpr (by rwa [Nat.sub_self, mul_zero])
      obtain ⟨w₁, heq, h₁, hfreed⟩ := freeCell_spec h (hcell i hi') hp fun k q hc => absurd hc (hleaf i k q)
      have hdiff : ∀ k, i < k → k < dbhSize → p k ≠ p i := by
        intro k hik hk hpk
        have := (hcell k hk).cell_eq (hpk ▸ hcell i hi')
        omega
      have hU' : ∀ k, i + 1 ≤ k → k < dbhSize →
          (U (p k) ∧ p k ≠ p i ↔ dbhSize * (k - (i + 1)) < n - dbhSize) := by
        intro k hik hk
        rw [and_iff_left (hdiff k hik hk), hU k (by omega) hk]
        simp only [dbhSize] at *
        omega
      have hmod' : (n - dbhSize) % dbhSize = 0 := by
        simp only [dbhSize] at *
        omega
      obtain ⟨w', heq', h', hfreed'⟩ := ih (i + 1) (n - dbhSize) _ w₁ (by omega) hmod' h₁ hU'
      refine ⟨w', ?_, h'.congr fun q => ?_, fun m hm => hfreed' m (hfreed m hm)⟩
      · rw [if_pos ⟨hi', hn⟩, heq, bind_some, heq', Nat.sub_sub, mul_add, mul_one,
          add_comm dbhSize]
      · constructor
        · rintro ⟨hq, hall⟩
          exact ⟨⟨hq, hall i le_rfl hi'⟩, fun k hik hk => hall k (by omega) hk⟩
        · rintro ⟨⟨hq, hqi⟩, hall⟩
          refine ⟨hq, fun k hik hk => ?_⟩
          rcases Nat.eq_or_lt_of_le hik with rfl | hlt
          · exact hqi
          · exact hall k hlt hk
    · -- the fragments end here
      rw [if_neg fun hc => hn hc.2]
      refine ⟨w, by rw [show n = 0 by omega, Nat.zero_sub], h.congr fun q => ?_, fun m hm => hm⟩
      refine and_iff_left_of_imp fun hq k hik hk => ?_
      rintro rfl
      have := (hU k hik hk).mp hq
      omega

/-- The place of a fragment in the triple indirect. -/
def leaf3 (m k : ℕ) : Place := .leaf (dbhSize + 1 + dbhSize * m + k)

open Place

/-- The loop over the directories of the triple indirect. -/
theorem freeLoop3_spec (fuel : ℕ) :
    ∀ (i n : ℕ) (U : Place → Prop) (w : Walk ν), i + fuel = dbhSize → n % dbhSize = 0 →
      Laid U addr w.mem →
      (∀ m, i ≤ m → m < dbhSize → (U (.mid m) ↔ dbhSize * dbhSize * (m - i) < n)) →
      (∀ m k, i ≤ m → m < dbhSize → k < dbhSize →
        (U (leaf3 m k) ↔ dbhSize * dbhSize * (m - i) + dbhSize * k < n)) →
      ∃ n' w', freeLoop3 (addr .dir3) fuel i n w = some (n', w') ∧
        Laid (fun q => U q ∧ ∀ m, i ≤ m → m < dbhSize →
          q ≠ .mid m ∧ ∀ k, k < dbhSize → q ≠ leaf3 m k) addr w'.mem ∧
        ∀ m, Freed m w → Freed m w' := by
  induction fuel with
  | zero =>
    intro i n U w hi _ h _ _
    refine ⟨n, w, rfl, h.congr fun q => and_iff_left fun m him hm => ?_, fun m hm => hm⟩
    omega
  | succ fuel ih =>
    intro i n U w hi hmod h hmid hleaf
    have hi' : i < dbhSize := by omega
    rw [freeLoop3]
    by_cases hn : 0 < n
    · have hp : U (.mid i) := (hmid i le_rfl hi').mpr (by rwa [Nat.sub_self, mul_zero])
      have hread := (h.cell _ _ _ (.triple hi') hp).2
      -- first the fragments of the directory, then the directory
      obtain ⟨w₁, heq₁, h₁, hfreed₁⟩ := freeLoop_spec (p := leaf3 i) (fun k hk => .middle i hk)
        (fun _ _ _ => HasCell.not_leaf) dbhSize 0 n U w (zero_add _) hmod h fun k _ hk => by
          rw [hleaf i k le_rfl hi' hk, Nat.sub_self, mul_zero, zero_add, Nat.sub_zero]
      obtain ⟨w₂, heq₂, h₂, hfreed₂⟩ := freeCell_spec h₁ (.triple hi')
        ⟨hp, fun k _ _ hc => by cases hc⟩ fun k q hc hq => by
          cases hc with
          | middle _ hk => exact hq.2 k (Nat.zero_le k) hk rfl
      have hmid' : ∀ m, i + 1 ≤ m → m < dbhSize →
          (((U (.mid m) ∧ ∀ k, 0 ≤ k → k < dbhSize → mid m ≠ leaf3 i k) ∧
            mid m ≠ .mid i) ↔
              dbhSize * dbhSize * (m - (i + 1)) < n - dbhSize * dbhSize) := by
        intro m him hm
        have hne : mid m ≠ .mid i := fun hc => by
          have := mid.inj hc
          omega
        rw [and_iff_left hne, and_iff_left (fun k _ _ hc => by cases hc), hmid m (by omega) hm]
        simp only [dbhSize] at *
        omega
      have hleaf' : ∀ m k, i + 1 ≤ m → m < dbhSize → k < dbhSize →
          (((U (leaf3 m k) ∧ ∀ k', 0 ≤ k' → k' < dbhSize → leaf3 m k ≠ leaf3 i k') ∧
            leaf3 m k ≠ .mid i) ↔
              dbhSize * dbhSize * (m - (i + 1)) + dbhSize * k < n - dbhSize * dbhSize) := by
        intro m k him hm hk
        have hne : ∀ k', 0 ≤ k' → k' < dbhSize → leaf3 m k ≠ leaf3 i k' := fun k' _ hk' hc => by
          have := leaf.inj hc
          simp only [dbhSize] at *
          omega
        rw [and_iff_left (fun hc => by cases hc), and_iff_left hne, hleaf m k (by omega) hm hk]
        simp only [dbhSize] at *
        omega
      have hmod' : (n - dbhSize * dbhSize) % dbhSize = 0 := by
        simp only [dbhSize] at *
        omega
      obtain ⟨n', w', heq', h', hfreed'⟩ :=
        ih (i + 1) (n - dbhSize * dbhSize) _ w₂ (by omega) hmod' h₂ hmid' hleaf'
      refine ⟨n', w', ?_, h'.congr fun q => ?_,
        fun m hm => hfreed' m (hfreed₂ m (hfreed₁ m hm))⟩
      · rw [if_pos ⟨hi', hn⟩, readBlock_of_read hread, bind_some, heq₁, bind_some]
        dsimp only
        rw [heq₂, bind_some, heq']
      · constructor
        · rintro ⟨hq, hall⟩
          exact ⟨⟨⟨hq, fun k _ hk => (hall i le_rfl hi').2 k hk⟩, (hall i le_rfl hi').1⟩,
            fun m him hm => hall m (by omega) hm⟩
        · rintro ⟨⟨⟨hq, hqi⟩, hqm⟩, hall⟩
          refine ⟨hq, fun m him hm => ?_⟩
          rcases Nat.eq_or_lt_of_le him with rfl | hlt
          · exact ⟨hqm, fun k hk => hqi k (Nat.zero_le k) hk⟩
          · exact hall m hlt hm
    · rw [if_neg fun hc => hn hc.2]
      refine ⟨n, w, rfl, h.congr fun q => ?_, fun m hm => hm⟩
      refine and_iff_left_of_imp fun hq m him hm => ⟨?_, fun k hk => ?_⟩
      · rintro rfl
        have := (hmid m him hm).mp hq
        omega
      · rintro rfl
        have := (hleaf m k him hm hk).mp hq
        omega

theorem freeRoot_spec {p : Place} (h : Laid U addr w.mem) (hp : U p)
    (hno : ∀ d i, ¬ HasCell d i p) (hempty : ∀ i q, HasCell p i q → ¬ U q) :
    ∃ w', w.free (some (addr p)) = some w' ∧ Laid (fun q => U q ∧ q ≠ p) addr w'.mem ∧
      ∀ m, Freed m w → Freed m w' := by
  have heq : w.free (some (addr p)) = some ⟨free (addr p) w.mem, w.freed ++ [addr p]⟩ :=
    if_pos (h.isSome hp)
  exact ⟨_, heq, h.dropRoot hp hempty hno, fun m hm => hm.free heq⟩

section

variable (h : s.Wf addr)

include h

theorem Wf.destroy2_spec {n : ℕ} (hn : s.dBhHwm = n + dbhSize)
    (hlaid : Laid (fun q => Used s.dBhHwm q ∧ q ≠ .leaf 0) addr w.mem) :
    ∃ w', s.destroy2 n w = some (n - dbhSize * dbhSize, w') ∧
      Laid (fun q => Used s.dBhHwm q ∧
        q ≠ .leaf 0 ∧ q ≠ .dir2 ∧ ∀ k, k < dbhSize → q ≠ .leaf (k + 1)) addr w'.mem ∧
      ∀ m, Freed m w → Freed m w' := by
  have hmod : n % dbhSize = 0 := by
    have := h.hwm_mod
    rwa [hn, Nat.add_mod_right] at this
  rw [destroy2]
  by_cases h0 : 0 < n
  · have hdir : Used s.dBhHwm .dir2 := show dbhSize < s.dBhHwm by omega
    rw [if_pos h0, h.nodes2 hdir, bind_some]
    obtain ⟨w₁, heq₁, h₁, hfreed₁⟩ := freeLoop_spec (p := fun k => .leaf (k + 1))
      (fun k hk => .double hk) (fun _ _ _ => HasCell.not_leaf) dbhSize 0 n _ w (zero_add _) hmod
      hlaid fun k _ _ => by
        rw [and_iff_left (fun hc => by cases hc), Used, hn, Nat.sub_zero]
        rw [dbhSize]
        omega
    obtain ⟨w₂, heq₂, h₂, hfreed₂⟩ := freeRoot_spec (p := .dir2) h₁
      ⟨⟨hdir, fun hc => by cases hc⟩, fun k _ _ hc => by cases hc⟩ (fun d i hc => by cases hc)
      fun i q hc hq => by
        cases hc with
        | double hi => exact hq.2 i (Nat.zero_le i) hi rfl
    refine ⟨w₂, ?_, h₂.congr fun q => ?_, fun m hm => hfreed₂ m (hfreed₁ m hm)⟩
    · rw [heq₁, bind_some]
      dsimp only
      rw [heq₂, map_some]
    · constructor
      · rintro ⟨hq, hq0, hq2, hall⟩
        exact ⟨⟨⟨hq, hq0⟩, fun k _ hk => hall k hk⟩, hq2⟩
      · rintro ⟨⟨⟨hq, hq0⟩, hall⟩, hq2⟩
        exact ⟨hq, hq0, hq2, fun k hk => hall k (Nat.zero_le k) hk⟩
  · -- there was no more than the first fragment
    rw [if_neg h0]
    refine ⟨w, by rw [show n = 0 by omega, Nat.zero_sub], hlaid.congr fun q => ?_, fun m hm => hm⟩
    constructor
    · rintro ⟨hq, hq0, -⟩
      exact ⟨hq, hq0⟩
    · rintro ⟨hq, hq0⟩
      refine ⟨hq, hq0, ?_, fun k hk => ?_⟩
      · rintro rfl
        simp only [Used] at hq
        omega
      · rintro rfl
        simp only [Used, dbhSize] at *
        omega

/-- The loop over the triple indirect, and its directory: nothing is left. -/
theorem Wf.destroy3_spec {n : ℕ} (hn : n = s.dBhHwm - dbhSize - dbhSize * dbhSize)
    (hlaid : Laid (fun q => Used s.dBhHwm q ∧
        q ≠ .leaf 0 ∧ q ≠ .dir2 ∧ ∀ k, k < dbhSize → q ≠ .leaf (k + 1)) addr w.mem) :
    ∃ n' w', s.destroy3 n w = some (n', w') ∧ Laid (fun _ => False) addr w'.mem ∧
      ∀ m, Freed m w → Freed m w' := by
  have hmod : n % dbhSize = 0 := by
    have := h.hwm_mod
    simp only [dbhSize] at *
    omega
  rw [destroy3]
  by_cases h0 : 0 < n
  · have hdir : Used s.dBhHwm .dir3 := show dbhSize + dbhSize * dbhSize < s.dBhHwm by omega
    rw [if_pos h0, h.nodes3 hdir, bind_some]
    obtain ⟨n', w₁, heq₁, h₁, hfreed₁⟩ := freeLoop3_spec dbhSize 0 n _ w (zero_add _) hmod hlaid
      (fun m _ hm => by
        rw [and_iff_left ⟨fun hc => (by cases hc), fun hc => (by cases hc), fun k _ hc => (by cases hc)⟩]
        simp only [Used, dbhSize] at *
        omega)
      (fun m k _ hm hk => by
        rw [and_iff_left]
        · simp only [leaf3, Used, dbhSize] at *
          omega
        · refine ⟨fun hc => ?_, fun hc => (by cases hc), fun k' hk' hc => ?_⟩
          · have := leaf.inj hc
            omega
          · have := leaf.inj hc
            omega)
    obtain ⟨w₂, heq₂, h₂, hfreed₂⟩ := freeRoot_spec (p := .dir3) h₁
      ⟨⟨hdir, fun hc => (by cases hc), fun hc => (by cases hc), fun k _ hc => (by cases hc)⟩,
        fun m _ _ => ⟨fun hc => (by cases hc), fun k _ hc => (by cases hc)⟩⟩
      (fun d i hc => by cases hc) fun i q hc hq => by
        cases hc with
        | triple hm => exact (hq.2 i (Nat.zero_le i) hm).1 rfl
    refine ⟨n', w₂, ?_, h₂.congr fun q => iff_of_false id ?_, fun m hm => hfreed₂ m (hfreed₁ m hm)⟩
    · rw [heq₁, bind_some]
      dsimp only
      rw [heq₂, map_some]
    · rintro ⟨⟨⟨hq, hq0, hq2, hlow⟩, hall⟩, hq3⟩
      have hmax := h.hwm_le
      cases q with
      | dir2 => exact hq2 rfl
      | dir3 => exact hq3 rfl
      | mid m =>
        refine (hall m (Nat.zero_le m) ?_).1 rfl
        simp only [Used, dbhMax, dbhSize] at *
        omega
      | leaf j =>
        by_cases hj : j ≤ dbhSize
        · rcases eq_zero_or_pos j with rfl | hpos
          · exact hq0 rfl
          · exact hlow (j - 1) (by omega) (congrArg leaf (by omega))
        · -- `j` counts on from the end of the double indirect
          refine (hall ((j - dbhSize - 1) / dbhSize) (Nat.zero_le _) ?_).2
            ((j - dbhSize - 1) % dbhSize) (Nat.mod_lt _ (by decide)) (congrArg leaf ?_)
          · simp only [Used, dbhMax, dbhSize] at *
            omega
          · simp only [dbhSize] at *
            omega
  · rw [if_neg h0]
    refine ⟨n, w, rfl, hlaid.congr fun q => iff_of_false id ?_, fun m hm => hm⟩
    rintro ⟨hq, hq0, hq2, hlow⟩
    cases q with
    | dir2 => exact hq2 rfl
    | dir3 | mid m =>
      simp only [Used] at hq
      omega
    | leaf j =>
      rcases eq_zero_or_pos j with rfl | hpos
      · exact hq0 rfl
      · refine hlow (j - 1) ?_ (congrArg leaf (by omega))
        simp only [Used, dbhSize] at *
        omega

/-- **`d_binheap_destroy_inplace`** frees every block once. -/
theorem Wf.destroy_spec :
    ∃ w, s.dBinheapDestroyInplace = some w ∧ Freed s.mem w ∧ ∀ a, w.mem a = none := by
  have hnone : ∀ w : Walk ν, Laid (fun _ => False) addr w.mem → ∀ a, w.mem a = none := by
    intro w hw a
    rw [← not_isSome_iff_eq_none, hw.live]
    rintro ⟨_, hc, _⟩
    exact hc
  rw [dBinheapDestroyInplace]
  by_cases h0 : 0 < s.dBhHwm
  · have hmod := h.hwm_mod
    have hn : s.dBhHwm = s.dBhHwm - dbhSize + dbhSize := by
      simp only [dbhSize] at *
      omega
    obtain ⟨w₁, heq₁, h₁, hfreed₁⟩ := freeRoot_spec (w := ⟨s.mem, []⟩) (p := .leaf 0) h.laid h0
      HasCell.not_root fun i q hc => absurd hc HasCell.not_leaf
    obtain ⟨w₂, heq₂, h₂, hfreed₂⟩ := h.destroy2_spec hn h₁
    obtain ⟨n, w₃, heq₃, h₃, hfreed₃⟩ := h.destroy3_spec rfl h₂
    rw [if_pos h0, h.nodes1 h0, heq₁, bind_some, heq₂, bind_some]
    dsimp only
    rw [heq₃, map_some]
    exact ⟨w₃, rfl, hfreed₃ _ (hfreed₂ _ (hfreed₁ _ (.start s.mem))), hnone w₃ h₃⟩
  · rw [if_neg h0]
    refine ⟨_, rfl, .start s.mem, hnone _ (h.laid.congr fun q => iff_of_false id ?_)⟩
    rw [show s.dBhHwm = 0 by omega]
    cases q <;> exact Nat.not_lt_zero _

/-! ### The slots -/

theorem Wf.load_eq (hidx : idx < s.dBhHwm) :
    s.load idx = read dbhSize s.mem (addr (.leaf (idx / dbhSize))) (idx % dbhSize) := by
  rw [load, h.dBinheapPointer_eq hidx, bind_some]

theorem Wf.load_isSome (hidx : idx < s.dBhHwm) : ∃ c, s.load idx = some c := by
  rw [h.load_eq hidx, BlockMemory.read, if_pos (Nat.mod_lt _ (by decide))]
  obtain ⟨b, hb⟩ := isSome_iff_exists.mp (h.laid.isSome (used_leaf hidx))
  exact ⟨_, by rw [hb, map_some]⟩

theorem Wf.dBinheapPointer_inj {i j : ℕ} (hi : i < s.dBhHwm) (hj : j < s.dBhHwm)
    (heq : s.dBinheapPointer i = s.dBinheapPointer j) : i = j := by
  rw [h.dBinheapPointer_eq hi, h.dBinheapPointer_eq hj, Option.some.injEq, Prod.mk.injEq] at heq
  have hdiv := leaf.inj (h.laid.inj _ _ (used_leaf hi) (used_leaf hj) heq.1)
  rw [← Nat.div_add_mod i dbhSize, ← Nat.div_add_mod j dbhSize, hdiv, heq.2]

/-- The slots that were there stay where they are, with what they hold. -/
theorem Wf.slot_of_grows {addr' : Place → ℕ} (h' : s'.Wf addr') (hhwm : s.dBhHwm ≤ s'.dBhHwm)
    (hgrows : Laid.Grows (Used s.dBhHwm) addr s.mem (Used s'.dBhHwm) addr' s'.mem)
    (hidx : idx < s.dBhHwm) :
    s'.dBinheapPointer idx = s.dBinheapPointer idx ∧ s'.load idx = s.load idx := by
  have hidx' := lt_of_lt_of_le hidx hhwm
  have hkeep := (hgrows.keep _ (used_leaf hidx)).2
  rw [h.dBinheapPointer_eq hidx, h'.dBinheapPointer_eq hidx', h.load_eq hidx, h'.load_eq hidx', hkeep]
  exact ⟨rfl, read_congr (hgrows.slots _ (used_leaf hidx))⟩

end

/-- A growth, failed or not, as seen through the slots. -/
theorem GrowResult.slots {rc : ℤ} (hres : GrowResult s addr rc s') (h : s.Wf addr) :
    (rc ≠ 0 → s'.dBhHwm = s.dBhHwm) ∧ (rc = 0 → s'.dBhHwm = s.dBhHwm + dbhSize) ∧
      ∀ idx, idx < s.dBhHwm →
        s'.dBinheapPointer idx = s.dBinheapPointer idx ∧ s'.load idx = s.load idx := by
  cases hres with
  | failed hhwm hmem hwf =>
    refine ⟨fun _ => hhwm, fun h0 => absurd h0 (by decide), fun idx hidx => ?_⟩
    have hidx' : idx < s'.dBhHwm := hhwm.symm ▸ hidx
    rw [hwf.load_eq hidx', h.load_eq hidx, hwf.dBinheapPointer_eq hidx', h.dBinheapPointer_eq hidx, hmem]
    exact ⟨rfl, rfl⟩
  | grown hhwm hwf hgrows =>
    exact ⟨fun h0 => absurd rfl h0, fun _ => hhwm, fun idx hidx =>
      h.slot_of_grows hwf (hhwm.symm ▸ Nat.le_add_right _ _) hgrows hidx⟩

theorem GrowResult.wf {rc : ℤ} (hres : GrowResult s addr rc s') : ∃ addr', s'.Wf addr' := by
  cases hres with
  | failed _ _ hwf | grown _ hwf _ => exact ⟨_, hwf⟩

/-- A store to a slot does not touch the tree. -/
theorem Wf.save (h : s.Wf addr) (hidx : idx < s.dBhHwm) (e : ν) :
    ∃ s', s.save idx e = some s' ∧ s'.Wf addr ∧ s'.dBhHwm = s.dBhHwm ∧
      ∀ i, i < s.dBhHwm → s'.load i = if i = idx then some (.item e) else s.load i := by
  have hoff : idx % dbhSize < dbhSize := Nat.mod_lt _ (by decide)
  have hlive := h.laid.isSome (used_leaf hidx)
  generalize hm : setCell s.mem (addr (.leaf (idx / dbhSize))) (idx % dbhSize) (.item e) = m
  have hread : ∀ d i p, HasCell d i p → Used s.dBhHwm d →
      read dbhSize m (addr d) i = read dbhSize s.mem (addr d) i := by
    intro d i p hc hd
    rw [← hm, read_setCell_of_ne (Or.inl fun heq => ?_)]
    exact hc.ne_leaf _ (h.laid.inj _ _ hd (used_leaf hidx) heq)
  have hlaid : Laid (Used s.dBhHwm) addr m := by
    refine ⟨h.laid.inj, fun a => ?_, fun d i p hc hp => ?_, fun d i p hc hd hp => ?_⟩
    · rw [← hm, isSome_setCell]
      exact h.laid.live a
    · obtain ⟨hd, hcell⟩ := h.laid.cell d i p hc hp
      exact ⟨hd, (hread d i p hc hd).trans hcell⟩
    · exact (hread d i p hc hd).trans (h.laid.null d i p hc hd hp)
  have hwf : ({ s with mem := m } : HeapStore ν).Wf addr :=
    ⟨h.hwm_mod, h.hwm_le, hlaid, h.nodes1, h.nodes2, h.nodes3⟩
  refine ⟨{ s with mem := m }, ?_, hwf, rfl, fun i hi => ?_⟩
  · rw [HeapStore.save, h.dBinheapPointer_eq hidx, bind_some, write_of_isSome hoff hlive, hm,
      map_some]
  · rw [hwf.load_eq hi]
    split_ifs with heq
    · rw [heq, ← hm, read_setCell_self hoff hlive]
    · rw [h.load_eq hi, ← hm, read_setCell_of_ne]
      by_contra hsame
      rw [not_or, not_not, not_not] at hsame
      refine heq (h.dBinheapPointer_inj hi hidx ?_)
      rw [h.dBinheapPointer_eq hi, h.dBinheapPointer_eq hidx, hsame.1, hsame.2]

/-! ### Runs -/

/-- What is done to the storage of a heap: a growth, with what the allocations
return, or a store to a slot. -/
inductive Event (ν : Type) where
  | grow (a b c : Option ℕ)
  | save (idx : ℕ) (e : ν)

end HeapStore

/-- The storage of a heap, from `d_binheap_create_inplace` on. -/
def heapStoreLts (ν : Type) : Lts (HeapStore ν) (HeapStore.Event ν) where
  init s := s.dBhHwm = 0 ∧ s.mem = fun _ => none
  enabled s e :=
    match e with
    | .grow a b c => HeapStore.Fresh a b c s.mem
    | .save idx _ => idx < s.dBhHwm
  step s e :=
    match e with
    | .grow a b c => (s.dBinheapGrow a b c).map Prod.snd
    | .save idx x => s.save idx x

namespace HeapStore

variable {s s' : HeapStore ν}

theorem Wf.step (h : s.Wf addr) {e : Event ν} (he : (heapStoreLts ν).enabled s e) :
    ∃ s', (heapStoreLts ν).step s e = some s' ∧ ∃ addr', s'.Wf addr' := by
  cases e with
  | grow a b c =>
    obtain ⟨rc, s', heq, hres⟩ := h.grow he
    refine ⟨s', ?_, hres.wf⟩
    show (s.dBinheapGrow a b c).map Prod.snd = some s'
    rw [heq, map_some]
  | save idx x =>
    obtain ⟨s', heq, hwf, _⟩ := h.save he x
    exact ⟨s', heq, addr, hwf⟩

theorem wf_invariant (ν : Type) : (heapStoreLts ν).Invariant fun s => ∃ addr, s.Wf addr := by
  refine ⟨?_, ?_⟩
  · rintro s ⟨h0, hmem⟩
    have hunused : ∀ p, ¬ Place.Used s.dBhHwm p := by
      intro p
      rw [h0]
      cases p <;> exact Nat.not_lt_zero _
    refine ⟨fun _ => 0, ⟨by rw [h0]; rfl, by rw [h0]; exact Nat.zero_le _, ⟨?_, ?_, ?_, ?_⟩, ?_, ?_, ?_⟩⟩
    · exact fun p q hp => absurd hp (hunused p)
    · intro a
      rw [hmem]
      refine iff_of_false Bool.false_ne_true ?_
      rintro ⟨p, hp, _⟩
      exact hunused p hp
    · exact fun d i p _ hp => absurd hp (hunused p)
    · exact fun d i p _ hd => absurd hd (hunused d)
    · exact fun hlt => absurd h0 hlt.ne'
    · exact fun hlt => absurd hlt (hunused .dir2)
    · exact fun hlt => absurd hlt (hunused .dir3)
  · rintro s e s' ⟨addr, h⟩ he hstep
    obtain ⟨t, heq, hwf⟩ := h.step he
    rw [hstep] at heq
    cases heq
    exact hwf

/-! ### The heap with numbered slots -/

/-- The store holds the nodes of the heap `h` in their slots. -/
structure Represents (s : HeapStore ν) (h : DBinheap ν) : Prop where
  hwm : s.dBhHwm = h.dBhHwm
  slots : ∀ i, i < h.dBhNodesCnt → s.load i = some (.item (h.slots i))

/-- Whether there is memory for a growth at this mark: for a fragment, for the directory of it if
it is the first there, and for the directory of directories. -/
def allocated (hwm : ℕ) (a b c : Option ℕ) : Bool :=
  a.isSome ∧ (hwm ≠ 0 ∧ (hwm - dbhSize) % (dbhSize * dbhSize) = 0 → b.isSome) ∧
    (hwm = dbhSize + dbhSize * dbhSize → c.isSome)

section

variable {hwm frag2 : ℕ} {a b c frag1 : Option ℕ} {rc : ℤ}

theorem rc_of_install2 {i : ℕ} (h : s.install2 i frag2 = some (rc, s')) : rc = 0 := by
  simp only [install2, bind_eq_some_iff, map_eq_some_iff, Prod.mk.injEq] at h
  grind

theorem rc_of_install3 (h : s.install3 frag1 hwm frag2 = some (rc, s')) : rc = 0 := by
  obtain ⟨nodes3, _, h⟩ := bind_eq_some_iff.mp h
  simp only [installFrag] at h
  split at h <;> grind [bind_eq_some_iff, map_eq_some_iff]

theorem rc_of_growDouble (h : s.growDouble hwm a b = some (rc, s')) :
    rc = 0 ↔ a.isSome ∧ (hwm = 0 → b.isSome) := by
  have hnomem : -derNomem ≠ 0 := by decide
  unfold growDouble at h
  grind [→ rc_of_install2]

theorem rc_of_growTriple (h : s.growTriple hwm a b c = some (rc, s')) :
    rc = 0 ↔ a.isSome ∧ ((hwm >>> dbhShift) &&& dbhMask = 0 → b.isSome) ∧ (hwm = 0 → c.isSome) := by
  have hnomem : -derNomem ≠ 0 := by decide
  have hzero : hwm = 0 → (hwm >>> dbhShift) &&& dbhMask = 0 := by
    rintro rfl
    rfl
  unfold growTriple at h
  grind [→ rc_of_install3]

/-- `d_binheap_grow` succeeds just if there is room and memory. -/
theorem rc_of_grow (hmod : s.dBhHwm % dbhSize = 0) (h : s.dBinheapGrow a b c = some (rc, s')) :
    rc = 0 ↔ s.dBhHwm < dbhMax ∧ allocated s.dBhHwm a b c = true := by
  have hnomem : -derNomem ≠ 0 := by decide
  unfold dBinheapGrow at h
  rw [and_dbhMask, if_neg (not_not.mpr hmod)] at h
  dsimp only at h
  have hmax : dbhMax = 134480384 := rfl
  have hsize : dbhSize = 512 := rfl
  rw [allocated, decide_eq_true_iff, hmax]
  split_ifs at h with h0 h2 h3
  · cases a with
    | none =>
      cases h
      simp [hnomem]
    | some frag2 =>
      cases h
      simp [h0, hsize]
  · rw [rc_of_growDouble h]
    rw [hsize] at hmod h2 ⊢
    have hroom : s.dBhHwm < 134480384 := by omega
    have hfirst : s.dBhHwm - 512 = 0 ↔ s.dBhHwm ≠ 0 ∧ (s.dBhHwm - 512) % (512 * 512) = 0 := by omega
    have hlast : s.dBhHwm ≠ 512 + 512 * 512 := by omega
    simp only [hroom, hfirst, hlast, true_and, false_imp_iff, and_true]
  · cases h
    rw [hsize] at h3
    exact iff_of_false hnomem fun hc => absurd hc.1 (by omega)
  · rw [rc_of_growTriple h, shiftRight_dbhShift, and_dbhMask]
    rw [hsize] at hmod h2 h3 ⊢
    have hroom : s.dBhHwm < 134480384 := by omega
    have hfirst : (s.dBhHwm - 512 - 512 * 512) / 512 % 512 = 0 ↔
      s.dBhHwm ≠ 0 ∧ (s.dBhHwm - 512) % (512 * 512) = 0 := by omega
    have hlast : s.dBhHwm - 512 - 512 * 512 = 0 ↔ s.dBhHwm = 512 + 512 * 512 := by omega
    simp only [hroom, hfirst, hlast, true_and]

end

end HeapStore

open HeapStore in
/-- **The blocks implement the numbered slots**: in every run growing the store, with memory just
if all allocations that are needed return some, and storing a node are what they are in the heap. -/
theorem heap_storage_refines (ν : Type) : (heapStoreLts ν).Always fun s =>
    ∀ h : DBinheap ν, s.Represents h → h.dBhNodesCnt ≤ h.dBhHwm →
      (∀ a b c, Fresh a b c s.mem → ∃ rc s' h', s.dBinheapGrow a b c = some (rc, s') ∧
        h.dBinheapGrow (allocated s.dBhHwm a b c) = some (rc, h') ∧ s'.Represents h') ∧
      ∀ idx e, idx ≤ h.dBhNodesCnt → idx < h.dBhHwm → ∃ s', s.save idx e = some s' ∧
        s'.Represents { h with
          slots := update h.slots idx e, dBhNodesCnt := max h.dBhNodesCnt (idx + 1) } := by
  intro s hreach h hr hcnt
  obtain ⟨addr, hwf⟩ := (wf_invariant ν).reach hreach
  refine ⟨fun a b c hf => ?_, fun idx e hle hidx => ?_⟩
  · obtain ⟨rc, s', heq, hres⟩ := hwf.grow hf
    obtain ⟨_, _, hslots⟩ := hres.slots hwf
    have hslots' : ∀ i, i < h.dBhNodesCnt → s'.load i = some (.item (h.slots i)) := by
      intro i hi
      rw [(hslots i (hr.hwm ▸ lt_of_lt_of_le hi hcnt)).2]
      exact hr.slots i hi
    have hmod : ¬ h.dBhHwm % dbhSize ≠ 0 := not_not.mpr (hr.hwm ▸ hwf.hwm_mod)
    have hrc : dbhMax ≤ h.dBhHwm ∨ allocated s.dBhHwm a b c = false ↔ rc ≠ 0 := by
      rw [← hr.hwm, ← not_lt, ← Bool.not_eq_true, ← not_and_or, ← rc_of_grow hwf.hwm_mod heq]
    rw [DBinheap.dBinheapGrow, if_neg hmod]
    cases hres with
    | failed hhwm =>
      exact ⟨_, s', h, heq, if_pos (hrc.mpr (by decide)), hhwm.trans hr.hwm, hslots'⟩
    | grown hhwm =>
      exact ⟨0, s', _, heq, if_neg (hrc.not.mpr (not_not.mpr rfl)), hhwm.trans (by rw [hr.hwm]), hslots'⟩
  · obtain ⟨s', heq, _, hhwm, hload⟩ := hwf.save (hr.hwm ▸ hidx) e
    refine ⟨s', heq, hhwm.trans hr.hwm, fun i (hi : i < max _ _) => ?_⟩
    rw [lt_max_iff] at hi
    show s'.load i = some (.item (update h.slots idx e i))
    rw [hload i (by rw [hr.hwm]; omega)]
    split_ifs with hii
    · rw [hii, update_self]
    · rw [update_of_ne hii]
      exact hr.slots i (by omega)

/-- **The storage of the heap**, over every sequence of growths and stores and whichever
allocations fail. -/
theorem binheap_storage_sound (ν : Type) :
    (heapStoreLts ν).Safe ∧ ∀ s, (heapStoreLts ν).Reach s →
      s.dBhHwm % 512 = 0 ∧ s.dBhHwm ≤ 512 + 512 ^ 2 + 512 ^ 3 ∧
      (∀ idx, idx < s.dBhHwm → ∃ a i c, s.dBinheapPointer idx = some (a, i) ∧
        BlockMemory.read dbhSize s.mem a i = some c) ∧
      (∀ i j, i < s.dBhHwm → j < s.dBhHwm → s.dBinheapPointer i = s.dBinheapPointer j → i = j) ∧
      (∀ a b c, HeapStore.Fresh a b c s.mem → ∃ rc s', s.dBinheapGrow a b c = some (rc, s') ∧
        (rc ≠ 0 → s'.dBhHwm = s.dBhHwm) ∧ (rc = 0 → s'.dBhHwm = s.dBhHwm + 512) ∧
        ∀ idx, idx < s.dBhHwm →
          s'.dBinheapPointer idx = s.dBinheapPointer idx ∧ s'.load idx = s.load idx) ∧
      ∃ w, s.dBinheapDestroyInplace = some w ∧ w.freed.Nodup ∧
        (∀ a, a ∈ w.freed ↔ (s.mem a).isSome = true) ∧ ∀ a, w.mem a = none := by
  have hinv := HeapStore.wf_invariant ν
  refine ⟨hinv.safe ?_, fun s hs => ?_⟩
  · rintro s e ⟨addr, h⟩ he
    obtain ⟨s', hstep, _⟩ := h.step he
    exact ⟨s', hstep⟩
  · obtain ⟨addr, h⟩ := hinv.reach hs
    refine ⟨h.hwm_mod, h.hwm_le, fun idx hidx => ?_, fun i j hi hj => h.dBinheapPointer_inj hi hj,
      fun a b c hf => ?_, ?_⟩
    · obtain ⟨c, hc⟩ := h.load_isSome hidx
      rw [h.load_eq hidx] at hc
      exact ⟨_, _, c, h.dBinheapPointer_eq hidx, hc⟩
    · obtain ⟨rc, s', heq, hres⟩ := h.grow hf
      exact ⟨rc, s', heq, hres.slots h⟩
    · obtain ⟨w, heq, hfreed, hnone⟩ := h.destroy_spec
      refine ⟨w, heq, hfreed.nodup, fun a => ?_, hnone⟩
      rw [hfreed.mem_iff, and_iff_left (hnone a)]

end Cart
