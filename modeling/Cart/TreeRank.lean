/-
Tree ranks, group ranks and the shape shared by the rotated topologies.

A topology is computed on *tree ranks*, where the root is `0`, into which *group ranks* are
turned by a rotation (`crt_tree.h`).  What the child enumeration and the parent function of the
k-ary and the k-nomial topology have to satisfy is stated once (`KernelLaw`).

Main results: `KernelLaw.getChildrenBy_eq`, `KernelLaw.mem_rotated`,
`KernelLaw.exists_getParentBy`.
-/
import Cart.Basic

open List

namespace Cart

variable {n root ratio s : ℕ} {kids : ChildKernel}

def crtTreeMinRatio : ℕ := 2

def crtTreeMaxRatio : ℕ := 64

def crtTreerank2Grprank (grpSize grpRoot treeRank : ℕ) : Except Stop ℕ := do
  dAssert (0 < grpSize)
  dAssert (grpRoot < grpSize)
  dAssert (treeRank < grpSize)
  return u32 (treeRank + grpRoot) % grpSize

/-- The subtraction wraps like the addition before it. -/
def crtGrprank2Teerank (grpSize grpRoot grpRank : ℕ) : Except Stop ℕ := do
  dAssert (0 < grpSize)
  dAssert (grpRoot < grpSize)
  dAssert (grpRank < grpSize)
  return u32 (u32 (grpRank + grpSize) + 2 ^ 32 - grpRoot) % grpSize

/-- The out parameter of a child enumeration, and its counter; `none` for `NULL`. -/
structure ChildBuf where
  nchildren : ℕ
  children : Option (List ℕ)
  deriving DecidableEq, Repr

namespace ChildBuf

/-- `children[nchildren++] = child`, or only the increment for `NULL`. -/
def put (b : ChildBuf) (child : ℕ) : ChildBuf :=
  ⟨b.nchildren + 1, b.children.map (· ++ [child])⟩

/-- A run of `put`s. -/
def puts (b : ChildBuf) (l : List ℕ) : ChildBuf :=
  ⟨b.nchildren + l.length, b.children.map (· ++ l)⟩

@[simp] theorem puts_nil (b : ChildBuf) : b.puts [] = b := by
  cases b with
  | mk n c => cases c <;> simp [puts]

theorem put_puts (b : ChildBuf) (c : ℕ) (l : List ℕ) : (b.put c).puts l = b.puts (c :: l) := by
  cases b with
  | mk n o =>
    cases o <;> simp [put, puts]
    · omega
    · omega

theorem puts_puts (b : ChildBuf) (l l' : List ℕ) : (b.puts l).puts l' = b.puts (l ++ l') := by
  cases b with
  | mk n o =>
    cases o <;> simp [puts]
    · omega
    · omega

end ChildBuf

/-! ### The rotation -/

/-- The tree rank of a group rank, once the assertions hold. -/
def treeRank (n root g : ℕ) : ℕ := (g + n - root) % n

/-- The group rank of a tree rank, once the assertions hold. -/
def grpRank (n root t : ℕ) : ℕ := (t + root) % n

section Rotation

variable {g t : ℕ}

section

variable (hroot : root < n)

include hroot

theorem treeRank_lt : treeRank n root g < n :=
  Nat.mod_lt _ (by omega)

theorem grpRank_lt : grpRank n root t < n :=
  Nat.mod_lt _ (by omega)

theorem grpRank_treeRank (hg : g < n) : grpRank n root (treeRank n root g) = g := by
  rw [grpRank, treeRank, Nat.mod_add_mod, show g + n - root + root = g + n by omega,
    Nat.add_mod_right, Nat.mod_eq_of_lt hg]

theorem treeRank_grpRank (ht : t < n) : treeRank n root (grpRank n root t) = t := by
  have hmod : (grpRank n root t + (n - root)) % n = t := by
    rw [grpRank, Nat.mod_add_mod, show t + root + (n - root) = t + n by omega,
      Nat.add_mod_right, Nat.mod_eq_of_lt ht]
  rw [treeRank, show grpRank n root t + n - root = grpRank n root t + (n - root) by omega]
  exact hmod

theorem treeRank_root : treeRank n root root = 0 := by
  rw [treeRank, show root + n - root = n by omega, Nat.mod_self]

theorem grpRank_zero : grpRank n root 0 = root := by
  rw [grpRank, Nat.zero_add, Nat.mod_eq_of_lt hroot]

theorem treeRank_inj {g' : ℕ} (hg : g < n) (hg' : g' < n)
    (h : treeRank n root g = treeRank n root g') : g = g' := by
  rw [← grpRank_treeRank hroot hg, h, grpRank_treeRank hroot hg']

theorem treeRank_eq_zero (hg : g < n) : treeRank n root g = 0 ↔ g = root := by
  constructor
  · intro h
    exact treeRank_inj hroot hg hroot (h.trans (treeRank_root hroot).symm)
  · rintro rfl
    exact treeRank_root hroot

end

/-- Below `2 ^ 31` nodes neither rotation wraps, and no assertion fails. -/
theorem crtTreerank2Grprank_eq (hn : n ≤ 2 ^ 31) (hroot : root < n) (ht : t < n) :
    crtTreerank2Grprank n root t = .ok (grpRank n root t) := by
  have hpos : 0 < n := by omega
  have hsum : t + root < 2 ^ 32 := by omega
  simp only [crtTreerank2Grprank, dAssert_true hpos, dAssert_true hroot, dAssert_true ht,
    u32_of_lt hsum, grpRank]
  rfl

theorem crtGrprank2Teerank_eq (hn : n ≤ 2 ^ 31) (hroot : root < n) (hg : g < n) :
    crtGrprank2Teerank n root g = .ok (treeRank n root g) := by
  have hpos : 0 < n := by omega
  have hsum : g + n < 2 ^ 32 := by omega
  have hwrap : u32 (g + n + 2 ^ 32 - root) = g + n - root := by
    rw [u32, show g + n + 2 ^ 32 - root = g + n - root + 2 ^ 32 by omega, Nat.add_mod_right,
      Nat.mod_eq_of_lt (by omega)]
  simp only [crtGrprank2Teerank, dAssert_true hpos, dAssert_true hroot, dAssert_true hg,
    u32_of_lt hsum, hwrap, treeRank]
  rfl

end Rotation

/-! ### The rotated topologies -/

/-- A child enumeration on tree ranks: out buffer, self, size, ratio. -/
abbrev ChildKernel := Option (List ℕ) → ℕ → ℕ → ℕ → Except Stop ChildBuf

/-- A parent function on tree ranks: self, ratio. -/
abbrev ParentKernel := ℕ → ℕ → Except Stop ℕ

section

variable (kids : ChildKernel) (grpSize treeRatio grpRoot grpSelf : ℕ)

/-- The two assertions every rotated topology starts with. -/
def ratioAssert : Except Stop Unit := do
  dAssert (0 < grpSize)
  dAssert (crtTreeMinRatio ≤ treeRatio ∧ treeRatio ≤ crtTreeMaxRatio)

/-- The body of `crt_kary_get_children_cnt` and `crt_knomial_get_children_cnt`. -/
def getChildrenCntBy : Except Stop ℕ := do
  ratioAssert grpSize treeRatio
  let treeSelf ← crtGrprank2Teerank grpSize grpRoot grpSelf
  let b ← kids none treeSelf grpSize treeRatio
  return b.nchildren

/-- The body of `crt_kary_get_children` and `crt_knomial_get_children`. -/
def getChildrenBy : Except Stop (List ℕ) := do
  ratioAssert grpSize treeRatio
  let treeSelf ← crtGrprank2Teerank grpSize grpRoot grpSelf
  let b ← kids (some []) treeSelf grpSize treeRatio
  (b.children.getD []).mapM (crtTreerank2Grprank grpSize grpRoot)

end

/-- The body of `crt_kary_get_parent` and `crt_knomial_get_parent`. -/
def getParentBy (parent : ParentKernel) (grpSize treeRatio grpRoot grpSelf : ℕ) :
    Except Stop ℕ := do
  ratioAssert grpSize treeRatio
  if grpSelf = grpRoot then
    throw (.rc (-derInval))
  let treeSelf ← crtGrprank2Teerank grpSize grpRoot grpSelf
  dAssert (treeSelf ≠ 0)
  let treeParent ← parent treeSelf treeRatio
  crtTreerank2Grprank grpSize grpRoot treeParent

section Run

variable {l : List ℕ}

theorem ratioAssert_eq (hn : 0 < n) (hr : crtTreeMinRatio ≤ ratio ∧ ratio ≤ crtTreeMaxRatio) :
    ratioAssert n ratio = .ok () := by
  simp only [ratioAssert, dAssert_true hn, dAssert_true hr]
  rfl

theorem mapM_grpRank (hn : n ≤ 2 ^ 31) (hroot : root < n) : ∀ l : List ℕ, (∀ c ∈ l, c < n) →
      l.mapM (crtTreerank2Grprank n root) = .ok (l.map (grpRank n root)) := by
  intro l
  induction l with
  | nil =>
    intro _
    rfl
  | cons c l ih =>
    intro hl
    have hc : c < n := hl c mem_cons_self
    have htl := ih fun x hx => hl x (mem_cons_of_mem c hx)
    rw [mapM_cons, crtTreerank2Grprank_eq hn hroot hc]
    simp only [bind, Except.bind, htl]
    rfl

variable (hn : n ≤ 2 ^ 31)
    (hr : crtTreeMinRatio ≤ ratio ∧ ratio ≤ crtTreeMaxRatio) (hroot : root < n) (hs : s < n)
    (hrun : ∀ buf, kids buf (treeRank n root s) n ratio = .ok ((ChildBuf.mk 0 buf).puts l))

include hn hr hroot hs hrun

/-- The count is the number of children the kernel enumerates. -/
theorem getChildrenCntBy_of_run : getChildrenCntBy kids n ratio root s = .ok l.length := by
  simp only [getChildrenCntBy, ratioAssert_eq (by omega : 0 < n) hr,
    crtGrprank2Teerank_eq hn hroot hs, bind, Except.bind, hrun]
  simp [ChildBuf.puts, pure, Except.pure]

/-- What is written are the enumerated children, as group ranks. -/
theorem getChildrenBy_of_run (hlt : ∀ c ∈ l, c < n) :
    getChildrenBy kids n ratio root s = .ok (l.map (grpRank n root)) := by
  simp only [getChildrenBy, ratioAssert_eq (by omega : 0 < n) hr,
    crtGrprank2Teerank_eq hn hroot hs, bind, Except.bind, hrun]
  simpa [ChildBuf.puts] using mapM_grpRank hn hroot _ hlt

end Run

/-- A parent function that leads to smaller tree ranks, rotated. -/
theorem getParentBy_of_lt {parent : ParentKernel} {n ratio root : ℕ}
    (hlt : ∀ c, 0 < c → c < n → ∃ p, p < c ∧ parent c ratio = .ok p) (hn : n ≤ 2 ^ 31)
    (hr : crtTreeMinRatio ≤ ratio ∧ ratio ≤ crtTreeMaxRatio) (hroot : root < n) {s : ℕ} (hs : s < n)
    (hne : s ≠ root) : ∃ p, p < treeRank n root s ∧ parent (treeRank n root s) ratio = .ok p ∧
      getParentBy parent n ratio root s = .ok (grpRank n root p) := by
  have hts : treeRank n root s < n := treeRank_lt hroot
  have hne0 : treeRank n root s ≠ 0 := fun h0 => hne ((treeRank_eq_zero hroot hs).mp h0)
  obtain ⟨p, hp, hpar⟩ := hlt _ (Nat.pos_of_ne_zero hne0) hts
  refine ⟨p, hp, hpar, ?_⟩
  simp only [getParentBy, ratioAssert_eq (by omega : 0 < n) hr, if_neg hne,
    crtGrprank2Teerank_eq hn hroot hs, dAssert_true hne0, bind, Except.bind, hpar,
    crtTreerank2Grprank_eq hn hroot (lt_trans hp hts)]

/-- What a child enumeration and a parent function have to satisfy on the tree
ranks below `size`. -/
structure KernelLaw (kids : ChildKernel) (parent : ParentKernel) (size ratio : ℕ)
    (row : ℕ → List ℕ) : Prop where
  run : ∀ self, self < size → ∀ buf,
    kids buf self size ratio = .ok ((ChildBuf.mk 0 buf).puts (row self))
  nodup : ∀ self, self < size → (row self).Nodup
  mem : ∀ self, self < size → ∀ c,
    c ∈ row self ↔ c < size ∧ 0 < c ∧ parent c ratio = .ok self
  parent_lt : ∀ c, 0 < c → c < size → ∃ p, p < c ∧ parent c ratio = .ok p

namespace KernelLaw

variable {parent : ParentKernel} {row : ℕ → List ℕ}

/-- The entries the topology writes for a group rank. -/
def rotated (row : ℕ → List ℕ) (n root s : ℕ) : List ℕ :=
  (row (treeRank n root s)).map (grpRank n root)

section

variable (h : KernelLaw kids parent n ratio row) (hn : n ≤ 2 ^ 31)
  (hr : crtTreeMinRatio ≤ ratio ∧ ratio ≤ crtTreeMaxRatio) (hroot : root < n) (hs : s < n)

include h hn hr hroot hs

theorem getChildrenCntBy_eq :
    getChildrenCntBy kids n ratio root s = .ok (rotated row n root s).length := by
  rw [getChildrenCntBy_of_run hn hr hroot hs (h.run _ (treeRank_lt hroot)), rotated,
    length_map]

theorem getChildrenBy_eq : getChildrenBy kids n ratio root s = .ok (rotated row n root s) := by
  have hts : treeRank n root s < n := treeRank_lt hroot
  exact getChildrenBy_of_run hn hr hroot hs (h.run _ hts) fun c hc => ((h.mem _ hts c).mp hc).1

/-- The parent of a node other than the root has a smaller tree rank. -/
theorem exists_getParentBy (hne : s ≠ root) :
    ∃ p, p < treeRank n root s ∧ parent (treeRank n root s) ratio = .ok p ∧
      getParentBy parent n ratio root s = .ok (grpRank n root p) :=
  getParentBy_of_lt h.parent_lt hn hr hroot hs hne

end

theorem getParentBy_root (hn : 0 < n) (hr : crtTreeMinRatio ≤ ratio ∧ ratio ≤ crtTreeMaxRatio) :
    getParentBy parent n ratio root root = .error (.rc (-derInval)) := by
  simp only [getParentBy, ratioAssert_eq hn hr, bind, Except.bind, if_pos]
  rfl

theorem nodup_rotated (h : KernelLaw kids parent n ratio row) (hroot : root < n) :
    (rotated row n root s).Nodup := by
  have hts : treeRank n root s < n := treeRank_lt hroot
  refine List.Nodup.map_on ?_ (h.nodup _ hts)
  intro a ha b hb hab
  have ha' : a < n := ((h.mem _ hts a).mp ha).1
  have hb' : b < n := ((h.mem _ hts b).mp hb).1
  rw [← treeRank_grpRank hroot ha', hab, treeRank_grpRank hroot hb']

/-- A node is written as a child of `s` iff it is not the root and its parent
is `s`. -/
theorem mem_rotated (h : KernelLaw kids parent n ratio row) (hn : n ≤ 2 ^ 31)
    (hr : crtTreeMinRatio ≤ ratio ∧ ratio ≤ crtTreeMaxRatio) (hroot : root < n)
    {c : ℕ} (hs : s < n) :
    c ∈ rotated row n root s ↔
      c < n ∧ c ≠ root ∧ getParentBy parent n ratio root c = .ok s := by
  have hts : treeRank n root s < n := treeRank_lt hroot
  constructor
  · intro hc
    obtain ⟨t, ht, rfl⟩ := mem_map.mp hc
    obtain ⟨htn, htpos, hpar⟩ := (h.mem _ hts t).mp ht
    have htr : treeRank n root (grpRank n root t) = t := treeRank_grpRank hroot htn
    have hne : grpRank n root t ≠ root := by
      intro heq
      rw [heq, treeRank_root hroot] at htr
      omega
    refine ⟨grpRank_lt hroot, hne, ?_⟩
    obtain ⟨p, _, hp, hget⟩ := h.exists_getParentBy hn hr hroot (grpRank_lt (t := t) hroot) hne
    rw [htr, hpar, Except.ok.injEq] at hp
    rw [hget, ← hp, grpRank_treeRank hroot hs]
  · rintro ⟨hcn, hne, hget⟩
    obtain ⟨p, hplt, hp, hget'⟩ := h.exists_getParentBy hn hr hroot hcn hne
    have hpn : p < n := lt_trans hplt (treeRank_lt hroot)
    have hps : grpRank n root p = s := by
      rw [hget', Except.ok.injEq] at hget
      exact hget
    have hpt : p = treeRank n root s := by rw [← hps, treeRank_grpRank hroot hpn]
    refine mem_map.mpr ⟨treeRank n root c, ?_, grpRank_treeRank hroot hcn⟩
    refine (h.mem _ hts _).mpr ⟨treeRank_lt hroot, ?_, by rw [hp, hpt]⟩
    omega

end KernelLaw

end Cart
