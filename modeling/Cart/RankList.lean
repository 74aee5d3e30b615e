/-
Rank lists (`gurt/misc.c`).

A `d_rank_list_t` is a counter `rl_nr` and an array `rl_ranks`; it contains the first `rl_nr`
entries (`toList`).  An entry is deleted by moving the tail of the array down (`shiftDown`).
The uniq loop then goes on to the next position and so leaves every other one of equal ranks
(`uniqPass`).

Main results: `rank_list_uniq_iff`, `rank_list_filter_exact`, `rank_list_identical_iff`,
`rank_list_resize_iff`.
-/
import Cart.Basic

open List Option

namespace Cart

variable {rank n : ℕ} {l ranks : List ℕ} {src : DRankList}

/-- `d_rank_list_t`.  The counter never exceeds the allocated array. -/
structure DRankList where
  rlNr : ℕ
  rlRanks : Option (List ℕ)
  rlFits : rlNr ≤ (rlRanks.getD []).length

namespace DRankList

/-- The array, empty for `NULL`. -/
def array (l : DRankList) : List ℕ := l.rlRanks.getD []

/-- The ranks in the list. -/
def toList (l : DRankList) : List ℕ := l.array.take l.rlNr

@[simp] theorem length_toList (l : DRankList) : l.toList.length = l.rlNr := by
  rw [toList, length_take]
  exact min_eq_left l.rlFits

/-- A list whose array is used to its end. -/
def ofList (ranks : List ℕ) : DRankList := ⟨ranks.length, some ranks, le_rfl⟩

@[simp] theorem rlNr_ofList (ranks : List ℕ) : (ofList ranks).rlNr = ranks.length := rfl

@[simp] theorem rlRanks_ofList (ranks : List ℕ) : (ofList ranks).rlRanks = some ranks := rfl

@[simp] theorem toList_ofList (ranks : List ℕ) : (ofList ranks).toList = ranks :=
  take_length

end DRankList

/-- The ranks behind a `d_rank_list_t *`; none for `NULL`. -/
def ranksOf (l : Option DRankList) : List ℕ := (l.map DRankList.toList).getD []

@[simp] theorem ranksOf_none : ranksOf none = [] := rfl

@[simp] theorem ranksOf_some (l : DRankList) : ranksOf (some l) = l.toList := rfl

/-! ### Queries -/

def dRankInRankList (rankList : Option DRankList) (rank : ℕ) : Bool :=
  match rankList with
  | none => false
  | some l => l.toList.any fun r => r = rank

@[simp] theorem dRankInRankList_iff {l : Option DRankList} :
    dRankInRankList l rank = true ↔ rank ∈ ranksOf l := by
  cases l with
  | none | some l => simp [dRankInRankList]

def dIdxInRankList (rankList : Option DRankList) (rank : ℕ) : Except Stop ℕ :=
  match rankList with
  | none => .error (.rc (-derInval))
  | some l =>
    match l.toList.findIdx? fun r => r = rank with
    | some i => .ok i
    | none => .error (.rc (-derNonexist))

theorem findIdx?_of_mem (h : rank ∈ l) : l.findIdx? (fun r => r = rank) = some (l.idxOf rank) := by
  rw [findIdx?_eq_some_iff_findIdx_eq]
  refine ⟨idxOf_lt_length_of_mem h, ?_⟩
  rw [idxOf]
  congr 1

theorem findIdx?_of_notMem (h : rank ∉ l) : l.findIdx? (fun r => r = rank) = none := by
  rw [findIdx?_eq_none_iff]
  intro x hx
  rw [decide_eq_false_iff_not]
  rintro rfl
  exact h hx

theorem dIdxInRankList_of_mem {l : DRankList} (h : rank ∈ l.toList) :
    dIdxInRankList (some l) rank = .ok (l.toList.idxOf rank) := by
  simp only [dIdxInRankList, findIdx?_of_mem h]

theorem dIdxInRankList_of_notMem {l : DRankList} (h : rank ∉ l.toList) :
    dIdxInRankList (some l) rank = .error (.rc (-derNonexist)) := by
  simp only [dIdxInRankList, findIdx?_of_notMem h]

/-! ### Copying -/

def dRankListDup (src : Option DRankList) : Option DRankList :=
  match src with
  | none => none
  | some l => if l.rlNr = 0 then some ⟨0, none, le_rfl⟩ else some (.ofList l.toList)

@[simp] theorem ranksOf_dRankListDup (src : Option DRankList) :
    ranksOf (dRankListDup src) = ranksOf src := by
  cases src with
  | none => rfl
  | some l =>
    by_cases h : l.rlNr = 0
    · simp [dRankListDup, h, DRankList.toList]
    · simp [dRankListDup, h]

/-- `d_rank_list_append`, which follows its argument. -/
def dRankListAppend (rankList : Option DRankList) (rank : ℕ) : Except Stop (Option DRankList) :=
  match rankList with
  | none => .error .nullDeref
  | some l => .ok (some (.ofList (l.toList ++ [rank])))

/-- What `crt_proc_d_rank_list_t` decodes from what it encoded: an empty list
arrives as `NULL`. -/
def crtProcDRankList (data : Option DRankList) : Option DRankList :=
  match data with
  | none => none
  | some l => if l.rlNr = 0 then none else some (.ofList l.toList)

@[simp] theorem ranksOf_crtProcDRankList (data : Option DRankList) :
    ranksOf (crtProcDRankList data) = ranksOf data := by
  cases data with
  | none => rfl
  | some l =>
    by_cases h : l.rlNr = 0
    · simp [crtProcDRankList, h, DRankList.toList]
    · simp [crtProcDRankList, h]

/-! ### Deleting in place -/

/-- `for (j = k; j < k + c; j++) ranks[j] = ranks[j + 1]`. -/
def shiftDown : List ℕ → ℕ → ℕ → List ℕ
  | ranks, _, 0 => ranks
  | ranks, j, c + 1 => shiftDown (ranks.set j (ranks.getD (j + 1) 0)) (j + 1) c

@[simp] theorem length_shiftDown : ∀ (c : ℕ) (ranks : List ℕ) (j : ℕ),
    (shiftDown ranks j c).length = ranks.length := by
  intro c
  induction c with
  | zero => exact fun _ _ => rfl
  | succ c ih =>
    intro ranks j
    rw [shiftDown, ih, length_set]

/-- The entry at `k` is overwritten and the last one moved is left twice. -/
theorem getElem?_shiftDown : ∀ (c : ℕ) (ranks : List ℕ) (k : ℕ), k + c < ranks.length →
    ∀ m, (shiftDown ranks k c)[m]? = if k ≤ m ∧ m < k + c then ranks[m + 1]? else ranks[m]? := by
  intro c
  induction c with
  | zero =>
    intro ranks k _ m
    rw [shiftDown, if_neg (by omega)]
  | succ c ih =>
    intro ranks k hlt m
    rw [shiftDown, ih _ _ (by rw [length_set]; omega) m, getElem?_set,
      getElem?_set]
    by_cases hm : k = m
    · subst hm
      have hsome : ranks[k + 1]? = some (ranks.getD (k + 1) 0) := by
        rw [getD_eq_getElem?_getD, getElem?_eq_getElem (by omega), getD_some]
      rw [if_neg (by omega), if_pos rfl, if_pos (by omega), if_pos (by omega), hsome]
    · by_cases hin : k + 1 ≤ m ∧ m < k + 1 + c
      · rw [if_pos hin, if_neg (by omega), if_pos (by omega)]
      · rw [if_neg hin, if_neg hm, if_neg (by omega)]

/-- The tail moved down by one: everything before `k` stays, everything after
it is one place further ahead. -/
theorem take_shiftDown {k m : ℕ} (hk : k < m) (hm : m ≤ n) (hn : n ≤ ranks.length) :
    (shiftDown ranks k (n - 1 - k)).take (m - 1) =
      ranks.take k ++ (ranks.take m).drop (k + 1) := by
  apply ext_getElem?
  intro j
  rw [getElem?_take, getElem?_append, length_take, min_eq_left (by omega),
    getElem?_take, getElem?_drop, getElem?_take,
    getElem?_shiftDown _ _ _ (by omega)]
  by_cases hj : j < k
  · rw [if_pos (by omega), if_neg (by omega), if_pos hj]
    simp [hj]
  · by_cases hjm : j < m - 1
    · rw [if_pos hjm, if_pos (by omega), if_neg hj, if_pos (by omega)]
      congr 1
      omega
    · rw [if_neg hjm, if_neg hj, if_neg (by omega)]

/-! ### Filtering -/

/-- The loop of `d_rank_list_filter`, at position `i` with `filterNum` ranks
deleted; `fuel` is what is left of `rankNum`. -/
def filterLoop (srcSet : Option DRankList) (exclude : Bool) (rankNum : ℕ) :
    ℕ → ℕ → ℕ → List ℕ → ℕ × List ℕ
  | 0, _, filterNum, ranks => (filterNum, ranks)
  | fuel + 1, i, filterNum, ranks =>
    if i < rankNum - filterNum then
      if dRankInRankList srcSet (ranks.getD i 0) ≠ exclude then
        filterLoop srcSet exclude rankNum fuel (i + 1) filterNum ranks
      else
        -- `i--` and `i++` cancel: the next rank has moved to this place
        filterLoop srcSet exclude rankNum fuel i (filterNum + 1)
          (shiftDown ranks i (rankNum - 1 - i))
    else (filterNum, ranks)

@[simp] theorem length_filterLoop (srcSet : Option DRankList) (exclude : Bool) (rankNum : ℕ) :
    ∀ (fuel i filterNum : ℕ) (ranks : List ℕ),
      (filterLoop srcSet exclude rankNum fuel i filterNum ranks).2.length = ranks.length := by
  intro fuel
  induction fuel with
  | zero => exact fun _ _ _ => rfl
  | succ fuel ih =>
    intro i filterNum ranks
    rw [filterLoop]
    split
    · split
      · rw [ih]
      · rw [ih, length_shiftDown]
    · rfl

/-- Returning the new `dst_set`. -/
def dRankListFilter (srcSet : Option DRankList) (dst : DRankList) (exclude : Bool) : DRankList :=
  match srcSet with
  | none => dst
  | some src =>
    if src.rlRanks = none ∨ dst.rlRanks = none ∨ dst.rlNr = 0 then dst
    else
      let r := filterLoop (some src) exclude dst.rlNr dst.rlNr 0 0 dst.array
      ⟨dst.rlNr - r.1, some r.2, by
        rw [Option.getD_some, length_filterLoop]
        exact (Nat.sub_le _ _).trans dst.rlFits⟩

/-- The loop keeps what it has passed and filters what is ahead of it. -/
theorem filterLoop_spec (srcSet : Option DRankList) (exclude : Bool) :
    ∀ (fuel i f : ℕ) (ranks : List ℕ), n ≤ ranks.length → i + f + fuel = n →
      (filterLoop srcSet exclude n fuel i f ranks).2.take
          (n - (filterLoop srcSet exclude n fuel i f ranks).1) =
        ranks.take i ++
          ((ranks.take (n - f)).drop i).filter fun r => dRankInRankList srcSet r != exclude := by
  intro fuel
  induction fuel with
  | zero =>
    intro i f ranks _ hsum
    rw [filterLoop, show n - f = i by omega, drop_take, Nat.sub_self, take_zero,
      filter_nil, append_nil]
  | succ fuel ih =>
    intro i f ranks hlen hsum
    have hi : i < ranks.length := by omega
    -- the rank looked at, and those after it
    have hget : ranks.getD i 0 = ranks[i] := by
      rw [getD_eq_getElem?_getD, getElem?_eq_getElem hi, getD_some]
    have hahead : (ranks.take (n - f)).drop i =
        ranks[i] :: (ranks.take (n - f)).drop (i + 1) := by
      rw [drop_eq_getElem_cons (by rw [length_take]; omega), getElem_take]
    rw [filterLoop, if_pos (by omega), hget, hahead]
    by_cases hkeep : dRankInRankList srcSet ranks[i] ≠ exclude
    · rw [if_pos hkeep, ih (i + 1) f ranks hlen (by omega),
        filter_cons_of_pos (by simpa using hkeep), take_succ_eq_append_getElem hi,
        append_assoc, singleton_append]
    · have htake := take_shiftDown (show i < n - f by omega) (Nat.sub_le n f) hlen
      have hfront : (shiftDown ranks i (n - 1 - i)).take i = ranks.take i := by
        have h := take_shiftDown (show i < i + 1 by omega) (show i + 1 ≤ n by omega) hlen
        rwa [Nat.add_sub_cancel, drop_take, Nat.sub_self, take_zero,
          append_nil] at h
      rw [if_neg hkeep, ih i (f + 1) _ (by rw [length_shiftDown]; exact hlen) (by omega),
        filter_cons_of_neg (by simpa using hkeep), hfront,
        show n - (f + 1) = n - f - 1 by omega, htake,
        drop_append_of_le_length (by rw [length_take]; omega)]
      rw [drop_take, Nat.sub_self, take_zero, nil_append]

open DRankList

/-- `d_rank_list_filter` keeps the ranks whose membership in `src_set` differs
from `exclude`, if the source has an array. -/
theorem toList_dRankListFilter (hsrc : src.rlRanks ≠ none) (dst : DRankList) (exclude : Bool) :
    (dRankListFilter (some src) dst exclude).toList =
      dst.toList.filter fun r => dRankInRankList (some src) r != exclude := by
  rw [dRankListFilter]
  by_cases hnone : dst.rlRanks = none
  · have harr : dst.array = [] := by rw [array, hnone, getD_none]
    rw [if_pos (Or.inr (Or.inl hnone)), DRankList.toList, harr, take_nil, filter_nil]
  · by_cases hzero : dst.rlNr = 0
    · rw [if_pos (Or.inr (Or.inr hzero)), DRankList.toList, hzero, take_zero,
        filter_nil]
    · rw [if_neg (by simp [hsrc, hnone, hzero])]
      exact filterLoop_spec (some src) exclude dst.rlNr 0 0 dst.array dst.rlFits (by omega)

/-- **Filtering.**  The ranks that are in the source, or those that are not, stay in their
order, and the counter is right. -/
theorem rank_list_filter_exact (src dst : DRankList) (hsrc : src.rlRanks ≠ none)
    (hdst : dst.rlRanks ≠ none) (exclude : Bool) :
    (dRankListFilter (some src) dst exclude).toList =
      dst.toList.filter (fun r => decide (r ∈ src.toList) != exclude) ∧
    (dRankListFilter (some src) dst exclude).rlNr =
      (dst.toList.filter fun r => decide (r ∈ src.toList) != exclude).length ∧
    (dRankListFilter (some src) dst exclude).rlRanks ≠ none := by
  have hmem : ∀ r, dRankInRankList (some src) r = decide (r ∈ src.toList) := by
    intro r
    rw [Bool.eq_iff_iff, dRankInRankList_iff, decide_eq_true_iff]
    rfl
  have hlist := toList_dRankListFilter hsrc dst exclude
  simp only [hmem] at hlist
  refine ⟨hlist, by rw [← DRankList.length_toList, hlist], ?_⟩
  rw [dRankListFilter]
  split
  · exact hdst
  · exact some_ne_none _

theorem rank_list_filter_three :
    (dRankListFilter (some (.ofList [1])) (.ofList [2, 1, 2]) true).toList = [2, 2] :=
  (rank_list_filter_exact (.ofList [1]) (.ofList [2, 1, 2]) (by simp) (by simp) true).1

theorem DRankList.rlRanks_ne_none {l : DRankList} (h : l.toList ≠ []) : l.rlRanks ≠ none := by
  intro hnone
  apply h
  rw [toList, array, hnone, getD_none, take_nil]

/-! ### Sorting and removing duplicates -/

/-- `qsort` by `rank_compare`. -/
def dRankListSort (ranks : List ℕ) : List ℕ := ranks.insertionSort (· ≤ ·)

/-- The uniq loop of `d_rank_list_dup_sort_uniq`, at position `i` with
`identicalNum` ranks deleted. -/
def uniqLoop (rankNum : ℕ) : ℕ → ℕ → ℕ → ℕ → List ℕ → ℕ × List ℕ
  | 0, _, identicalNum, _, ranks => (identicalNum, ranks)
  | fuel + 1, i, identicalNum, rankTmp, ranks =>
    if i < rankNum - identicalNum then
      if rankTmp = ranks.getD i 0 then
        let ranks := shiftDown ranks (i - 1) (rankNum - i)
        uniqLoop rankNum fuel (i + 1) (identicalNum + 1) (ranks.getD i 0) ranks
      else uniqLoop rankNum fuel (i + 1) identicalNum (ranks.getD i 0) ranks
    else (identicalNum, ranks)

@[simp] theorem length_uniqLoop (rankNum : ℕ) :
    ∀ (fuel i identicalNum rankTmp : ℕ) (ranks : List ℕ),
      (uniqLoop rankNum fuel i identicalNum rankTmp ranks).2.length = ranks.length := by
  intro fuel
  induction fuel with
  | zero => exact fun _ _ _ _ => rfl
  | succ fuel ih =>
    intro i identicalNum rankTmp ranks
    rw [uniqLoop]
    split
    · split
      · rw [ih, length_shiftDown]
      · rw [ih]
    · rfl

/-- What `d_rank_list_dup_sort_uniq` makes of the copied array. -/
def sortUniq (ranks : List ℕ) : DRankList :=
  let sorted := dRankListSort ranks
  if ranks.length ≤ 1 then .ofList sorted
  else
    let r := uniqLoop ranks.length ranks.length 1 0 (sorted.getD 0 0) sorted
    ⟨ranks.length - r.1, some r.2, by
      have hsorted : sorted.length = ranks.length := List.length_insertionSort _ _
      rw [Option.getD_some, length_uniqLoop, hsorted]
      exact Nat.sub_le _ _⟩

def dRankListDupSortUniq (src : Option DRankList) : Option DRankList :=
  match dRankListDup src with
  | none => none
  | some l => if l.rlRanks = none then some l else some (sortUniq l.toList)

/-- What the uniq loop leaves of the ranks after `last`. -/
def uniqPass : ℕ → List ℕ → List ℕ
  | _, [] => []
  | last, [y] => if last = y then [] else [y]
  | last, y :: z :: l => if last = y then z :: uniqPass z l else y :: uniqPass y (z :: l)

theorem uniqLoop_of_le {i f : ℕ} (h : n - f ≤ i) (fuel tmp : ℕ) (ranks : List ℕ) :
    uniqLoop n fuel i f tmp ranks = (f, ranks) := by
  cases fuel with
  | zero => rfl
  | succ fuel => rw [uniqLoop, if_neg (not_lt.mpr h)]

/-- The loop has passed `front` and `tmp`, and has `ahead` before it. -/
theorem uniqLoop_spec : ∀ (fuel f tmp : ℕ) (front ahead ranks : List ℕ),
    n ≤ ranks.length → ranks.take (n - f) = front ++ tmp :: ahead → ahead.length ≤ fuel →
    (uniqLoop n fuel (front.length + 1) f tmp ranks).2.take
      (n - (uniqLoop n fuel (front.length + 1) f tmp ranks).1) =
        front ++ tmp :: uniqPass tmp ahead := by
  intro fuel
  induction fuel with
  | zero =>
    intro f tmp front ahead ranks _ hsplit hfuel
    rw [eq_nil_of_length_eq_zero (Nat.le_zero.mp hfuel)] at hsplit ⊢
    exact hsplit
  | succ fuel ih =>
    intro f tmp front ahead ranks hn hsplit hfuel
    have hlen : n - f = front.length + 1 + ahead.length := by
      have h := congrArg length hsplit
      simp only [length_take, length_append, length_cons] at h
      omega
    -- what is read inside the bounds
    have hget : ∀ {ranks' : List ℕ} {m i : ℕ} {l : List ℕ}, ranks'.take m = l → i < l.length →
        ranks'.getD i 0 = l.getD i 0 := by
      rintro ranks' m i l rfl hi
      rw [length_take] at hi
      rw [getD_eq_getElem?_getD, getD_eq_getElem?_getD,
        getElem?_take_of_lt (by omega)]
    cases ahead with
    | nil =>
      rw [uniqLoop_of_le (by rw [hlen]; simp)]
      exact hsplit
    | cons y ys =>
      have hy : ranks.getD (front.length + 1) 0 = y := by
        rw [hget hsplit (by simp)]
        simp [getD_eq_getElem?_getD]
      rw [length_cons] at hlen hfuel
      rw [uniqLoop, if_pos (by omega), hy]
      by_cases heq : tmp = y
      · -- the tail moves down, over the first of the two
        subst heq
        rw [if_pos rfl]
        dsimp only
        rw [Nat.add_sub_cancel, show n - (front.length + 1) = n - 1 - front.length by omega]
        have htake := take_shiftDown (show front.length < n - f by omega) (Nat.sub_le n f) hn
        have hfront : ranks.take front.length = front := by
          have h := congrArg (take front.length) hsplit
          rwa [take_take, min_eq_left (by omega), take_left] at h
        rw [hfront, hsplit, ← drop_drop, drop_left, Nat.sub_sub] at htake
        cases ys with
        | nil =>
          rw [uniqLoop_of_le (by rw [← Nat.sub_sub, hlen]; simp)]
          simpa [uniqPass] using htake
        | cons z zs =>
          have hz : (shiftDown ranks front.length (n - 1 - front.length)).getD (front.length + 1) 0
              = z := by
            rw [hget htake (by simp)]
            simp [getD_eq_getElem?_getD]
          have h := ih (f + 1) z (front ++ [tmp]) zs
            (shiftDown ranks front.length (n - 1 - front.length)) (by rwa [length_shiftDown])
            (by rw [htake]; simp) (by rw [length_cons] at hfuel; omega)
          rw [length_append, length_singleton] at h
          rw [hz, h]
          simp [uniqPass]
      · rw [if_neg heq]
        have h := ih f y (front ++ [tmp]) ys ranks hn (by rw [hsplit]; simp) (by omega)
        rw [length_append, length_singleton] at h
        rw [h]
        cases ys <;> simp [uniqPass, heq]

/-- Nothing is lost. -/
theorem mem_uniqPass (r last : ℕ) (l : List ℕ) : r ∈ last :: uniqPass last l ↔ r ∈ last :: l := by
  fun_induction uniqPass last l with
  | case1 last => rfl
  | case2 y => simp
  | case3 last y h => rfl
  | case4 y z l ih =>
    rw [mem_cons, ih]
    simp
  | case5 last y z l h ih => rw [mem_cons, ih, mem_cons (b := last)]

theorem uniqPass_sublist (last : ℕ) (l : List ℕ) : (uniqPass last l).Sublist l := by
  fun_induction uniqPass last l with
  | case1 last => exact .refl _
  | case2 y => exact nil_sublist _
  | case3 last y h => exact .refl _
  | case4 y z l ih => exact (ih.cons_cons z).cons y
  | case5 last y z l h ih => exact ih.cons_cons y

/-- Of equal ranks every other one is taken out. -/
theorem nodup_uniqPass {last : ℕ} (hsorted : (last :: l).Pairwise (· ≤ ·)) :
    (last :: uniqPass last l).Nodup ↔ ∀ r, (last :: l).count r ≤ 2 := by
  have hfew : ∀ {l : List ℕ}, l.length ≤ 2 → ∀ r, l.count r ≤ 2 := fun h r =>
    count_le_length.trans h
  fun_induction uniqPass last l with
  | case1 last => exact iff_of_true (nodup_singleton _) (hfew (by simp))
  | case2 y => exact iff_of_true (nodup_singleton _) (hfew (by simp))
  | case3 last y h => exact iff_of_true (by simpa using h) (hfew (by simp))
  | case4 y z l ih =>
    have hih : (z :: uniqPass z l).Nodup ↔ _ :=
      ih (pairwise_cons.mp (pairwise_cons.mp hsorted).2).2
    rw [nodup_cons, mem_uniqPass, hih]
    constructor
    · rintro ⟨hmem, hcount⟩ r
      rw [count_cons, count_cons]
      by_cases hr : r = y
      · rw [hr, count_eq_zero_of_not_mem hmem]
        simp
      · have := hcount r
        simpa [Ne.symm hr] using this
    · intro hcount
      refine ⟨fun hmem => ?_, fun r => le_trans ?_ (hcount r)⟩
      · have h := hcount y
        have hpos := count_pos_iff.mpr hmem
        rw [count_cons_self, count_cons_self] at h
        omega
      · exact ((sublist_cons_self _ _).trans (sublist_cons_self _ _)).count_le r
  | case5 last y z l h ih =>
    obtain ⟨hle, hrest⟩ := pairwise_cons.mp hsorted
    -- `last` is smaller than the rest
    have hmem : last ∉ y :: z :: l := by
      intro hmem
      have h1 := hle y mem_cons_self
      rcases mem_cons.mp hmem with heq | hmem
      · exact h heq
      · have h2 := (pairwise_cons.mp hrest).1 last hmem
        omega
    have hih : (y :: uniqPass y (z :: l)).Nodup ↔ _ := ih hrest
    rw [nodup_cons, mem_uniqPass, and_iff_right hmem, hih]
    refine forall_congr' fun r => ?_
    rw [count_cons (b := last)]
    by_cases hr : r = last
    · rw [hr, count_eq_zero_of_not_mem hmem]
      simp
    · simp [Ne.symm hr]

theorem uniqPass_of_nodup {last : ℕ} (h : (last :: l).Nodup) : uniqPass last l = l := by
  fun_induction uniqPass last l with
  | case1 last => rfl
  | case2 y => simp at h
  | case3 last y hne => rfl
  | case4 y z l ih => simp at h
  | case5 last y z l hne ih => rw [ih (nodup_cons.mp h).2]

theorem toList_sortUniq {r : ℕ} (hsort : dRankListSort ranks = r :: l) :
    (sortUniq ranks).toList = r :: uniqPass r l := by
  have hlen : (dRankListSort ranks).length = ranks.length := length_insertionSort _ _
  have hspec := uniqLoop_spec ranks.length 0 r [] l (dRankListSort ranks) hlen.ge
    (by rw [Nat.sub_zero, ← hlen, take_length, hsort]; rfl)
    (by rw [← hlen, hsort]; simp)
  have hfirst : (dRankListSort ranks).getD 0 0 = r := by rw [hsort]; rfl
  rw [sortUniq]
  split_ifs with hshort
  · rw [← hlen, hsort, length_cons] at hshort
    rw [toList_ofList, hsort, eq_nil_of_length_eq_zero (l := l) (by omega)]
    rfl
  · simp only [DRankList.toList, DRankList.array, hfirst]
    exact hspec

theorem toList_sortUniq_of_nodup (h : ranks.Nodup) :
    (sortUniq ranks).toList = ranks.insertionSort (· ≤ ·) := by
  have hperm : (dRankListSort ranks).Perm ranks := perm_insertionSort _ _
  change _ = dRankListSort ranks
  cases hsort : dRankListSort ranks with
  | nil =>
    rw [hsort] at hperm
    obtain rfl := nil_perm.mp hperm
    rfl
  | cons r l =>
    rw [hsort] at hperm
    rw [toList_sortUniq hsort, uniqPass_of_nodup (hperm.nodup_iff.mpr h)]

/-- Without duplicates, `d_rank_list_dup_sort_uniq` returns a sorted copy,
`NULL` only for `NULL`. -/
theorem dRankListDupSortUniq_of_nodup (h : src.toList.Nodup) :
    ∃ l, dRankListDupSortUniq (some src) = some l ∧
      l.toList = src.toList.insertionSort (· ≤ ·) := by
  by_cases hzero : src.rlNr = 0
  · have hnil : src.toList = [] := eq_nil_of_length_eq_zero (by simp [hzero])
    refine ⟨⟨0, none, le_rfl⟩, ?_, ?_⟩
    · simp [dRankListDupSortUniq, dRankListDup, hzero]
    · rw [hnil]
      rfl
  · refine ⟨sortUniq src.toList, ?_, toList_sortUniq_of_nodup h⟩
    simp [dRankListDupSortUniq, dRankListDup, hzero]

theorem ranksOf_dRankListDupSortUniq {src : Option DRankList} (h : (ranksOf src).Nodup) :
    ranksOf (dRankListDupSortUniq src) = (ranksOf src).insertionSort (· ≤ ·) := by
  cases src with
  | none => rfl
  | some l =>
    obtain ⟨l', hl', htoList⟩ := dRankListDupSortUniq_of_nodup h
    rw [hl', ranksOf_some, htoList, ranksOf_some]

/-- **Sorting without duplicates.**  The copy is sorted and has the ranks of the source;
it is strictly increasing if and only if no rank is there more than twice. -/
theorem rank_list_uniq_iff (src : DRankList) :
    ∃ l, dRankListDupSortUniq (some src) = some l ∧ (∀ r, r ∈ l.toList ↔ r ∈ src.toList) ∧
      l.toList.Pairwise (· ≤ ·) ∧ (l.toList.Pairwise (· < ·) ↔ ∀ r, src.toList.count r ≤ 2) := by
  by_cases hzero : src.rlNr = 0
  · have hnil : src.toList = [] := eq_nil_of_length_eq_zero (by simp [hzero])
    refine ⟨⟨0, none, le_rfl⟩, by simp [dRankListDupSortUniq, dRankListDup, hzero], ?_⟩
    rw [hnil]
    simp [DRankList.toList]
  · refine ⟨sortUniq src.toList, by simp [dRankListDupSortUniq, dRankListDup, hzero], ?_⟩
    have hperm : (dRankListSort src.toList).Perm src.toList := perm_insertionSort _ _
    have hsorted : (dRankListSort src.toList).Pairwise (· ≤ ·) := pairwise_insertionSort _ _
    simp only [← hperm.mem_iff, ← hperm.count_eq]
    cases hsort : dRankListSort src.toList with
    | nil =>
      rw [hsort] at hperm
      exact absurd (src.length_toList.symm.trans hperm.length_eq.symm) hzero
    | cons r l =>
      rw [hsort] at hsorted
      rw [toList_sortUniq hsort]
      have hle := hsorted.sublist ((uniqPass_sublist r l).cons_cons r)
      refine ⟨fun s => mem_uniqPass s r l, hle, ?_⟩
      rw [← nodup_uniqPass hsorted]
      refine ⟨fun h => h.imp ne_of_lt, fun h => ?_⟩
      exact (hle.and h).imp fun hand => lt_of_le_of_ne hand.1 hand.2

/-- Of three equal ranks two are left. -/
theorem rank_list_uniq_three :
    (dRankListDupSortUniq (some (.ofList [5, 5, 5]))).map DRankList.toList = some [5, 5] := by
  decide

/-! ### Comparing -/

/-- `d_rank_list_sort`, in place. -/
def DRankList.sorted (l : DRankList) : DRankList where
  rlNr := l.rlNr
  rlRanks := l.rlRanks.map fun ranks => dRankListSort l.toList ++ ranks.drop l.rlNr
  rlFits := by
    have h := l.rlFits
    cases hranks : l.rlRanks with
    | none => rwa [hranks] at h
    | some ranks => simp [dRankListSort]

/-- For the lists that the pointers `p` and `q` lead to in the memory: the answer, and the
memory afterwards. -/
def dRankListIdentical (mem : ℕ → DRankList) (p q : Option ℕ) : Bool × (ℕ → DRankList) :=
  if p = q then (true, mem)
  else
    match p, q with
    | some p, some q =>
      if (mem p).rlNr ≠ (mem q).rlNr then (false, mem)
      else (decide ((mem p).sorted.toList = (mem q).toList), Function.update mem p (mem p).sorted)
    | _, _ => (false, mem)

theorem DRankList.toList_sorted (l : DRankList) : l.sorted.toList = dRankListSort l.toList := by
  have hlen : (dRankListSort l.toList).length = l.rlNr := by simp [dRankListSort]
  have hfits := l.rlFits
  rw [toList, array, sorted]
  dsimp only
  cases hranks : l.rlRanks with
  | none =>
    rw [hranks] at hfits
    rw [Nat.le_zero.mp hfits] at hlen ⊢
    exact (eq_nil_of_length_eq_zero hlen).symm
  | some ranks => exact take_left' hlen

theorem dRankListIdentical_eq_true {mem : ℕ → DRankList} {p q : ℕ} :
    (dRankListIdentical mem (some p) (some q)).1 = true ↔
      p = q ∨ (mem p).toList.Perm (mem q).toList ∧ (mem q).toList.Pairwise (· ≤ ·) := by
  have hsort : dRankListSort (mem p).toList = (mem q).toList ↔
      (mem p).toList.Perm (mem q).toList ∧ (mem q).toList.Pairwise (· ≤ ·) := by
    have hperm : (dRankListSort (mem p).toList).Perm (mem p).toList := perm_insertionSort _ _
    have hsorted : (dRankListSort (mem p).toList).Pairwise (· ≤ ·) :=
      pairwise_insertionSort _ _
    constructor
    · intro h
      exact ⟨h ▸ hperm.symm, h ▸ hsorted⟩
    · rintro ⟨h, hq⟩
      exact (hperm.trans h).eq_of_pairwise' hsorted hq
  rw [dRankListIdentical]
  by_cases hpq : p = q
  · rw [if_pos (congrArg some hpq)]
    exact iff_of_true rfl (.inl hpq)
  rw [if_neg (mt Option.some.inj hpq), or_iff_right hpq, ← hsort]
  by_cases hnr : (mem p).rlNr = (mem q).rlNr
  · rw [if_neg (not_not.mpr hnr), decide_eq_true_iff, toList_sorted]
  · rw [if_pos hnr]
    refine iff_of_false Bool.false_ne_true fun h => hnr ?_
    rw [← (mem p).length_toList, ← (mem q).length_toList, (hsort.mp h).1.length_eq]

/-- **Comparing two lists.**  The answer is right if and only if the second list is sorted,
should the two be equal up to order and not the same; it is symmetric if and only if then both
or none of them are sorted. -/
theorem rank_list_identical_iff (mem : ℕ → DRankList) (p q : ℕ) :
    (((dRankListIdentical mem (some p) (some q)).1 = true ↔
        (mem p).toList.Perm (mem q).toList) ↔
      (p ≠ q → (mem p).toList.Perm (mem q).toList → (mem q).toList.Pairwise (· ≤ ·))) ∧
    ((dRankListIdentical mem (some p) (some q)).1 =
        (dRankListIdentical mem (some q) (some p)).1 ↔
      (p ≠ q → (mem p).toList.Perm (mem q).toList →
        ((mem p).toList.Pairwise (· ≤ ·) ↔ (mem q).toList.Pairwise (· ≤ ·)))) := by
  rw [Bool.eq_iff_iff (b := (dRankListIdentical mem (some q) (some p)).1),
    dRankListIdentical_eq_true, dRankListIdentical_eq_true, @List.perm_comm _ (mem q).toList,
    eq_comm (a := q)]
  by_cases hpq : p = q
  · subst hpq
    simp
  · by_cases hperm : (mem p).toList.Perm (mem q).toList
    · simp [hpq, hperm, iff_comm]
    · simp [hpq, hperm]

/-- A list with 1 and 2, and one with 2 and 1. -/
theorem rank_list_identical_unsorted :
    (dRankListIdentical (fun p => if p = 0 then .ofList [1, 2] else .ofList [2, 1]) (some 0)
      (some 1)).1 = false ∧
    (dRankListIdentical (fun p => if p = 0 then .ofList [1, 2] else .ofList [2, 1]) (some 1)
      (some 0)).1 = true := by
  decide

/-! ### Resizing -/

/-- Of a list: whether one is returned, and what `ptr` leads to afterwards, `none` if the list
has been freed. `fill` is what new memory holds. -/
def dRankListRealloc (allocated : Bool) (fill : ℕ) (ptr : DRankList) (size : ℕ) :
    Bool × Option DRankList :=
  if size = 0 then (false, none)
  else if allocated = false then (false, some ptr)
  else (true, some (.ofList
    ((ptr.array ++ List.replicate (size - ptr.array.length) fill).take size)))

/-- What it returns, and what the pointer of the caller leads to. -/
def dRankListDel (allocated : Bool) (fill : ℕ) (rankList : Option DRankList) (rank : ℕ) :
    ℤ × Option DRankList :=
  match rankList with
  | none => (-derInval, none)
  | some l =>
    match l.toList.findIdx? fun r => r = rank with
    | none => (0, some l)
    | some idx =>
      let moved : DRankList := ⟨l.rlNr, some (shiftDown l.array idx (l.rlNr - 1 - idx)), by
        rw [Option.getD_some, length_shiftDown]
        exact l.rlFits⟩
      let r := dRankListRealloc allocated fill moved (l.rlNr - 1)
      (if r.1 then 0 else -derNomem, r.2)

/-- `memcpy` of the ranks of `src`, for which there is room. -/
def DRankList.write (dst src : DRankList) : DRankList :=
  if src.rlNr = 0 then dst
  else ⟨src.rlNr, some (src.toList ++ dst.array.drop src.rlNr), by simp⟩

/-- What it returns, and what `dst` leads to. -/
def dRankListCopy (allocated : Bool) (fill : ℕ) (dst src : Option DRankList) :
    ℤ × Option DRankList :=
  match dst, src with
  | some dst, some src =>
    if dst.rlNr ≠ src.rlNr then
      let r := dRankListRealloc allocated fill dst src.rlNr
      (if r.1 then 0 else -derNomem, r.2.map fun l => if r.1 then l.write src else l)
    else (0, some (dst.write src))
  | _, _ => (-derInval, dst)

theorem DRankList.toList_write {dst : DRankList} (h : src.rlNr = 0 → dst.rlNr = 0) :
    (dst.write src).toList = src.toList := by
  rw [write]
  split_ifs with hzero
  · rw [eq_nil_of_length_eq_zero (src.length_toList.trans hzero)]
    exact eq_nil_of_length_eq_zero (dst.length_toList.trans (h hzero))
  · exact take_left' src.length_toList

theorem dRankListRealloc_of_ne_zero {size : ℕ} (h : size ≠ 0) (fill : ℕ) (ptr : DRankList) :
    dRankListRealloc true fill ptr size = (true, some (.ofList
      ((ptr.array ++ replicate (size - ptr.array.length) fill).take size))) := by
  rw [dRankListRealloc, if_neg h, if_neg Bool.noConfusion]

theorem dRankListDel_iff (fill : ℕ) (l : DRankList) (rank : ℕ) :
    (∃ l', dRankListDel true fill (some l) rank = (0, some l') ∧
      l'.toList = l.toList.erase rank) ↔ l.toList ≠ [rank] := by
  rw [dRankListDel]
  by_cases hmem : rank ∈ l.toList
  · rw [findIdx?_of_mem hmem]
    have hidx := idxOf_lt_length_of_mem hmem
    rw [l.length_toList] at hidx
    generalize hfound : l.toList.idxOf rank = idx at hidx
    dsimp only
    by_cases hone : l.rlNr - 1 = 0
    · -- the array is freed
      rw [dRankListRealloc, if_pos hone]
      refine iff_of_false (by simp [derNomem]) (not_not.mpr ?_)
      obtain ⟨r, hr⟩ := length_eq_one_iff.mp (l.length_toList.trans (by omega))
      rw [hr, mem_singleton] at hmem
      rw [hr, hmem]
    · rw [dRankListRealloc_of_ne_zero hone]
      refine iff_of_true ⟨_, rfl, ?_⟩ fun h => hone (by rw [← l.length_toList, h]; rfl)
      have htake := take_shiftDown hidx le_rfl l.rlFits
      have hfront : l.array.take idx = l.toList.take idx := by
        rw [DRankList.toList, take_take, min_eq_left hidx.le]
      have hfits : l.rlNr - 1 ≤ (shiftDown l.array idx (l.rlNr - 1 - idx)).length := by
        rw [length_shiftDown]
        exact (Nat.sub_le _ _).trans l.rlFits
      rw [toList_ofList, erase_eq_eraseIdx_of_idxOf hfound,
        eraseIdx_eq_take_drop_succ, ← hfront]
      exact (take_append_of_le_length hfits).trans htake
  · rw [findIdx?_of_notMem hmem]
    refine iff_of_true ⟨l, rfl, (erase_of_not_mem hmem).symm⟩ fun h => hmem ?_
    rw [h]
    exact mem_singleton_self _

theorem dRankListCopy_iff (fill : ℕ) (dst src : DRankList) :
    (∃ l', dRankListCopy true fill (some dst) (some src) = (0, some l') ∧
      l'.toList = src.toList) ↔ (src.rlNr = 0 → dst.rlNr = 0) := by
  rw [dRankListCopy]
  by_cases hnr : dst.rlNr = src.rlNr
  · rw [if_neg (not_not.mpr hnr)]
    have h : src.rlNr = 0 → dst.rlNr = 0 := hnr.trans
    exact iff_of_true ⟨_, rfl, toList_write h⟩ h
  · rw [if_pos hnr]
    by_cases hzero : src.rlNr = 0
    · rw [dRankListRealloc, if_pos hzero]
      exact iff_of_false (by simp [derNomem]) fun h => hnr ((h hzero).trans hzero.symm)
    · rw [dRankListRealloc_of_ne_zero hzero]
      exact iff_of_true ⟨_, rfl, toList_write fun h => absurd h hzero⟩
        fun h => absurd h hzero

/-- **Deleting and copying.**  With enough memory `d_rank_list_del` takes out the first
occurrence of the rank if and only if this is not the only one in the list, and
`d_rank_list_copy` makes the lists equal if and only if it does not have to shrink the
destination to nothing. -/
theorem rank_list_resize_iff (fill : ℕ) (l dst src : DRankList) (rank : ℕ) :
    ((∃ l', dRankListDel true fill (some l) rank = (0, some l') ∧ l'.toList = l.toList.erase rank) ↔
      l.toList ≠ [rank]) ∧
    ((∃ l', dRankListCopy true fill (some dst) (some src) = (0, some l') ∧
        l'.toList = src.toList) ↔ (src.rlNr = 0 → dst.rlNr = 0)) :=
  ⟨dRankListDel_iff fill l rank, dRankListCopy_iff fill dst src⟩

/-- The last rank is deleted, and an empty list is copied: both lists are freed. -/
theorem rank_list_resize_empty :
    dRankListDel true 0 (some (.ofList [7])) 7 = (-derNomem, none) ∧
    dRankListCopy true 0 (some (.ofList [7])) (some (.ofList [])) = (-derNomem, none) :=
  ⟨rfl, rfl⟩

end Cart
