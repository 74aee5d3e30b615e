/-
Several references at once (`gurt/hash.c`).

`d_hash_rec_ndecref` does what as many calls of `d_hash_rec_decref` do, if the count is not 0: its
loop tests the count after it has dropped a reference, and from 0 on it drops all of them.

Main results: `hash_ndecref_iff`, `hash_ndecref_zero`.
-/
import Cart.Basic

open Function List Option

namespace Cart

/-- `struct d_hash_table`, as far as references are concerned. -/
structure HashTable where
  htBits : ℕ
  ephemeral : Bool

/-- What changes: the buckets, the counts of the records, and the calls of `hop_rec_free`.
Records are known by their links. -/
structure HashState where
  htBuckets : ℕ → List ℕ
  refs : ℕ → ℕ
  freed : List ℕ

namespace HashTable

section

variable (ht : HashTable) (s : HashState) (rlink : ℕ)

/-- `! d_list_empty`. -/
def Linked : Prop :=
  ∃ idx < 2 ^ ht.htBits, rlink ∈ s.htBuckets idx

instance : Decidable (ht.Linked s rlink) :=
  inferInstanceAs (Decidable (∃ idx < 2 ^ ht.htBits, rlink ∈ s.htBuckets idx))

/-- Whether the count is 0 now; the callback asserts that there is a reference. -/
def chRecDecref : Option (Bool × HashState) :=
  if s.refs rlink = 0 then none
  else some (s.refs rlink - 1 = 0, { s with refs := update s.refs rlink (s.refs rlink - 1) })

def chRecDelete : HashState :=
  { s with htBuckets := fun idx => (s.htBuckets idx).filter (· ≠ rlink) }

/-- The end of both functions; `none` if the assertion fails. -/
def release (zombie : Bool) (s : HashState) (rlink : ℕ) : Option HashState :=
  let s := if zombie ∧ ht.ephemeral ∧ ht.Linked s rlink then chRecDelete s rlink else s
  if ¬ zombie ∨ ¬ ht.Linked s rlink then
    some (if zombie then { s with freed := s.freed ++ [rlink] } else s)
  else none

def dHashRecDecref : Option HashState :=
  (chRecDecref s rlink).bind fun (zombie, s) => ht.release zombie s rlink

/-- The `do` loop; `fuel` references are there. -/
def ndecrefLoop (rlink : ℕ) : ℕ → ℤ → HashState → Option (Bool × ℤ × HashState)
  | 0, _, _ => none
  | fuel + 1, count, s =>
    (chRecDecref s rlink).bind fun (zombie, s) =>
      if count - 1 ≠ 0 ∧ ¬ zombie then ndecrefLoop rlink fuel (count - 1) s
      else some (zombie, count - 1, s)

def dHashRecNdecref (count : ℤ) (rlink : ℕ) : Option (ℤ × HashState) :=
  (ndecrefLoop rlink (s.refs rlink) count s).bind fun (zombie, count, s) =>
    (ht.release zombie s rlink).map fun s => (if count ≠ 0 then -derInval else 0, s)

end

/-- Calls of `d_hash_rec_decref`, until the record is freed. -/
def decrefs (ht : HashTable) (rlink : ℕ) : ℕ → HashState → Option HashState
  | 0, s => some s
  | n + 1, s => (ht.dHashRecDecref s rlink).bind fun s' =>
    if rlink ∈ s'.freed then some s' else decrefs ht rlink n s'

variable {ht : HashTable} {s : HashState} {rlink n : ℕ} {count : ℤ}

/-- The state with `k` references less. -/
def drop (s : HashState) (rlink k : ℕ) : HashState :=
  { s with refs := update s.refs rlink (s.refs rlink - k) }

theorem chRecDecref_eq (h : s.refs rlink = n + 1) :
    chRecDecref s rlink = some (decide (n = 0), drop s rlink 1) := by
  rw [chRecDecref, if_neg (by omega), drop, h, Nat.add_sub_cancel]

theorem refs_drop (h : s.refs rlink = n + 2) : (drop s rlink 1).refs rlink = n + 1 := by
  simp [drop, h]

theorem drop_drop (k : ℕ) : drop (drop s rlink 1) rlink k = drop s rlink (k + 1) := by
  simp [drop, Nat.sub_sub, Nat.add_comm]

/-- The loop stops at the count, or when there is no reference left. -/
theorem ndecrefLoop_eq (h : s.refs rlink = n + 1) : ndecrefLoop rlink (n + 1) count s =
    if 0 < count ∧ count ≤ n then some (false, 0, drop s rlink count.toNat)
    else some (true, count - (n + 1), drop s rlink (n + 1)) := by
  induction n generalizing s count with
  | zero =>
    rw [ndecrefLoop, chRecDecref_eq h, if_neg (by omega)]
    simp
  | succ n ih =>
    rw [ndecrefLoop, chRecDecref_eq h, bind_some]
    by_cases hone : count - 1 = 0
    · obtain rfl : count = 1 := by omega
      simp
    · simp only [hone, ne_eq, not_false_eq_true, Nat.add_eq_zero_iff, one_ne_zero, and_false,
        decide_false, Bool.false_eq_true, and_self, if_true, ih (refs_drop h), drop_drop]
      by_cases hin : 0 < count ∧ count ≤ (n + 1 : ℕ)
      · rw [if_pos (by omega), if_pos hin, show (count - 1).toNat + 1 = count.toNat by omega]
      · rw [if_neg (by omega), if_neg hin, Nat.cast_succ, sub_sub, add_comm (1 : ℤ)]

/-- A record that is not in a table with references of its own can be released. -/
theorem release_zombie (hfree : ht.ephemeral = true ∨ ¬ ht.Linked s rlink) :
    ∃ s', ht.release true s rlink = some s' ∧ rlink ∈ s'.freed := by
  by_cases hlinked : ht.Linked s rlink
  · have hnone : ¬ ht.Linked (chRecDelete s rlink) rlink := by simp [Linked, chRecDelete]
    simp [release, hlinked, hfree.resolve_right (not_not.mpr hlinked), hnone]
  · simp [release, hlinked]

theorem decrefs_eq (h : s.refs rlink = n + 1) (hlive : rlink ∉ s.freed)
    (hfree : ht.ephemeral = true ∨ ¬ ht.Linked s rlink) (k : ℕ) : ht.decrefs rlink k s =
      if k ≤ n then some (drop s rlink k) else ht.release true (drop s rlink (n + 1)) rlink := by
  induction k generalizing s n with
  | zero => simp [decrefs, drop]
  | succ k ih =>
    rw [decrefs, dHashRecDecref, chRecDecref_eq h, bind_some]
    cases n with
    | zero =>
      obtain ⟨s', hrelease, hmem⟩ := release_zombie (s := drop s rlink 1) hfree
      simp [hrelease, hmem]
    | succ n =>
      have hsame : ht.release (decide (n + 1 = 0)) (drop s rlink 1) rlink = some (drop s rlink 1) := by
        simp [release]
      have hlive' : rlink ∉ (drop s rlink 1).freed := hlive
      dsimp only
      rw [hsame, bind_some, if_neg hlive', ih (refs_drop h) hlive' hfree, drop_drop, drop_drop]
      simp only [Nat.add_le_add_iff_right]

end HashTable

open HashTable

/-- **`d_hash_rec_ndecref`** is so many calls of `d_hash_rec_decref`, and says whether there were
enough references, for a record with references and a count other than 0. -/
theorem hash_ndecref_iff (ht : HashTable) (s : HashState) (rlink n : ℕ) (hlive : rlink ∉ s.freed)
    (hfree : ht.ephemeral = true ∨ ¬ ht.Linked s rlink) :
    (∃ s', ht.decrefs rlink n s = some s' ∧ ht.dHashRecNdecref s n rlink =
      some (if s.refs rlink < n then -derInval else 0, s')) ↔ 0 < n ∧ 0 < s.refs rlink := by
  rw [dHashRecNdecref]
  cases hrefs : s.refs rlink with
  | zero => simp [ndecrefLoop]
  | succ r =>
    rw [decrefs_eq hrefs hlive hfree, ndecrefLoop_eq hrefs]
    obtain ⟨s', hrelease, -⟩ := release_zombie (s := drop s rlink (r + 1)) hfree
    have hinval : -derInval ≠ 0 := by decide
    rcases Nat.eq_zero_or_pos n with rfl | hn
    · -- the loop drops every reference
      refine iff_of_false ?_ fun h => absurd h.1 (lt_irrefl 0)
      rintro ⟨s', -, heq⟩
      rw [if_neg (by omega), Option.bind_some] at heq
      simp [hrelease, hinval] at heq
      omega
    · refine iff_of_true ?_ ⟨hn, r.succ_pos⟩
      by_cases hle : n ≤ r
      · rw [if_pos hle, if_pos (by omega), if_neg (by omega)]
        exact ⟨_, rfl, by simp [release]⟩
      · rw [if_neg hle, if_neg (by omega), hrelease]
        have hcount : (n : ℤ) - (r + 1) ≠ 0 ↔ r + 1 < n := by omega
        refine ⟨s', rfl, ?_⟩
        simp only [Option.bind_some, hrelease, Option.map_some, hcount]

theorem hash_ndecref_all :
    let s : HashState := ⟨fun _ => [], fun _ => 2, []⟩
    ∃ s', (HashTable.mk 1 true).decrefs 7 3 s = some s' ∧
      (HashTable.mk 1 true).dHashRecNdecref s 3 7 = some (-derInval, s') :=
  (hash_ndecref_iff (.mk 1 true) ⟨fun _ => [], fun _ => 2, []⟩ 7 3 not_mem_nil (.inl rfl)).mpr
    ⟨by decide, by decide⟩

/-- Nothing is to be dropped, and the record is freed. -/
theorem hash_ndecref_zero :
    let s : HashState := ⟨fun _ => [], fun _ => 2, []⟩
    ∃ s', (HashTable.mk 1 true).dHashRecNdecref s 0 7 = some (-derInval, s') ∧ s'.freed = [7] ∧
      s'.refs 7 = 0 :=
  ⟨_, rfl, rfl, rfl⟩

end Cart
