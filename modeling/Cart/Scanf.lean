/-
Reading text as `fscanf` does, in the terms of C99.

A format is a list of directives: white space, `%d`, `%s` with a width, and `%*s`, executed in
turn until one fails.  A failure of the input before any conversion is the end of the file for
the caller; otherwise they get what has been assigned so far, and the text that is left.  The
text is also a list of words, and the lemmas say how directives act on these.
-/
import Mathlib.Data.List.Basic
import Mathlib.Tactic

open List

namespace Scanf

variable {c : Char} {z : ℤ} {width : ℕ} {w r t u : List Char} {ws : List (List Char)}

def isSpace (c : Char) : Bool := c.toNat == 32 || (decide (9 ≤ c.toNat) && decide (c.toNat ≤ 13))

/-- By the characters of the word, not by all there are. -/
instance (w : List Char) : Decidable (∀ c ∈ w, isSpace c = false) :=
  w.decidableBAll (isSpace · = false)

/-- What a format is made of. -/
inductive Directive where
  | space
  | int
  | word (width : ℕ)
  | skipWord
  deriving DecidableEq, Repr

/-- A value that is assigned to an argument. -/
inductive Value where
  | int (z : ℤ)
  | word (w : List Char)
  deriving DecidableEq, Repr

/-- How a call ends: whether it returns `EOF`, what it has assigned, and what is
left of the text. -/
structure Result where
  eof : Bool
  assigned : List Value
  rest : List Char
  deriving DecidableEq, Repr

def skipSpace (t : List Char) : List Char := t.dropWhile isSpace

def firstWord (t : List Char) : List Char := t.takeWhile fun c => !isSpace c

/-- A sign, if there is one, and what follows it. -/
def sign : List Char → ℤ × List Char
  | [] => (1, [])
  | c :: t => if c = '-' then (-1, t) else if c = '+' then (1, t) else (1, c :: t)

/-- The longest beginning of an integer. A sign alone is consumed, but is none. -/
def scanInt (t : List Char) : Option ℤ × List Char :=
  let digits := (sign t).2.takeWhile Char.isDigit
  (if digits = [] then none else some ((sign t).1 * (Nat.ofDigitChars 10 digits 0 : ℕ)),
    (sign t).2.dropWhile Char.isDigit)

/-- The directives that are left, when some conversions may have been made. -/
def scan (converted : Bool) (assigned : List Value) : List Directive → List Char → Result
  | [], t => ⟨false, assigned, t⟩
  | .space :: ds, t => scan converted assigned ds (skipSpace t)
  | .int :: ds, t =>
    if skipSpace t = [] then ⟨!converted, assigned, []⟩
    else
      match (scanInt (skipSpace t)).1 with
      | none => ⟨false, assigned, (scanInt (skipSpace t)).2⟩
      | some z => scan true (assigned ++ [.int z]) ds (scanInt (skipSpace t)).2
  | .word width :: ds, t =>
    if skipSpace t = [] then ⟨!converted, assigned, []⟩
    else
      let w := (firstWord (skipSpace t)).take width
      scan true (assigned ++ [.word w]) ds ((skipSpace t).drop w.length)
  | .skipWord :: ds, t =>
    if skipSpace t = [] then ⟨!converted, assigned, []⟩
    else scan true assigned ds ((skipSpace t).drop (firstWord (skipSpace t)).length)

def fscanf (ds : List Directive) (t : List Char) : Result := scan false [] ds t

/-- What `%d` prints. -/
def printInt (z : ℤ) : List Char :=
  if z < 0 then '-' :: Nat.toDigits 10 z.natAbs else Nat.toDigits 10 z.natAbs

/-! ### Words -/

/-- The words of a text. -/
def words (t : List Char) : List (List Char) := (t.splitOnP isSpace).filter fun w => !w.isEmpty

/-- `w` is a word, and it ends where `r` begins. -/
structure WordAt (w r : List Char) : Prop where
  ne_nil : w ≠ []
  solid : ∀ c ∈ w, isSpace c = false
  ends : ∀ c ∈ r.head?, isSpace c = true

theorem isSpace_of_isDigit (h : c.isDigit = true) : isSpace c = false := by
  obtain ⟨h1, _⟩ := Char.isDigit_iff_toNat.mp h
  have h0 : '0'.toNat = 48 := rfl
  simp only [isSpace, Bool.or_eq_false_iff, beq_eq_false_iff_ne, Bool.and_eq_false_iff,
    decide_eq_false_iff_not]
  omega

/-- Taking and dropping stop where the word ends. -/
theorem takeWhile_append_stop {p : Char → Bool} (h : ∀ c ∈ r.head?, p c = false) :
    (w ++ r).takeWhile p = w.takeWhile p ∧ (w ++ r).dropWhile p = w.dropWhile p ++ r := by
  induction w with
  | nil =>
    cases r with
    | nil => exact ⟨rfl, rfl⟩
    | cons c r =>
      have hc := h c rfl
      rw [nil_append, takeWhile_cons_of_neg (by rw [hc]; decide),
        dropWhile_cons_of_neg (by rw [hc]; decide)]
      exact ⟨rfl, rfl⟩
  | cons c w ih =>
    rw [cons_append]
    by_cases hc : p c = true
    · rw [takeWhile_cons_of_pos hc, dropWhile_cons_of_pos hc, takeWhile_cons_of_pos hc,
        dropWhile_cons_of_pos hc, ih.1, ih.2]
      exact ⟨rfl, rfl⟩
    · rw [takeWhile_cons_of_neg hc, dropWhile_cons_of_neg hc, takeWhile_cons_of_neg hc,
        dropWhile_cons_of_neg hc]
      exact ⟨rfl, rfl⟩

theorem isSpace_of_skipSpace (h : skipSpace t = []) : ∀ c ∈ t, isSpace c = true := by
  have heq : t.takeWhile isSpace = t := by
    have hsplit := takeWhile_append_dropWhile (p := isSpace) (l := t)
    rwa [show t.dropWhile isSpace = [] from h, append_nil] at hsplit
  rw [← heq]
  exact all_eq_true.mp all_takeWhile

theorem words_cons_space (h : isSpace c = true) (t : List Char) : words (c :: t) = words t := by
  rw [words, splitOnP_cons_eq_if_modifyHead, if_pos h]
  rfl

theorem words_skipSpace (t : List Char) : words (skipSpace t) = words t := by
  induction t with
  | nil => rfl
  | cons c t ih =>
    by_cases hc : isSpace c = true
    · rw [skipSpace, dropWhile_cons_of_pos hc, words_cons_space hc]
      exact ih
    · rw [skipSpace, dropWhile_cons_of_neg hc]

section

variable {w r : List Char}

theorem WordAt.skipSpace_append (h : WordAt w r) : skipSpace (w ++ r) = w ++ r := by
  cases w with
  | nil => exact absurd rfl h.ne_nil
  | cons c w =>
    have hc := h.solid c (mem_cons_self)
    rw [skipSpace, cons_append, dropWhile_cons_of_neg (by rw [hc]; decide)]

theorem WordAt.append_ne_nil (h : WordAt w r) : skipSpace (w ++ r) ≠ [] := by
  rw [h.skipSpace_append]
  exact fun hc => h.ne_nil (append_eq_nil_iff.mp hc).1

theorem WordAt.firstWord_append (h : WordAt w r) : firstWord (w ++ r) = w := by
  have hr : (r.takeWhile fun c => !isSpace c) = [] := by
    cases r with
    | nil => rfl
    | cons c r => exact takeWhile_cons_of_neg (by rw [h.ends c rfl]; decide)
  rw [firstWord, takeWhile_append_of_pos fun c hc => by rw [h.solid c hc]; rfl, hr,
    append_nil]

theorem WordAt.words_append (h : WordAt w r) : words (w ++ r) = w :: words r := by
  have hne : ∀ l, filter (fun w : List Char => !w.isEmpty) (w :: l) =
      w :: l.filter fun w => !w.isEmpty := by
    intro l
    refine filter_cons_of_pos ?_
    rw [Bool.not_eq_true', isEmpty_eq_false_iff]
    exact h.ne_nil
  cases r with
  | nil =>
    rw [append_nil, words, splitOnP_eq_singleton h.solid, hne]
    rfl
  | cons c r =>
    have hc := h.ends c rfl
    rw [words, splitOnP_append_cons_of_forall_mem h.solid c hc,
      hne, words_cons_space hc]
    rfl

/-- A word that is followed by white space. -/
theorem words_append_cons (hne : w ≠ []) (hsolid : ∀ c ∈ w, isSpace c = false)
    (hc : isSpace c = true) (t : List Char) : words (w ++ c :: t) = w :: words t := by
  have hat : WordAt w (c :: t) := ⟨hne, hsolid, fun d hd => by cases hd; exact hc⟩
  rw [hat.words_append, words_cons_space hc]

/-- A word that has lost its beginning. -/
theorem WordAt.suffix (h : WordAt w r) (hu : u ≠ []) (hsuffix : u <:+ w) : WordAt u r :=
  ⟨hu, fun c hc => h.solid c (hsuffix.mem hc), h.ends⟩

end

theorem exists_wordAt (h : skipSpace t ≠ []) :
    ∃ w r, skipSpace t = w ++ r ∧ WordAt w r ∧ words t = w :: words r := by
  have heq : skipSpace t = firstWord (skipSpace t) ++ (skipSpace t).dropWhile fun c => !isSpace c :=
    takeWhile_append_dropWhile.symm
  have hat : WordAt (firstWord (skipSpace t)) ((skipSpace t).dropWhile fun c => !isSpace c) := by
    refine ⟨?_, ?_, ?_⟩
    · have hhead := head_dropWhile_not isSpace h
      cases ht : skipSpace t with
      | nil => exact absurd ht h
      | cons c u =>
        have hc : isSpace c = false := by
          simp only [skipSpace] at ht
          simpa only [ht, head_cons] using hhead
        rw [firstWord, takeWhile_cons_of_pos (by rw [hc]; rfl)]
        exact cons_ne_nil _ _
    · intro c hc
      have hall := all_eq_true.mp (all_takeWhile (p := fun c => !isSpace c)) c hc
      simpa using hall
    · intro c hc
      have hnot := head?_dropWhile_not (fun c => !isSpace c) (skipSpace t)
      rw [Option.mem_def] at hc
      rw [hc] at hnot
      simpa using hnot
  refine ⟨_, _, heq, hat, ?_⟩
  rw [← words_skipSpace t]
  exact (congrArg words heq).trans hat.words_append

theorem words_eq_nil_iff (t : List Char) : words t = [] ↔ skipSpace t = [] := by
  constructor
  · intro hnil
    by_contra hne
    obtain ⟨w, r, _, _, hwords⟩ := exists_wordAt hne
    rw [hnil] at hwords
    cases hwords
  · intro hnil
    rw [← words_skipSpace, hnil]
    rfl

/-! ### Integers -/

theorem sign_append (h : w ≠ []) (r : List Char) :
    sign (w ++ r) = ((sign w).1, (sign w).2 ++ r) := by
  cases w with
  | nil => exact absurd rfl h
  | cons c w =>
    rw [cons_append, sign, sign]
    split
    · rfl
    · split
      · rfl
      · rfl

theorem sign_suffix (t : List Char) : (sign t).2 <:+ t := by
  cases t with
  | nil => exact suffix_refl _
  | cons c t =>
    rw [sign]
    split
    · exact suffix_cons c t
    · split
      · exact suffix_cons c t
      · exact suffix_refl _

theorem scanInt_suffix (t : List Char) : (scanInt t).2 <:+ t :=
  (dropWhile_suffix _).trans (sign_suffix t)

/-- An integer ends where the word does, if not earlier. -/
theorem WordAt.scanInt_append (h : WordAt w r) :
    scanInt (w ++ r) = ((scanInt w).1, (scanInt w).2 ++ r) := by
  have hstop : ∀ c ∈ r.head?, c.isDigit = false := by
    intro c hc
    by_contra hdigit
    rw [Bool.not_eq_false] at hdigit
    have hspace := h.ends c hc
    rw [isSpace_of_isDigit hdigit] at hspace
    cases hspace
  obtain ⟨htake, hdrop⟩ := takeWhile_append_stop (w := (sign w).2) hstop
  simp only [scanInt, sign_append h.ne_nil, htake, hdrop]

/-- A word that is an integer. -/
def numeral (w : List Char) : Option ℤ := if (scanInt w).2 = [] then (scanInt w).1 else none

theorem scanInt_of_numeral (h : numeral w = some z) : scanInt w = (some z, []) := by
  rw [numeral] at h
  split at h
  · rename_i hrest
    rw [← h, ← hrest]
  · cases h

theorem numeral_printInt (z : ℤ) : numeral (printInt z) = some z := by
  have hdigits : ∀ c ∈ Nat.toDigits 10 z.natAbs, c.isDigit = true := fun c hc =>
    Nat.isDigit_of_mem_toDigits (by decide) (by decide) hc
  have htake : (Nat.toDigits 10 z.natAbs).takeWhile Char.isDigit = Nat.toDigits 10 z.natAbs := by
    rw [← append_nil (Nat.toDigits 10 z.natAbs), takeWhile_append_of_pos hdigits]
    rfl
  have hdrop : (Nat.toDigits 10 z.natAbs).dropWhile Char.isDigit = [] := by
    rw [← append_nil (Nat.toDigits 10 z.natAbs), dropWhile_append_of_pos hdigits]
    rfl
  have hvalue : Nat.ofDigitChars 10 (Nat.toDigits 10 z.natAbs) 0 = z.natAbs :=
    Nat.ofDigitChars_toDigits (by decide) (by decide)
  have hsign : sign (printInt z) = (if z < 0 then -1 else 1, Nat.toDigits 10 z.natAbs) := by
    rw [printInt]
    by_cases hz : z < 0
    · rw [if_pos hz, if_pos hz, sign, if_pos rfl]
    · rw [if_neg hz, if_neg hz]
      cases hd : Nat.toDigits 10 z.natAbs with
      | nil => rfl
      | cons c t =>
        have hc : c.isDigit = true := hdigits c (hd ▸ mem_cons_self)
        rw [sign, if_neg ?_, if_neg ?_]
        · rintro rfl
          cases hc
        · rintro rfl
          cases hc
  simp only [numeral, scanInt, hsign, htake, hdrop, if_true, if_neg Nat.toDigits_ne_nil, hvalue]
  congr 1
  split <;> omega

theorem wordAt_printInt (z : ℤ) (h : ∀ c ∈ r.head?, isSpace c = true) : WordAt (printInt z) r := by
  refine ⟨?_, ?_, h⟩
  · rw [printInt]
    split
    · exact cons_ne_nil _ _
    · exact Nat.toDigits_ne_nil
  · intro c hc
    have hdigits : c ∈ Nat.toDigits 10 z.natAbs → isSpace c = false := fun hmem =>
      isSpace_of_isDigit (Nat.isDigit_of_mem_toDigits (by decide) (by decide) hmem)
    rw [printInt] at hc
    split at hc
    · rcases mem_cons.mp hc with rfl | hmem
      · rfl
      · exact hdigits hmem
    · exact hdigits hc

/-! ### Directives -/

section

variable {w r t : List Char} {converted : Bool} {assigned : List Value} {ds : List Directive}
  {ws : List (List Char)}

theorem skipSpace_cons (h : isSpace c = true) (t : List Char) : skipSpace (c :: t) = skipSpace t :=
  dropWhile_cons_of_pos h

theorem skipSpace_skipSpace (t : List Char) : skipSpace (skipSpace t) = skipSpace t := by
  by_cases h : skipSpace t = []
  · rw [h]
    rfl
  · obtain ⟨w, r, heq, hat, _⟩ := exists_wordAt h
    rw [heq, hat.skipSpace_append]

/-- A directive for a number that finds one. -/
theorem WordAt.scan_int (h : WordAt w r) (hz : numeral w = some z) :
    scan converted assigned (.int :: ds) (w ++ r) = scan true (assigned ++ [.int z]) ds r := by
  rw [scan, if_neg h.append_ne_nil, h.skipSpace_append, h.scanInt_append, scanInt_of_numeral hz]
  rfl

/-- A directive for a word takes as much of it as it may. -/
theorem WordAt.scan_word_take (h : WordAt w r) (width : ℕ) :
    scan converted assigned (.word width :: ds) (w ++ r) =
      scan true (assigned ++ [.word (w.take width)]) ds (w.drop width ++ r) := by
  have hsplit : w ++ r = w.take width ++ (w.drop width ++ r) := by
    rw [← append_assoc, take_append_drop]
  have hdrop : (w ++ r).drop (w.take width).length = w.drop width ++ r := by
    rw [hsplit, drop_left]
  rw [scan, if_neg h.append_ne_nil, h.skipSpace_append, h.firstWord_append]
  simp only [hdrop]

theorem WordAt.scan_word (h : WordAt w r) (hw : w.length ≤ width) :
    scan converted assigned (.word width :: ds) (w ++ r) =
      scan true (assigned ++ [.word w]) ds r := by
  rw [h.scan_word_take, take_of_length_le hw, drop_of_length_le hw, nil_append]

theorem WordAt.scan_skipWord (h : WordAt w r) :
    scan converted assigned (.skipWord :: ds) (w ++ r) = scan true assigned ds r := by
  rw [scan, if_neg h.append_ne_nil, h.skipSpace_append, h.firstWord_append, drop_left]

theorem scan_skipSpace (d : Directive) (t : List Char) :
    scan converted assigned (d :: ds) (skipSpace t) = scan converted assigned (d :: ds) t := by
  cases d with
  | space | int | word width | skipWord => rw [scan, scan, skipSpace_skipSpace]

theorem scan_cons_space (d : Directive) (h : isSpace c = true) (t : List Char) :
    scan converted assigned (d :: ds) (c :: t) = scan converted assigned (d :: ds) t := by
  rw [← scan_skipSpace d (c :: t), skipSpace_cons h, scan_skipSpace]

section

variable (h : words t = w :: ws)

include h

/-- The text begins with its first word, but for white space. -/
theorem exists_of_words : ∃ r, skipSpace t = w ++ r ∧ WordAt w r ∧ words r = ws := by
  have hne : skipSpace t ≠ [] := fun hc => by
    rw [(words_eq_nil_iff t).mpr hc] at h
    cases h
  obtain ⟨w', r, heq, hat, hwords⟩ := exists_wordAt hne
  obtain ⟨rfl, hr⟩ := cons.inj (h.symm.trans hwords)
  exact ⟨r, heq, hat, hr.symm⟩

theorem scan_int_of_words (hz : numeral w = some z) : ∃ r, words r = ws ∧ ∀ converted assigned ds,
      scan converted assigned (.int :: ds) t = scan true (assigned ++ [.int z]) ds r := by
  obtain ⟨r, heq, hat, hr⟩ := exists_of_words h
  refine ⟨r, hr, fun converted assigned ds => ?_⟩
  rw [← scan_skipSpace, heq, hat.scan_int hz]

theorem scan_word_of_words (hw : w.length ≤ width) : ∃ r, words r = ws ∧ ∀ converted assigned ds,
      scan converted assigned (.word width :: ds) t = scan true (assigned ++ [.word w]) ds r := by
  obtain ⟨r, heq, hat, hr⟩ := exists_of_words h
  refine ⟨r, hr, fun converted assigned ds => ?_⟩
  rw [← scan_skipSpace, heq, hat.scan_word hw]

theorem scan_skipWord_of_words : ∃ r, words r = ws ∧ ∀ converted assigned ds,
      scan converted assigned (.skipWord :: ds) t = scan true assigned ds r := by
  obtain ⟨r, heq, hat, hr⟩ := exists_of_words h
  refine ⟨r, hr, fun converted assigned ds => ?_⟩
  rw [← scan_skipSpace, heq, hat.scan_skipWord]

end

end

/-! ### A number and a word -/

/-- The words are numbers and words of a bounded length in turn, and these are the
pairs. -/
inductive Paired (width : ℕ) : List (List Char) → List (ℤ × List Char) → Prop
  | nil : Paired width [] []
  | cons {w v : List Char} {z : ℤ} {ws : List (List Char)} {ps : List (ℤ × List Char)}
      (hz : numeral w = some z) (hv : v.length ≤ width) (hps : Paired width ws ps) :
      Paired width (w :: v :: ws) ((z, v) :: ps)

theorem Paired.length_eq {ps : List (ℤ × List Char)}
    (h : Paired width ws ps) : ws.length = 2 * ps.length := by
  induction h with
  | nil => rfl
  | cons hz hv hps ih =>
    rw [length_cons, length_cons, length_cons, ih]
    omega

section

variable {t : List Char} (width : ℕ)

theorem length_words_append (h : WordAt w r) (hsuffix : u <:+ w) :
    (words r).length ≤ (words (u ++ r)).length := by
  by_cases hu : u = []
  · rw [hu, nil_append]
  · rw [(h.suffix hu hsuffix).words_append]
    exact Nat.le_succ _

theorem fscanf_pair_blank (h : words t = []) :
    fscanf [.int, .space, .word width] t = ⟨true, [], []⟩ := by
  rw [fscanf, scan, if_pos ((words_eq_nil_iff t).mp h)]
  rfl

/-- The format takes two words if the first one is a number and the second one is
not too long. -/
theorem fscanf_pair_of_words {v : List Char}
    (h : words t = w :: v :: ws) (hz : numeral w = some z) (hv : v.length ≤ width) :
    ∃ rest, fscanf [.int, .space, .word width] t = ⟨false, [.int z, .word v], rest⟩ ∧
      words rest = ws := by
  obtain ⟨r, hr, hint⟩ := scan_int_of_words h hz
  obtain ⟨rest, hrest, hword⟩ := scan_word_of_words ((words_skipSpace r).trans hr) hv
  refine ⟨rest, ?_, hrest⟩
  rw [fscanf, hint, scan, hword]
  rfl

/-- On a text that is not blank, the format takes two whole words or it leaves all
but one. -/
theorem fscanf_pair (h : words t ≠ []) :
    ∃ assigned rest, fscanf [.int, .space, .word width] t = ⟨false, assigned, rest⟩ ∧
      ((∃ w v z, words t = w :: v :: words rest ∧ numeral w = some z ∧ v.length ≤ width ∧
          assigned = [.int z, .word v]) ∨
        (words t).length ≤ (words rest).length + 1) := by
  obtain ⟨w, r, heq, hat, hwords⟩ := exists_wordAt fun hc => h ((words_eq_nil_iff t).mpr hc)
  have hsuffix := scanInt_suffix w
  rw [hwords, length_cons]
  cases hint : (scanInt w).1 with
  | none =>
    refine ⟨[], (scanInt w).2 ++ r, ?_, .inr ?_⟩
    · rw [fscanf, ← scan_skipSpace, heq, scan, if_neg hat.append_ne_nil, hat.skipSpace_append,
        hat.scanInt_append, hint]
    · exact Nat.succ_le_succ (length_words_append hat hsuffix)
  | some z =>
    have hscan : fscanf [.int, .space, .word width] t =
        scan true [.int z] [.word width] (skipSpace ((scanInt w).2 ++ r)) := by
      rw [fscanf, ← scan_skipSpace, heq, scan, if_neg hat.append_ne_nil, hat.skipSpace_append,
        hat.scanInt_append, hint, scan]
      rfl
    rw [hscan, scan_skipSpace]
    by_cases hu : (scanInt w).2 = []
    · -- the first word is a number
      have hz : numeral w = some z := by rw [numeral, if_pos hu, hint]
      rw [hu, nil_append]
      by_cases hr : skipSpace r = []
      · refine ⟨[.int z], [], ?_, .inr ?_⟩
        · rw [scan, if_pos hr]
          rfl
        · rw [(words_eq_nil_iff r).mpr hr]
          exact Nat.le_refl 1
      · obtain ⟨v, r', heq', hat', hwords'⟩ := exists_wordAt hr
        rw [← scan_skipSpace, heq', hat'.scan_word_take, hwords']
        refine ⟨_, _, rfl, ?_⟩
        by_cases hv : v.length ≤ width
        · rw [take_of_length_le hv, drop_of_length_le hv, nil_append]
          exact .inl ⟨w, v, z, rfl, hz, hv, rfl⟩
        · have hlong : v.drop width ≠ [] := fun hc => hv (drop_eq_nil_iff.mp hc)
          rw [(hat'.suffix hlong (drop_suffix width v)).words_append]
          exact .inr (Nat.le_refl _)
    · rw [(hat.suffix hu hsuffix).scan_word_take]
      refine ⟨_, _, rfl, .inr (Nat.succ_le_succ ?_)⟩
      exact length_words_append hat ((drop_suffix _ _).trans hsuffix)

end

end Scanf
