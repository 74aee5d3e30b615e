/-
Group ids (`crt_group.c`).

A group id is a string of at most 64 printable characters.  This is what
`crt_validate_grpid` lets pass; what creates a group and what compares two ids
assert that they are shorter.

Main result: `crtGrpPrivCreate_iff`.
-/
import Cart.Basic

namespace Cart

def crtGroupIdMaxLen : ℕ := 64

def crtDefaultGrpid : List Char := "crt_default_group".toList

/-- A character that cannot be printed, a semicolon, a quote, or a backslash. -/
def badGrpidChar (c : Char) : Bool :=
  c.toNat < 32 || 126 < c.toNat || c.toNat == 59 || c.toNat == 34 || c.toNat == 96 ||
    c.toNat == 39 || c.toNat == 92

def crtValidateGrpid (grpid : List Char) : ℤ :=
  if grpid.length = 0 ∨ crtGroupIdMaxLen < grpid.length then -derInval
  else if grpid.any badGrpidChar then -derInval
  else 0

/-- What `crt_grp_priv_create` and `crt_grp_id_identical` assert of an id. -/
def GrpIdFits (grpid : List Char) : Prop := 0 < grpid.length ∧ grpid.length < crtGroupIdMaxLen
deriving Decidable

def crtGrpIdIdentical (grpId₁ grpId₂ : List Char) : Except Stop Bool := do
  dAssert (GrpIdFits grpId₁)
  dAssert (GrpIdFits grpId₂)
  return grpId₁ = grpId₂

/-- As far as the id is concerned. -/
def crtGrpPrivCreate (rc : ℤ) (grpId : List Char) : Except Stop (List Char) := do
  dAssert (GrpIdFits grpId)
  if rc ≠ 0 then throw (.rc rc)
  return grpId.take (crtGroupIdMaxLen + 1)

/-- The id of the group it finds. -/
def crtGroupLookup (primary : List Char) (ids : List (List Char)) (grpId : List Char) :
    Except Stop (Option (List Char)) := do
  if crtValidateGrpid grpId ≠ 0 then return none
  if ← crtGrpIdIdentical primary grpId then return some primary
  let rec search : List (List Char) → Except Stop (Option (List Char))
    | [] => return none
    | id :: ids => do
      if ← crtGrpIdIdentical id grpId then return some id
      search ids
  search ids

theorem crtValidateGrpid_eq_zero_iff (grpid : List Char) : crtValidateGrpid grpid = 0 ↔
      0 < grpid.length ∧ grpid.length ≤ crtGroupIdMaxLen ∧ ∀ c ∈ grpid, badGrpidChar c = false := by
  rw [crtValidateGrpid]
  by_cases hlen : grpid.length = 0 ∨ crtGroupIdMaxLen < grpid.length
  · rw [if_pos hlen]
    refine iff_of_false (by decide) ?_
    rintro ⟨hpos, hle, _⟩
    omega
  · rw [if_neg hlen]
    split_ifs with hany
    · refine iff_of_false (by decide) ?_
      rintro ⟨_, _, hgood⟩
      obtain ⟨c, hc, hbad⟩ := List.any_eq_true.mp hany
      rw [hgood c hc] at hbad
      cases hbad
    · rw [List.any_eq_true, not_exists] at hany
      refine iff_of_true rfl ⟨by omega, by omega, fun c hc => ?_⟩
      exact Bool.eq_false_iff.mpr fun hbad => hany c ⟨hc, hbad⟩

/-- **A group with an accepted id** can be created just if the id has less than 64
characters; it keeps the id. -/
theorem crtGrpPrivCreate_iff {grpid : List Char} (hvalid : crtValidateGrpid grpid = 0) :
    crtGrpPrivCreate 0 grpid = .ok grpid ↔ grpid.length < crtGroupIdMaxLen := by
  obtain ⟨hpos, hle, _⟩ := (crtValidateGrpid_eq_zero_iff grpid).mp hvalid
  by_cases hlt : grpid.length < crtGroupIdMaxLen
  · refine iff_of_true ?_ hlt
    rw [crtGrpPrivCreate, dAssert_true ⟨hpos, hlt⟩]
    show Except.ok (grpid.take (crtGroupIdMaxLen + 1)) = .ok grpid
    rw [List.take_of_length_le (by omega)]
  · refine iff_of_false ?_ hlt
    have hassert : dAssert (GrpIdFits grpid) = .error .assertFail := if_neg fun hc => hlt hc.2
    rw [crtGrpPrivCreate, hassert]
    exact fun hc => by cases hc

theorem crtGroupLookup_primary {grpid : List Char} (hvalid : crtValidateGrpid grpid = 0)
    (hlt : grpid.length < crtGroupIdMaxLen) (ids : List (List Char)) :
    crtGroupLookup grpid ids grpid = .ok (some grpid) := by
  obtain ⟨hpos, _, _⟩ := (crtValidateGrpid_eq_zero_iff grpid).mp hvalid
  have hsame : crtGrpIdIdentical grpid grpid = .ok true := by
    rw [crtGrpIdIdentical, dAssert_true ⟨hpos, hlt⟩]
    simp [bind, Except.bind, pure, Except.pure]
  rw [crtGroupLookup, if_neg (not_not.mpr hvalid), hsame]
  rfl

end Cart
