/-
C values and outcomes.

The library is C code over `uint32_t` and `int`.  A `uint32_t` is a natural
number whose intermediate results are reduced by `u32`; a return code is an
integer, `0` for success; a function that can fail returns `Except Stop α`,
where `Stop` tells a returned error code from a failed `D_ASSERT`.
-/
import Mathlib.Tactic

namespace Cart

/-- `uint32_t` arithmetic: the stored value of an intermediate result. -/
def u32 (x : ℕ) : ℕ := x % 2 ^ 32

theorem u32_of_lt {x : ℕ} (h : x < 2 ^ 32) : u32 x = x := Nat.mod_eq_of_lt h

/-- The same for `uint64_t`. -/
def u64 (x : ℕ) : ℕ := x % 2 ^ 64

theorem u64_of_lt {x : ℕ} (h : x < 2 ^ 64) : u64 x = x := Nat.mod_eq_of_lt h

/-- A failed `D_ASSERT`, a `NULL` pointer that is followed, or a non-zero return code. -/
inductive Stop where
  | assertFail
  | nullDeref
  | rc (code : ℤ)
  deriving DecidableEq, Repr

/-- `D_ASSERT(p)`. -/
def dAssert (p : Prop) [Decidable p] : Except Stop Unit :=
  if p then .ok () else .error .assertFail

@[simp] theorem dAssert_true {p : Prop} [Decidable p] (h : p) : dAssert p = .ok () := by
  rw [dAssert, if_pos h]

/-! ### Error codes (`gurt/errno.h`) -/

def derErrGurtBase : ℤ := 1000

def derNoPerm : ℤ := derErrGurtBase + 1

def derInval : ℤ := derErrGurtBase + 3

def derExist : ℤ := derErrGurtBase + 4

def derNonexist : ℤ := derErrGurtBase + 5

def derUnreach : ℤ := derErrGurtBase + 6

def derAlready : ℤ := derErrGurtBase + 8

def derNomem : ℤ := derErrGurtBase + 9

def derNosys : ℤ := derErrGurtBase + 10

def derTimedout : ℤ := derErrGurtBase + 11

def derProto : ℤ := derErrGurtBase + 14

def derUninit : ℤ := derErrGurtBase + 15

def derCanceled : ℤ := derErrGurtBase + 18

def derOog : ℤ := derErrGurtBase + 19

def derHg : ℤ := derErrGurtBase + 20

def derUnreg : ℤ := derErrGurtBase + 21

def derMisc : ℤ := derErrGurtBase + 25

def derEvicted : ℤ := derErrGurtBase + 32

def derDos : ℤ := derErrGurtBase + 34

def derBadTarget : ℤ := derErrGurtBase + 35

def derGrpver : ℤ := derErrGurtBase + 36

/-- The `d_rank_t` that is no rank. -/
def crtNoRank : ℕ := 0xFFFFFFFF

end Cart
