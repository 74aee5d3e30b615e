/-
Procs: one function for both directions of the wire.

A proc is handed a value and a stream.  Encoding, it appends the value; decoding, it takes
one off the front; freeing, it releases what the value holds.  `Transfers w r P` says that
what the run `w` writes the run `r` reads back, with results related by `P`.

Main results: `Transfers.bind`, `Prim.transfers`, `procEach_transfers`.
-/
import Cart.Faults

open List

namespace Wire

inductive ProcOp where
  | encode
  | decode
  | free
  deriving DecidableEq, Repr

/-- Encoding, what has been written; decoding, what has not been read yet. -/
structure Stream (β : Type) where
  op : ProcOp
  buf : List β
  deriving DecidableEq, Repr

/-- A run of a proc. -/
abbrev Proc (ε β : Type) := StateT (Stream β) (Except ε)

variable {ε β α γ α' γ' : Type} {r : Proc ε β γ} {k : ProcOp → Proc ε β α} {w : Proc ε β α} {a : α}

/-- What the stream is used for. -/
def getOp : Proc ε β ProcOp := fun s => .ok (s.op, s)

/-- A proc of the transport: how it writes and reads a value, and what it leaves
of a value that it frees. -/
structure Prim (β α : Type) where
  encode : α → Option (List β)
  decode : List β → Option (α × List β)
  release : α → α

/-- Running it; `e` is the error of a failure. -/
def Prim.proc (p : Prim β α) (e : ε) (a : α) : Proc ε β α := fun s =>
  match s.op with
  | .encode =>
    match p.encode a with
    | some bs => .ok (a, ⟨.encode, s.buf ++ bs⟩)
    | none => .error e
  | .decode =>
    match p.decode s.buf with
    | some (a', rest) => .ok (a', ⟨.decode, rest⟩)
    | none => .error e
  | .free => .ok (p.release a, s)

/-- What is written for `a` is read back as `a`, and no further. -/
def Prim.RoundTrips (p : Prim β α) (a : α) : Prop :=
  ∀ bs, p.encode a = some bs → ∀ rest, p.decode (bs ++ rest) = some (a, rest)

/-- A value that is sent as its image of `size` bytes. -/
def Prim.ofImage (size : ℕ) (image : α → List β) (value : List β → α) : Prim β α where
  encode a := some (image a)
  decode bs := if size ≤ bs.length then some (value (bs.take size), bs.drop size) else none
  release := id

theorem Prim.ofImage_roundTrips {size : ℕ} {image : α → List β} {value : List β → α}
    (hsize : (image a).length = size) (hvalue : value (image a) = a) :
    (ofImage size image value).RoundTrips a := by
  rintro _ ⟨⟩ rest
  simp [ofImage, hsize.symm, hvalue]

/-- A loop over an array that runs a proc on every entry. -/
def procEach (p : α → Proc ε β α) : List α → Proc ε β (List α)
  | [] => pure []
  | a :: l => do
    let a ← p a
    let l ← procEach p l
    return a :: l

/-! ### Writing and reading back -/

/-- The run takes `bs` off the stream, and comes to `c`. -/
def Reads (r : Proc ε β γ) (bs : List β) (c : γ) : Prop :=
  ∀ rest, r ⟨.decode, bs ++ rest⟩ = .ok (c, ⟨.decode, rest⟩)

/-- What `w` writes, `r` reads back, and the results are related by `P`. -/
def Transfers (w : Proc ε β α) (r : Proc ε β γ) (P : α → γ → Prop) : Prop :=
  ∀ buf a s, w ⟨.encode, buf⟩ = .ok (a, s) →
    ∃ bs c, s = ⟨.encode, buf ++ bs⟩ ∧ Reads r bs c ∧ P a c

theorem Reads.bind {k : γ → Proc ε β γ'} {bs bs' : List β} {c : γ} {c' : γ'}
    (hr : Reads r bs c) (hk : Reads (k c) bs' c') : Reads (r >>= k) (bs ++ bs') c' := by
  intro rest
  have hfirst : r ⟨.decode, bs ++ (bs' ++ rest)⟩ = .ok (c, ⟨.decode, bs' ++ rest⟩) := hr _
  rw [append_assoc]
  show (r ⟨.decode, bs ++ (bs' ++ rest)⟩).bind (fun x => k x.1 x.2) = _
  rw [hfirst]
  exact hk rest

namespace Transfers

variable {P P' : α → γ → Prop} {Q : α' → γ' → Prop}

theorem pure {c : γ} (h : P a c) : Transfers (pure a : Proc ε β α) (pure c : Proc ε β γ) P := by
  rintro buf _ _ ⟨⟩
  exact ⟨[], c, by rw [append_nil], fun rest => rfl, h⟩

theorem mono (h : Transfers w r P) (hP : ∀ a c, P a c → P' a c) : Transfers w r P' := by
  intro buf a s hrun
  obtain ⟨bs, c, hs, hr, hc⟩ := h buf a s hrun
  exact ⟨bs, c, hs, hr, hP a c hc⟩

theorem bind {k : α → Proc ε β α'} {l : γ → Proc ε β γ'} (h : Transfers w r P)
    (hk : ∀ a c, P a c → Transfers (k a) (l c) Q) : Transfers (w >>= k) (r >>= l) Q := by
  intro buf a' s hrun
  obtain ⟨⟨a, t⟩, hw, hka⟩ := Faults.exists_of_bind_eq_ok
    (show (w ⟨.encode, buf⟩).bind (fun x => k x.1 x.2) = .ok (a', s) from hrun)
  obtain ⟨bs, c, rfl, hr, hP⟩ := h buf a t hw
  obtain ⟨bs', c', rfl, hl, hQ⟩ := hk a c hP _ a' s hka
  exact ⟨bs ++ bs', c', by rw [append_assoc], hr.bind hl, hQ⟩

/-- A run that does not return writes nothing that would have to be read. -/
theorem throw (e : ε) (r : Proc ε β γ) : Transfers (throw e : Proc ε β α) r P := by
  rintro buf a s ⟨⟩

theorem getOp_left (h : Transfers (k .encode) r P) : Transfers (getOp >>= k) r P := h

/-- The two sides know which of them they are. -/
theorem getOp_bind {l : ProcOp → Proc ε β γ}
    (h : Transfers (k .encode) (l .decode) P) : Transfers (getOp >>= k) (getOp >>= l) P := h

end Transfers

theorem Prim.transfers {p : Prim β α} (h : p.RoundTrips a) (e e' : ε) (junk : α) :
    Transfers (p.proc e a) (p.proc e' junk) fun b c => b = a ∧ c = a := by
  intro buf b s hrun
  cases henc : p.encode a with
  | none =>
    simp only [proc, henc] at hrun
    cases hrun
  | some bs =>
    simp only [proc, henc] at hrun
    obtain ⟨rfl, rfl⟩ := Prod.mk.inj (Except.ok.inj hrun)
    refine ⟨bs, a, rfl, fun rest => ?_, rfl, rfl⟩
    simp only [proc, h bs henc rest]

theorem procEach_transfers {p : α → Proc ε β α} {l junk : List α} (hlen : junk.length = l.length)
    (hp : ∀ a ∈ l, ∀ j, Transfers (p a) (p j) fun _ c => c = a) :
    Transfers (procEach p l) (procEach p junk) fun _ m => m = l := by
  induction l generalizing junk with
  | nil =>
    obtain rfl := length_eq_zero_iff.mp hlen
    exact .pure rfl
  | cons a l ih =>
    obtain ⟨j, junk, rfl⟩ := exists_cons_of_length_eq_add_one hlen
    refine .bind (hp a mem_cons_self j) fun _ c hc => ?_
    refine .bind (ih (Nat.succ.inj hlen) fun b hb => hp b (mem_cons_of_mem a hb))
      fun _ m hm => ?_
    exact .pure (by rw [hc, hm])

/-! ### Numbers in memory -/

/-- The `width` bytes of a number, the lowest one first. -/
def leBytes : ℕ → ℕ → List UInt8
  | 0, _ => []
  | width + 1, x => UInt8.ofNat x :: leBytes width (x / 256)

/-- The number with these bytes. -/
def ofLeBytes : List UInt8 → ℕ
  | [] => 0
  | b :: bs => b.toNat + 256 * ofLeBytes bs

@[simp] theorem length_leBytes (width x : ℕ) : (leBytes width x).length = width := by
  induction width generalizing x with
  | zero => rfl
  | succ width ih => rw [leBytes, length_cons, ih]

theorem ofLeBytes_leBytes (width x : ℕ) : ofLeBytes (leBytes width x) = x % 256 ^ width := by
  induction width generalizing x with
  | zero => simp [leBytes, ofLeBytes, Nat.mod_one]
  | succ width ih =>
    rw [leBytes, ofLeBytes, ih, pow_succ', Nat.mod_mul]
    rfl

@[simp] theorem ofLeBytes_uint32 (x : UInt32) :
    UInt32.ofNat (ofLeBytes (leBytes 4 x.toNat)) = x := by
  rw [ofLeBytes_leBytes, Nat.mod_eq_of_lt (show x.toNat < 256 ^ 4 from x.toNat_lt),
    UInt32.ofNat_toNat]

@[simp] theorem ofLeBytes_uint64 (x : UInt64) :
    UInt64.ofNat (ofLeBytes (leBytes 8 x.toNat)) = x := by
  rw [ofLeBytes_leBytes, Nat.mod_eq_of_lt (show x.toNat < 256 ^ 8 from x.toNat_lt),
    UInt64.ofNat_toNat]

/-- Words sent as they are in memory. -/
def Prim.le32 : Prim UInt8 UInt32 :=
  .ofImage 4 (fun x => leBytes 4 x.toNat) fun bs => .ofNat (ofLeBytes bs)

def Prim.le64 : Prim UInt8 UInt64 :=
  .ofImage 8 (fun x => leBytes 8 x.toNat) fun bs => .ofNat (ofLeBytes bs)

theorem Prim.le32_roundTrips (x : UInt32) : le32.RoundTrips x :=
  ofImage_roundTrips (length_leBytes 4 x.toNat) (ofLeBytes_uint32 x)

theorem Prim.le64_roundTrips (x : UInt64) : le64.RoundTrips x :=
  ofImage_roundTrips (length_leBytes 8 x.toNat) (ofLeBytes_uint64 x)

end Wire
