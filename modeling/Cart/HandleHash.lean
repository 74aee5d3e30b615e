/-
Handles (`gurt/hash.c`).

A handle table that is not pointer-based makes the key of a link from a counter and the type, in
the low bits, at every insertion.  No key comes twice, and a key finds its link until the link is
deleted, if nobody drops a reference that is not theirs and no count wraps.

Main results: `handle_hash`, `handle_hash_wraps`.
-/
import Cart.HashDecref
import Cart.Lts
import Mathlib.Data.Nat.Bitwise

open Function List Option

namespace Cart

/-- `struct d_hhash`, and the keys of the links. -/
structure DHhash where
  chHtable : HashState
  chCookie : ℕ
  hlKey : ℕ → ℕ

def dHtypeBits : ℕ := 4

def dHhashKeyIsptr (key : ℕ) : Bool := key &&& 1 = 0

/-- `D_HTYPE_PTR` is 0. -/
def dHhashKeyType (key : ℕ) : ℕ :=
  if dHhashKeyIsptr key then 0 else key &&& (2 ^ dHtypeBits - 1)

namespace DHhash

variable (bits : ℕ) (s : DHhash)

/-- The table has references of its own. -/
def table : HashTable := ⟨bits, false⟩

/-- `ch_key_hash` with `hh_op_key_hash`. -/
def chKeyHash (key : ℕ) : ℕ := u32 (key >>> dHtypeBits) % 2 ^ bits

/-- With the references and keys of the links there are. -/
def dHhashCreate (refs hlKey : ℕ → ℕ) : DHhash := ⟨⟨fun _ => [], refs, []⟩, 1, hlKey⟩

def hhOpKeyInit (link type : ℕ) : DHhash :=
  { s with
    hlKey := update s.hlKey link (u64 (s.chCookie <<< dHtypeBits) ||| type)
    chCookie := u64 (s.chCookie + 1) }

def chRecAddref (link : ℕ) : DHhash :=
  { s with chHtable.refs := update s.chHtable.refs link (u32 (s.chHtable.refs link + 1)) }

/-- `d_hash_rec_insert_anonym`. -/
def dHhashLinkInsert (link type : ℕ) : DHhash :=
  let s := (s.hhOpKeyInit link type).chRecAddref link
  let idx := chKeyHash bits (s.hlKey link)
  { s with chHtable.htBuckets := update s.chHtable.htBuckets idx (link :: s.chHtable.htBuckets idx) }

def dHhashLinkLookup (key : ℕ) : Option ℕ × DHhash :=
  if dHhashKeyIsptr key then (none, s)
  else match (s.chHtable.htBuckets (chKeyHash bits key)).find? fun link => s.hlKey link = key with
    | none => (none, s)
    | some link => (some link, s.chRecAddref link)

/-- Whether a link was deleted; `none` if there is no reference to drop. -/
def dHhashLinkDelete (link : ℕ) : Option (Bool × DHhash) :=
  if dHhashKeyIsptr (s.hlKey link) ∨ ¬ (table bits).Linked s.chHtable link then some (false, s)
  else ((table bits).dHashRecDecref (HashTable.chRecDelete s.chHtable link) link).map
    fun htable => (true, { s with chHtable := htable })

def dHhashLinkPutref (link : ℕ) : Option DHhash :=
  ((table bits).dHashRecDecref s.chHtable link).map fun htable => { s with chHtable := htable }

end DHhash

/-- The table; the keys that have been issued, with their links and types; the links that have not
been deleted, by key; and the references that callers hold. -/
structure HandleRun where
  hhash : DHhash
  issued : List (ℕ × ℕ × ℕ)
  live : ℕ → Option ℕ
  held : ℕ → ℕ

inductive HandleEvent where
  | insert (link type : ℕ)
  | lookup (key : ℕ)
  | delete (link : ℕ)
  | getref (link : ℕ)
  | putref (link : ℕ)

namespace HandleRun

variable (bits : ℕ) (s : HandleRun)

def Enabled : HandleEvent → Prop
  | .insert link type => ¬ (DHhash.table bits).Linked s.hhash.chHtable link ∧ type < 16 ∧
    type % 2 = 1 ∧ s.issued.length + 1 < 2 ^ 60
  | .putref link => 0 < s.held link
  | _ => True

/-- The count of a link that gets a reference does not wrap. -/
def RefFits : HandleEvent → Prop
  | .insert link _ | .getref link => s.hhash.chHtable.refs link + 1 < 2 ^ 32
  | .lookup key => ∀ link ∈ (s.hhash.dHhashLinkLookup bits key).1,
    s.hhash.chHtable.refs link + 1 < 2 ^ 32
  | _ => True

def step : HandleEvent → Option HandleRun
  | .insert link type =>
    let hhash := s.hhash.dHhashLinkInsert bits link type
    let key := hhash.hlKey link
    some ⟨hhash, s.issued ++ [(key, link, type)], update s.live key (some link), s.held⟩
  | .lookup key =>
    match s.hhash.dHhashLinkLookup bits key with
    | (none, hhash) => some { s with hhash := hhash }
    | (some link, hhash) =>
      some { s with hhash := hhash, held := update s.held link (s.held link + 1) }
  | .delete link => (s.hhash.dHhashLinkDelete bits link).map fun (_, hhash) =>
    { s with hhash := hhash, live := fun key => (s.live key).filter (· ≠ link) }
  | .getref link =>
    some { s with
      hhash := s.hhash.chRecAddref link, held := update s.held link (s.held link + 1) }
  | .putref link => (s.hhash.dHhashLinkPutref bits link).map fun hhash =>
    { s with hhash := hhash, held := update s.held link (s.held link - 1) }

end HandleRun

/-- The runs of a new table. -/
def handleLts (bits : ℕ) : Lts HandleRun HandleEvent where
  init s := ∃ refs hlKey, (∀ link, refs link < 2 ^ 32) ∧
    s = ⟨.dHhashCreate refs hlKey, [], fun _ => none, refs⟩
  enabled := HandleRun.Enabled bits
  step := HandleRun.step bits

/-- Every key has its own cookie, every link is in the bucket of its key, and the table has a
reference to it. -/
structure HandleOk (bits : ℕ) (s : HandleRun) : Prop where
  cookie : s.hhash.chCookie = s.issued.length + 1
  issued : ∀ e ∈ s.issued, e.1 / 16 ≤ s.issued.length ∧ e.1 % 16 = e.2.2 ∧ e.2.2 % 2 = 1
  distinct : (s.issued.map Prod.fst).Nodup
  placed : ∀ idx, ∀ link ∈ s.hhash.chHtable.htBuckets idx,
    idx = DHhash.chKeyHash bits (s.hhash.hlKey link)
  live : ∀ key link, s.live key = some link ↔
    link ∈ s.hhash.chHtable.htBuckets (DHhash.chKeyHash bits key) ∧ s.hhash.hlKey link = key
  known : ∀ key link, s.live key = some link → ∃ type, (key, link, type) ∈ s.issued
  refs : ∀ link, s.hhash.chHtable.refs link =
    s.held link + if s.live (s.hhash.hlKey link) = some link then 1 else 0

theorem dHhashKeyIsptr_iff {key : ℕ} : dHhashKeyIsptr key = true ↔ key % 2 = 0 := by
  rw [dHhashKeyIsptr, decide_eq_true_iff, Nat.and_one_is_mod]

theorem dHhashKeyType_eq {key : ℕ} (h : key % 2 = 1) : dHhashKeyType key = key % 16 := by
  have hptr : ¬ dHhashKeyIsptr key = true := by rw [dHhashKeyIsptr_iff]; omega
  rw [dHhashKeyType, if_neg hptr, Nat.and_two_pow_sub_one_eq_mod, dHtypeBits]

theorem HashTable.exists_decref (bits : ℕ) {link : ℕ} {t : HashState} (hrefs : t.refs link ≠ 0)
    (hlast : t.refs link = 1 → ¬ (DHhash.table bits).Linked t link) :
    ∃ freed, (DHhash.table bits).dHashRecDecref t link =
      some ⟨t.htBuckets, update t.refs link (t.refs link - 1), freed⟩ := by
  rw [dHashRecDecref, chRecDecref, if_neg hrefs, bind_some]
  by_cases hone : t.refs link = 1
  · simpa [release, DHhash.table, Linked, hone] using hlast hone
  · have hmore : t.refs link - 1 ≠ 0 := by omega
    simp [release, hmore]

namespace HandleOk

open DHhash HashTable

variable {bits : ℕ} {s : HandleRun} (h : HandleOk bits s)

include h

theorem linked {idx link : ℕ} (hmem : link ∈ s.hhash.chHtable.htBuckets idx) :
    (table bits).Linked s.hhash.chHtable link ∧ s.live (s.hhash.hlKey link) = some link := by
  obtain rfl := h.placed idx link hmem
  exact ⟨⟨_, Nat.mod_lt _ (Nat.two_pow_pos bits), hmem⟩, (h.live _ _).mpr ⟨hmem, rfl⟩⟩

theorem odd {key link : ℕ} (hlive : s.live key = some link) : ¬ dHhashKeyIsptr key = true := by
  obtain ⟨type, hmem⟩ := h.known key link hlive
  have := h.issued _ hmem
  rw [dHhashKeyIsptr_iff]
  omega

/-- Links leave and references change, and the keys stay. -/
theorem leave {htable : HashState} {live : ℕ → Option ℕ} {held : ℕ → ℕ} (gone : Set ℕ)
    (hbuckets : ∀ idx link, link ∈ htable.htBuckets idx ↔
      link ∈ s.hhash.chHtable.htBuckets idx ∧ link ∉ gone)
    (hlive : ∀ key link, live key = some link ↔ s.live key = some link ∧ link ∉ gone)
    (hrefs : ∀ link, htable.refs link =
      held link + if live (s.hhash.hlKey link) = some link then 1 else 0) :
    HandleOk bits ⟨{ s.hhash with chHtable := htable }, s.issued, live, held⟩ where
  cookie := h.cookie
  issued := h.issued
  distinct := h.distinct
  placed idx link hmem := h.placed idx link ((hbuckets idx link).mp hmem).1
  live key link := by
    rw [hlive, h.live, hbuckets]
    exact and_right_comm
  known key link hmem := h.known key link ((hlive key link).mp hmem).1
  refs := hrefs

/-- A caller takes a reference. -/
theorem addref {link : ℕ} (hfits : s.hhash.chHtable.refs link + 1 < 2 ^ 32) : HandleOk bits { s with
    hhash := s.hhash.chRecAddref link, held := update s.held link (s.held link + 1) } := by
  refine h.leave ∅ (by simp) (by simp) fun link' => ?_
  have hrefs := h.refs link'
  simp only [u32_of_lt hfits]
  grind

theorem insert {link type : ℕ} (henabled : s.Enabled bits (.insert link type))
    (hfits : s.hhash.chHtable.refs link + 1 < 2 ^ 32) :
    ∃ s', s.step bits (.insert link type) = some s' ∧ HandleOk bits s' := by
  obtain ⟨hlink, htype, hodd, hlt⟩ := henabled
  obtain ⟨key, hkey⟩ : ∃ key, key = u64 (s.hhash.chCookie <<< dHtypeBits) ||| type := ⟨_, rfl⟩
  have hval : key = 16 * (s.issued.length + 1) + type := by
    rw [hkey, h.cookie, u64_of_lt (by rw [Nat.shiftLeft_eq, dHtypeBits]; omega), dHtypeBits,
      ← Nat.shiftLeft_add_eq_or_of_lt htype, Nat.shiftLeft_eq]
    omega
  have hnew : ∀ e ∈ s.issued, e.1 ≠ key := fun e he heq => by
    have := (h.issued e he).1
    omega
  have hout : ∀ idx, link ∉ s.hhash.chHtable.htBuckets idx := fun idx hmem =>
    hlink (h.linked hmem).1
  have hstale : s.live key = none := by
    rw [eq_none_iff_forall_ne_some]
    intro link' hlive
    obtain ⟨type', hmem⟩ := h.known key link' hlive
    exact hnew _ hmem rfl
  refine ⟨_, rfl, ?_⟩
  simp only [dHhashLinkInsert, chRecAddref, hhOpKeyInit, update_self, ← hkey, u32_of_lt hfits]
  refine ⟨?_, ?_, ?_, ?_, ?_, ?_, ?_⟩
  · simp only [h.cookie, length_append, length_singleton]
    exact u64_of_lt (by omega)
  · simp only [mem_append, mem_singleton, length_append, length_singleton]
    rintro e (he | rfl)
    · have := h.issued e he
      omega
    · simp only
      omega
  · simpa [nodup_append, h.distinct] using hnew
  · intro idx link' hmem
    grind [h.placed idx link']
  · intro key' link'
    grind [h.live key' link']
  · intro key' link' hlive
    by_cases hsame : key' = key
    · exact ⟨type, by grind⟩
    · obtain ⟨type', hmem⟩ := h.known key' link' (by simpa [hsame] using hlive)
      exact ⟨type', mem_append_left _ hmem⟩
  · intro link'
    have hrefs := h.refs link'
    have hlive := h.live (s.hhash.hlKey link') link'
    grind

/-- The bucket of a key has the link that is there under it. -/
theorem find (key : ℕ) : (s.hhash.chHtable.htBuckets (chKeyHash bits key)).find?
    (fun link => s.hhash.hlKey link = key) = s.live key := by
  cases hfind : (s.hhash.chHtable.htBuckets (chKeyHash bits key)).find?
    fun link => s.hhash.hlKey link = key with
  | none =>
    refine (eq_none_iff_forall_ne_some.mpr fun link hlive => ?_).symm
    obtain ⟨hmem, hkey⟩ := (h.live key link).mp hlive
    simpa [hkey] using find?_eq_none.mp hfind link hmem
  | some link =>
    exact ((h.live key link).mpr ⟨mem_of_find?_eq_some hfind, by simpa using find?_some hfind⟩).symm

theorem lookup (key : ℕ) : s.hhash.dHhashLinkLookup bits key = (s.live key, match s.live key with
    | none => s.hhash
    | some link => s.hhash.chRecAddref link) := by
  rw [dHhashLinkLookup, h.find]
  cases hlive : s.live key with
  | none => simp
  | some link => rw [if_neg (h.odd hlive)]

theorem delete (link : ℕ) : ∃ s', s.step bits (.delete link) = some s' ∧ HandleOk bits s' := by
  have hlive (key link' : ℕ) : (s.live key).filter (· ≠ link) = some link' ↔
      s.live key = some link' ∧ link' ∉ ({link} : Set ℕ) := by simp
  have hrefs := h.refs
  by_cases hnot : dHhashKeyIsptr (s.hhash.hlKey link) ∨
      ¬ (table bits).Linked s.hhash.chHtable link
  · -- a link that is there has an odd key
    have hout (idx : ℕ) : link ∉ s.hhash.chHtable.htBuckets idx := fun hmem =>
      hnot.elim (h.odd (h.linked hmem).2) (· (h.linked hmem).1)
    rw [HandleRun.step, dHhashLinkDelete, if_pos hnot]
    refine ⟨_, rfl, h.leave {link} (by grind) hlive fun link' => ?_⟩
    have := h.live (s.hhash.hlKey link') link'
    grind
  · obtain ⟨idx, _, hmem⟩ := not_not.mp (not_or.mp hnot).2
    have hhere := (h.linked hmem).2
    have hunlinked : ¬ (table bits).Linked (chRecDelete s.hhash.chHtable link) link := by
      simp [Linked, chRecDelete]
    have href := hrefs link
    rw [if_pos hhere] at href
    have hpos : (chRecDelete s.hhash.chHtable link).refs link ≠ 0 := by
      rw [chRecDelete, href]
      omega
    obtain ⟨freed, hdecref⟩ := exists_decref bits hpos fun _ => hunlinked
    rw [HandleRun.step, dHhashLinkDelete, if_neg hnot, hdecref]
    refine ⟨_, rfl, h.leave {link} (by simp [chRecDelete]) hlive fun link' => ?_⟩
    have := hrefs link'
    simp only [chRecDelete]
    grind

theorem putref {link : ℕ} (henabled : 0 < s.held link) :
    ∃ s', s.step bits (.putref link) = some s' ∧ HandleOk bits s' := by
  have hrefs := h.refs
  have href := hrefs link
  have hpos : s.hhash.chHtable.refs link ≠ 0 := by omega
  obtain ⟨freed, hdecref⟩ := exists_decref bits hpos fun hone hlinked => by
    obtain ⟨idx, _, hmem⟩ := hlinked
    rw [if_pos (h.linked hmem).2] at href
    omega
  rw [HandleRun.step, dHhashLinkPutref, hdecref]
  refine ⟨_, rfl, h.leave ∅ (by simp) (by simp) fun link' => ?_⟩
  have := hrefs link'
  grind

theorem step {e : HandleEvent} (henabled : s.Enabled bits e) (hfits : s.RefFits bits e) :
    ∃ s', s.step bits e = some s' ∧ HandleOk bits s' := by
  cases e with
  | insert link type => exact h.insert henabled hfits
  | lookup key =>
    rw [HandleRun.RefFits, h.lookup] at hfits
    rw [HandleRun.step, h.lookup]
    cases hlive : s.live key with
    | none => exact ⟨_, rfl, h⟩
    | some link => exact ⟨_, rfl, h.addref (hfits link hlive)⟩
  | delete link => exact h.delete link
  | getref link => exact ⟨_, rfl, h.addref hfits⟩
  | putref link => exact h.putref henabled

end HandleOk

theorem handleOk_invariant (bits : ℕ) :
    ((handleLts bits).restrict (HandleRun.RefFits bits)).Invariant (HandleOk bits) where
  init s hinit := by
    obtain ⟨refs, hlKey, -, rfl⟩ := hinit
    constructor <;> simp [DHhash.dHhashCreate]
  step s e s' h henabled hstep := by
    obtain ⟨s'', heq, hok⟩ := h.step henabled.1 henabled.2
    exact some.inj (heq.symm.trans hstep) ▸ hok

/-- **The handle table**: if no link has `2 ^ 32` references, no assertion fails, no key is issued
twice, a key has the type of its link, and it finds the link, which has then one more reference,
until the link is deleted. -/
theorem handle_hash (bits : ℕ) :
    ((handleLts bits).restrict (HandleRun.RefFits bits)).Safe ∧
    ∀ s, ((handleLts bits).restrict (HandleRun.RefFits bits)).Reach s →
      (s.issued.map Prod.fst).Nodup ∧ (∀ e ∈ s.issued, dHhashKeyType e.1 = e.2.2) ∧
      (∀ key link, s.live key = some link → ∃ type, (key, link, type) ∈ s.issued) ∧
      ∀ key, (s.live key = none → s.hhash.dHhashLinkLookup bits key = (none, s.hhash)) ∧
        ∀ link, s.live key = some link → s.hhash.chHtable.refs link + 1 < 2 ^ 32 →
          s.hhash.dHhashLinkLookup bits key = (some link, { s.hhash with
            chHtable.refs := update s.hhash.chHtable.refs link
              (s.hhash.chHtable.refs link + 1) }) := by
  refine ⟨(handleOk_invariant bits).safe fun s e h henabled => ?_, fun s hreach => ?_⟩
  · obtain ⟨s', hstep, _⟩ := h.step henabled.1 henabled.2
    exact ⟨s', hstep⟩
  · have hok := (handleOk_invariant bits).reach hreach
    refine ⟨hok.distinct, fun e he => ?_, hok.known, fun key => ⟨fun hlive => ?_,
      fun link hlive hfits => ?_⟩⟩
    · obtain ⟨-, htype, hodd⟩ := hok.issued e he
      rw [dHhashKeyType_eq (by omega), htype]
    · rw [hok.lookup, hlive]
    · simp only [hok.lookup, hlive, DHhash.chRecAddref, u32_of_lt hfits]

instance (bits : ℕ) (s : HandleRun) (e : HandleEvent) : Decidable ((handleLts bits).enabled s e) := by
  cases e <;> dsimp only [handleLts, HandleRun.Enabled] <;> infer_instance

instance (bits : ℕ) (s : HandleRun) (e : HandleEvent) : Decidable (s.RefFits bits e) := by
  cases e <;> dsimp only [HandleRun.RefFits] <;> infer_instance

/-- A new table; callers have `refs` references to every link. -/
def newHandles (refs : ℕ) : HandleRun :=
  ⟨.dHhashCreate (fun _ => refs) fun _ => 0, [], fun _ => none, fun _ => refs⟩

theorem handleLts_newHandles (bits : ℕ) {refs : ℕ} (hlt : refs < 2 ^ 32) :
    (handleLts bits).init (newHandles refs) :=
  ⟨_, _, fun _ => hlt, rfl⟩

/-- Two links, of the types 3 and 1, of which the first is deleted. -/
theorem handle_hash_deleted : ∃ s, (handleLts 1).Reach s ∧ s.issued = [(19, 5, 3), (33, 6, 1)] ∧
    s.hhash.dHhashLinkLookup 1 19 = (none, s.hhash) ∧
    (s.hhash.dHhashLinkLookup 1 33).1 = some 6 := by
  obtain ⟨s, hreach, hissued, hdeleted, hlive, hrefs⟩ : ∃ s,
      ((handleLts 1).restrict (HandleRun.RefFits 1)).Reach s ∧ s.issued = [(19, 5, 3), (33, 6, 1)] ∧
      s.live 19 = none ∧ s.live 33 = some 6 ∧ s.hhash.chHtable.refs 6 = 2 :=
    Lts.exists_reach_of_exec [.insert 5 3, .insert 6 1, .delete 5] (newHandles 1)
      (handleLts_newHandles 1 (by decide)) (by decide)
  have hlookup := ((handle_hash 1).2 s hreach).2.2.2
  refine ⟨s, hreach.of_restrict, hissued, (hlookup 19).1 hdeleted, ?_⟩
  rw [(hlookup 33).2 6 hlive (by omega)]

/-- A link to which callers have `2 ^ 32 - 1` references is inserted, so that its count wraps; the
next reference that is taken and dropped is the last, and the link is in the table. -/
theorem handle_hash_wraps : ¬ (handleLts 1).Safe := by
  intro hsafe
  obtain ⟨s, hreach, hheld, hcrash⟩ : ∃ s, (handleLts 1).Reach s ∧ 0 < s.held 5 ∧
      (s.step 1 (.putref 5)).isNone :=
    Lts.exists_reach_of_exec [.insert 5 3, .getref 5] (newHandles (2 ^ 32 - 1))
      (handleLts_newHandles 1 (by decide)) (by decide)
  obtain ⟨s', hstep⟩ := hsafe s hreach (.putref 5) hheld
  rw [show s.step 1 (.putref 5) = some s' from hstep] at hcrash
  cases hcrash

end Cart
