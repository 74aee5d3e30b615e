/-
What is loaded from an attach info file (`crt_group.c`).

A file is well formed (`AttachFile`) if it has the five words of the header, with the id of
the group, and then a number and an address for every line.

Main results: `psr_choice_iff`, `psr_choice_broken`, `attach_round_trip_iff`,
`attach_round_trip_broken`.
-/
import Cart.AttachInfo

open List Option

namespace Cart

variable {shareNa service : Bool} {ranks : List ℕ} {s : AttachLoad} {lines : List (ℕ × Uri)}
  {grpid file : List Char} {g : LcGrpPriv} {psrRank : ℕ} {env : AttachEnv}

open Scanf LcGrpPriv
open Faults (exists_of_bind_eq_ok)

/-! ### Files -/

theorem storeRank_asInt (undef : ℤ → ℕ) {rank : ℕ} (h : rank < 2 ^ 32) :
    storeRank undef (asInt rank) = rank := by
  by_cases hsmall : rank < 2 ^ 31
  · rw [storeRank, asInt, if_pos hsmall, if_pos (by omega)]
    omega
  · rw [storeRank, asInt, if_neg hsmall, if_pos (by omega)]
    omega

/-- A line that is read back as it was written. -/
structure LineOk (p : ℕ × Uri) : Prop where
  rank : p.1 < 2 ^ 32
  uri : p.2.length ≤ crtAddrStrMaxLen
  noNull : cString p.2 = p.2

/-- A well-formed file, with its lines. -/
structure AttachFile (grpid file : List Char) (lines : List (ℕ × Uri)) : Prop where
  idShort : grpid.length ≤ crtGroupIdMaxLen
  idNoNull : cString grpid = grpid
  text : ∃ name size n kind ws z, words file = name :: grpid :: size :: n :: kind :: ws ∧
    numeral n = some z ∧ kind.length ≤ 4 ∧
    Scanf.Paired crtAddrStrMaxLen ws (lines.map fun p => (asInt p.1, p.2))
  ok : ∀ p ∈ lines, LineOk p

section

variable {fuel : ℕ}

theorem AttachFile.attachHeader_eq (h : AttachFile grpid file lines) (errnoRc : ℤ) :
    ∃ t, attachHeader errnoRc grpid file = .ok t ∧
      Scanf.Paired crtAddrStrMaxLen (words t) (lines.map fun p => (asInt p.1, p.2)) := by
  obtain ⟨name, size, n, kind, ws, z, hwords, hz, hkind, hpaired⟩ := h.text
  obtain ⟨r₁, h₁, hscan₁⟩ := scan_skipWord_of_words hwords
  obtain ⟨r₂, h₂, hscan₂⟩ := scan_word_of_words h₁ h.idShort
  obtain ⟨r₃, h₃, hscan₃⟩ := scan_skipWord_of_words h₂
  obtain ⟨r₄, h₄, hscan₄⟩ := scan_int_of_words h₃ hz
  obtain ⟨r₅, h₅, hscan₅⟩ := scan_word_of_words h₄ hkind
  have hname : fscanf [.skipWord, .word crtGroupIdMaxLen] file = ⟨false, [.word grpid], r₂⟩ := by
    rw [fscanf, hscan₁, hscan₂]
    rfl
  have hsize : fscanf [.skipWord, .int] r₂ = ⟨false, [.int z], r₄⟩ := by
    rw [fscanf, hscan₃, hscan₄]
    rfl
  have hkind' : fscanf [.word 4] r₄ = ⟨false, [.word kind], r₅⟩ := by
    rw [fscanf, hscan₅]
    rfl
  refine ⟨r₅, ?_, h₅ ▸ hpaired⟩
  have hid : grpnameOf [.word grpid] = grpid := h.idNoNull
  rw [attachHeader, hname]
  rw [hid, if_neg Bool.false_ne_true, if_neg (not_not.mpr rfl), hsize]
  rw [if_neg Bool.false_ne_true, hkind']
  rw [if_neg Bool.false_ne_true]

theorem map_lineOf_asInt (undef : ℤ → ℕ) (h : ∀ p ∈ lines, LineOk p) :
    (lines.map fun p => (asInt p.1, p.2)).map (lineOf undef) = lines := by
  rw [List.map_map]
  refine (map_congr_left fun p hp => ?_).trans (List.map_id lines)
  show (storeRank undef (asInt p.1), cString p.2) = p
  rw [storeRank_asInt undef (h p hp).rank, (h p hp).noNull]

section

variable (h : AttachFile grpid file lines) (hfuel : lines.length < fuel)

include h hfuel

theorem AttachFile.load_eq (service : Bool) (hopen : env.openRc = 0)
    (haddr : env.addrAllocated = true) (g : PsrGrpPriv) (psrRank : ℕ) :
    g.crtGrpConfigPsrLoad fuel service env grpid file psrRank =
      some ((loadLines service env psrRank lines (g.unread env (-derInval))).map fun s =>
        if psrRank ≠ crtNoRank then
          { s with grp := s.grp.crtGrpPsrSet env.psrDupLast s.rank s.addrStr }
        else s) := by
  obtain ⟨t, ht, hpaired⟩ := h.attachHeader_eq env.errnoRc
  rw [crtGrpConfigPsrLoad_eq hopen haddr ht,
    lineLoop_of_paired hpaired t _ fuel rfl (by rw [length_map]; exact hfuel),
    map_lineOf_asInt env.undef h.ok]
  rfl

/-- Setting the PSR at the end does not change the members. -/
theorem AttachFile.load_ok (hcalm : env.Calm) {v : PsrGrpPriv}
    (hload : loadLines service env psrRank lines (v.unread env (-derInval)) = .ok s) :
    ∃ s' psr, v.crtGrpConfigPsrLoad fuel service env grpid file psrRank = some (.ok s') ∧
      s'.rc = s.rc ∧ s'.grp.lc = { s.grp.lc with grp := { s.grp.lc.grp with gpPsrRank := psr } } := by
  rw [h.load_eq hfuel service hcalm.openRc hcalm.addrAllocated, hload]
  by_cases hpsr : psrRank = crtNoRank
  · refine ⟨s, s.grp.lc.grp.gpPsrRank, ?_, rfl, rfl⟩
    simp only [Except.map, hpsr, ne_eq, not_true_eq_false, if_false]
  · refine ⟨{ s with grp := s.grp.crtGrpPsrSet env.psrDupLast s.rank s.addrStr }, s.rank, ?_, rfl,
      rfl⟩
    simp only [Except.map, ne_eq, hpsr, not_false_eq_true, if_true]

/-- A load fails before it gets to the lines, or it loads them. -/
theorem AttachFile.load_cases (service : Bool) (env : AttachEnv) (g : PsrGrpPriv) (psrRank : ℕ) :
    (∃ rc, rc ≠ 0 ∧ g.crtGrpConfigPsrLoad fuel service env grpid file psrRank =
        some (.ok (g.unread env rc))) ∨
      g.crtGrpConfigPsrLoad fuel service env grpid file psrRank =
        some ((loadLines service env psrRank lines (g.unread env (-derInval))).map fun s =>
          if psrRank ≠ crtNoRank then
            { s with grp := s.grp.crtGrpPsrSet env.psrDupLast s.rank s.addrStr }
          else s) := by
  by_cases hopen : env.openRc = 0
  swap
  · exact .inl ⟨env.openRc, hopen, if_pos hopen⟩
  cases haddr : env.addrAllocated with
  | false =>
    obtain ⟨t, ht, _⟩ := h.attachHeader_eq env.errnoRc
    refine .inl ⟨-derNomem, by decide, (if_neg (not_not.mpr hopen)).trans ?_⟩
    rw [ht]
    exact if_pos haddr
  | true => exact .inr (h.load_eq hfuel service hopen haddr g psrRank)

end

end

/-! ### Saved files -/

/-- A URI that can be saved. -/
structure UriOk (uri : Uri) : Prop where
  ne_nil : uri ≠ []
  solid : ∀ c ∈ uri, isSpace c = false
  short : uri.length ≤ crtAddrStrMaxLen
  noNull : cString uri = uri

theorem printInt_solid (z : ℤ) : printInt z ≠ [] ∧ ∀ c ∈ printInt z, isSpace c = false := by
  have hat : WordAt (printInt z) [] := wordAt_printInt z fun c hc => by cases hc
  exact ⟨hat.ne_nil, hat.solid⟩

theorem paired_attachLines (h : ∀ p ∈ lines, UriOk p.2) :
    Scanf.Paired crtAddrStrMaxLen (words (lines.flatMap attachLine))
      (lines.map fun p => (asInt p.1, p.2)) := by
  induction lines with
  | nil => exact .nil
  | cons p lines ih =>
    have hp := h p mem_cons_self
    have hint := printInt_solid (asInt p.1)
    have hwords : words ((p :: lines).flatMap attachLine) =
        printInt (asInt p.1) :: p.2 :: words (lines.flatMap attachLine) := by
      rw [flatMap_cons, attachLine, append_assoc, cons_append, append_assoc,
        words_append_cons hint.1 hint.2 rfl, singleton_append,
        words_append_cons hp.ne_nil hp.solid rfl]
    rw [hwords, map_cons]
    exact .cons (numeral_printInt _) hp.short (ih fun q hq => h q (mem_cons_of_mem _ hq))

section

theorem attachFile_attachInfo (hne : grpid ≠ []) (hsolid : ∀ c ∈ grpid, isSpace c = false)
    (hshort : grpid.length ≤ crtGroupIdMaxLen) (hnull : cString grpid = grpid)
    (hlines : ∀ p ∈ lines, p.1 < 2 ^ 32 ∧ UriOk p.2) (size : ℕ) :
    AttachFile grpid (attachInfo grpid size "all".toList lines) lines := by
  have hint := printInt_solid (asInt size)
  refine ⟨hshort, hnull, ?_, fun p hp => ⟨(hlines p hp).1, (hlines p hp).2.short,
    (hlines p hp).2.noNull⟩⟩
  refine ⟨"name".toList, "size".toList, printInt (asInt size), "all".toList, _, asInt size, ?_,
    numeral_printInt _, by decide, paired_attachLines fun p hp => (hlines p hp).2⟩
  rw [attachInfo, words_append_cons (by decide) (by decide) rfl, words_append_cons hne hsolid rfl,
    words_append_cons (by decide) (by decide) rfl, words_append_cons hint.1 hint.2 rfl,
    words_append_cons (by decide) (by decide) rfl]

/-- An id with a blank in it is not recognised: what is read ends there. -/
theorem attachHeader_of_blank (errnoRc : ℤ) (hshort : grpid.length ≤ crtGroupIdMaxLen)
    {c : Char} (hmem : c ∈ grpid) (hblank : isSpace c = true) (size : ℕ) :
    attachHeader errnoRc grpid (attachInfo grpid size "all".toList lines) = .error (-derInval) := by
  rw [attachHeader, attachInfo]
  generalize hrest : grpid ++ '\n' :: ("size".toList ++ ' ' :: (printInt (asInt size) ++
    '\n' :: ("all".toList ++ '\n' :: lines.flatMap attachLine))) = rest
  have hs : 's' ∈ rest := by
    rw [← hrest]
    exact mem_append_right _ (mem_cons_of_mem _ mem_cons_self)
  have hne : skipSpace rest ≠ [] := fun hnil => by
    have hspace := isSpace_of_skipSpace hnil 's' hs
    cases hspace
  obtain ⟨w, r, heq, hat, _⟩ := exists_wordAt hne
  have hname : WordAt "name".toList (' ' :: rest) :=
    ⟨by decide, by decide, fun d hd => by cases hd; rfl⟩
  have hscan : fscanf [.skipWord, .word crtGroupIdMaxLen] ("name".toList ++ ' ' :: rest) =
      ⟨false, [.word (w.take crtGroupIdMaxLen)], w.drop crtGroupIdMaxLen ++ r⟩ := by
    rw [fscanf, hname.scan_skipWord, scan_cons_space _ rfl, ← scan_skipSpace, heq,
      hat.scan_word_take]
    rfl
  rw [hscan]
  rw [if_neg Bool.false_ne_true, if_pos]
  -- the name that was read has no blank
  intro hid
  rw [take_of_length_le hshort] at hid
  rw [← hid] at hmem
  have hw : c ∈ w := mem_of_mem_take (takeWhile_sublist _ |>.mem
    (mem_of_mem_take hmem))
  rw [hat.solid c hw] at hblank
  cases hblank

end

/-! ### Additions to a view in turn -/

/-- A view to which the lines have been added. -/
structure Holds (lines : List (ℕ × Uri)) (g : LcGrpPriv) : Prop where
  view : g.IsView
  ranks : ∀ p ∈ lines, p.1 ≠ crtNoRank
  slots : ∃ k, g.grp.gpMembs.cgmList = lines.map Prod.fst ++ List.replicate k crtNoRank ∧
    g.grp.gpMembs.cgmFreeIndices = List.range' lines.length k
  size : g.grp.gpSize = lines.length
  listed : g.grp.gpMembs.cgmLinearList = lines.map Prod.fst
  uri : ∀ p ∈ lines, g.grpLiUriGet p.1 0 = some p.2
  item : ∀ p ∈ lines, (g.gpLookupCache 0 p.1).isSome = true
  noUri : ∀ r, r ∉ lines.map Prod.fst → g.grpLiUriGet r 0 = none

theorem holds_emptyView : Holds [] emptyView.lc := by
  refine ⟨emptyView_isView, fun p hp => ?_, ⟨0, rfl, rfl⟩, rfl, rfl, fun p hp => ?_, fun p hp => ?_,
    fun _ _ => rfl⟩
  · cases hp
  · cases hp
  · cases hp

/-- The lists after making room: there is at least one slot behind the ranks. -/
theorem opened_of_slots {m : CrtGrpMembs} {k : ℕ}
    (hlist : m.cgmList = ranks ++ replicate k crtNoRank)
    (hfree : m.cgmFreeIndices = range' ranks.length k) :
    ∃ k', m.opened.cgmList = ranks ++ crtNoRank :: replicate k' crtNoRank ∧
      m.opened.cgmFreeIndices = ranks.length :: range' (ranks.length + 1) k' := by
  cases k with
  | zero =>
    rw [replicate_zero, append_nil] at hlist
    have hnil : m.cgmFreeIndices = [] := hfree
    rw [CrtGrpMembs.opened, if_pos hnil, GrpPriv.grow_eq, hlist, hnil]
    exact ⟨31, rfl, rfl⟩
  | succ k =>
    have hne : m.cgmFreeIndices ≠ [] := by
      rw [hfree]
      exact cons_ne_nil _ _
    rw [CrtGrpMembs.opened, if_neg hne, hlist, hfree]
    exact ⟨k, rfl, rfl⟩

section

variable {rank : ℕ} {uri : Uri}

/-- An addition goes into the next slot, and to the end of the linear list. -/
theorem joined_of_slots (grp : GrpPriv) {k : ℕ} (hranks : ∀ r ∈ ranks, r ≠ crtNoRank)
    (hrank : rank ≠ crtNoRank) (hlist : grp.gpMembs.cgmList = ranks ++ replicate k crtNoRank)
    (hfree : grp.gpMembs.cgmFreeIndices = range' ranks.length k)
    (hsize : grp.gpSize = ranks.length) :
    (∃ k', (grp.joined rank).gpMembs.cgmList = (ranks ++ [rank]) ++ replicate k' crtNoRank ∧
      (grp.joined rank).gpMembs.cgmFreeIndices = range' (ranks ++ [rank]).length k') ∧
    (grp.joined rank).gpSize = (ranks ++ [rank]).length ∧
    (grp.joined rank).gpMembs.cgmLinearList = ranks ++ [rank] := by
  obtain ⟨k', hlist', hfree'⟩ := opened_of_slots hlist hfree
  have hset : (grp.joined rank).gpMembs.cgmList = (ranks ++ [rank]) ++
      replicate k' crtNoRank := by
    show grp.gpMembs.opened.cgmList.set (grp.gpMembs.opened.cgmFreeIndices.headD 0) rank = _
    rw [hlist', hfree', headD_cons, set_append_right _ _ (Nat.le_refl _), Nat.sub_self,
      append_assoc]
    rfl
  have hlength : (ranks ++ [rank]).length = ranks.length + 1 := by
    rw [length_append]
    rfl
  have hsize' : (grp.joined rank).gpSize = (ranks ++ [rank]).length := by
    rw [hlength, ← hsize]
    rfl
  have hocc : (grp.joined rank).occupied = ranks ++ [rank] := by
    rw [GrpPriv.occupied, hset, FreeSlots.occupied_grow]
    refine filter_eq_self.mpr fun r hr => decide_eq_true ?_
    rcases mem_append.mp hr with hmem | hmem
    · exact hranks r hmem
    · rw [mem_singleton.mp hmem]
      exact hrank
  refine ⟨⟨k', hset, ?_⟩, hsize', ?_⟩
  · show grp.gpMembs.opened.cgmFreeIndices.tail = _
    rw [hfree', hlength]
    rfl
  · have hlisted : (grp.joined rank).Listed :=
      GrpPriv.grpRegenLinearList_listed (hsize'.trans (congrArg length hocc.symm))
    exact hlisted.trans hocc

theorem grpLiUriGet_withMember (g : LcGrpPriv) (rank : ℕ) (uri : Uri) (r : ℕ) :
    (g.withMember rank uri).grpLiUriGet r 0 =
      if r = rank then (g.grpLiUriGet r 0).or (some (dStrndup uri)) else g.grpLiUriGet r 0 := by
  refine (g.grpLiUriGet_insertUri rank 0 (some uri) r 0).trans ?_
  by_cases hr : r = rank
  · rw [if_pos hr, if_pos ⟨hr, rfl⟩, map_some]
  · rw [if_neg hr, if_neg fun hc => hr hc.1]

theorem Holds.withMember (h : Holds lines g) (hrank : rank ≠ crtNoRank)
    (hnew : rank ∉ lines.map Prod.fst) (huri : uri.length ≤ crtAddrStrMaxLen) :
    Holds (lines ++ [(rank, uri)]) (g.withMember rank uri) := by
  have hranks : ∀ r ∈ lines.map Prod.fst, r ≠ crtNoRank := by
    intro r hr
    obtain ⟨p, hp, rfl⟩ := mem_map.mp hr
    exact h.ranks p hp
  have hmap : (lines ++ [(rank, uri)]).map Prod.fst = lines.map Prod.fst ++ [rank] := by
    rw [map_append]
    rfl
  have hlength : (lines ++ [(rank, uri)]).length = (lines.map Prod.fst ++ [rank]).length := by
    rw [← hmap, length_map]
  -- the membership is not touched by the insertion of the URI
  have hmembs : (g.insertUri rank 0 (some uri)).grp.gpMembs = g.grp.gpMembs ∧
      (g.insertUri rank 0 (some uri)).grp.gpSize = g.grp.gpSize := by
    rw [grp_insertUri]
    exact ⟨rfl, rfl⟩
  obtain ⟨k, hlist, hfree⟩ := h.slots
  rw [← length_map (f := Prod.fst)] at hfree
  obtain ⟨hslots, hsize, hlisted⟩ := joined_of_slots (g.insertUri rank 0 (some uri)).grp
    hranks hrank (hmembs.1 ▸ hlist) (hmembs.1 ▸ hfree)
    (hmembs.2.trans (h.size.trans (length_map _).symm))
  refine ⟨h.view.withMember rank uri, fun p hp => ?_, ?_, ?_, ?_, fun p hp => ?_, fun p hp => ?_,
    fun r hr => ?_⟩
  · rcases mem_append.mp hp with hmem | hmem
    · exact h.ranks p hmem
    · rw [mem_singleton.mp hmem]
      exact hrank
  · rw [hmap, hlength]
    exact hslots
  · rw [hlength]
    exact hsize
  · rw [hmap]
    exact hlisted
  · rw [grpLiUriGet_withMember]
    rcases mem_append.mp hp with hmem | hmem
    · rw [if_neg fun hc : p.1 = rank => hnew (hc ▸ mem_map_of_mem hmem)]
      exact h.uri p hmem
    · rw [mem_singleton.mp hmem, if_pos rfl, h.noUri rank hnew]
      exact congrArg some (take_of_length_le huri)
  · show ((g.insertUri rank 0 (some uri)).gpLookupCache 0 p.1).isSome = true
    rw [gpLookupCache_insertUri]
    split_ifs with hother
    · rfl
    · rcases mem_append.mp hp with hmem | hmem
      · exact h.item p hmem
      · rw [mem_singleton.mp hmem] at hother
        exact absurd ⟨by decide, rfl⟩ hother
  · rw [hmap, mem_append, not_or, mem_singleton] at hr
    rw [grpLiUriGet_withMember, if_neg hr.2]
    exact h.noUri r hr.1

/-- The PSR is not part of it. -/
theorem Holds.psr (h : Holds lines g) (psr : ℕ) :
    Holds lines { g with grp := { g.grp with gpPsrRank := psr } } :=
  ⟨⟨h.view.primary, h.view.view⟩, h.ranks, h.slots, h.size, h.listed, h.uri, h.item, h.noUri⟩

end

section

/-- Lines with ranks of their own are all added to a view, in their order. -/
theorem loadLines_holds (service : Bool) (psrRank : ℕ) (hcalm : env.Calm) :
    ∀ {done : List (ℕ × Uri)} {s : AttachLoad}, Holds done s.grp.lc →
      ((done ++ lines).map Prod.fst).Nodup →
      (∀ p ∈ lines, p.1 ≠ crtNoRank ∧ p.2.length ≤ crtAddrStrMaxLen) →
      ∃ s', loadLines service env psrRank lines s = .ok s' ∧ s'.rc = 0 ∧
        Holds (done ++ lines) s'.grp.lc := by
  induction lines with
  | nil =>
    intro done s h _ _
    refine ⟨_, rfl, rfl, ?_⟩
    rw [append_nil]
    exact h
  | cons line lines ih =>
    intro done s h hnodup hok
    obtain ⟨hrank, huri⟩ := hok line mem_cons_self
    have hsplit : done ++ line :: lines = (done ++ [line]) ++ lines := by
      rw [append_assoc]
      rfl
    have hnew : line.1 ∉ done.map Prod.fst := by
      intro hmem
      rw [map_append, map_cons, nodup_append] at hnodup
      exact hnodup.2.2 _ hmem _ mem_cons_self rfl
    obtain ⟨s', psr, hadd, _, heq⟩ := addLine_view service psrRank
      (s := { s with rank := line.1, addrStr := line.2 }) h.view hcalm
    have hholds : Holds (done ++ [line]) s'.grp.lc := by
      rw [heq]
      exact (h.withMember hrank hnew huri).psr psr
    rw [hsplit] at hnodup ⊢
    obtain ⟨s'', hload, hrc, hholds'⟩ := ih hholds hnodup
      fun p hp => hok p (mem_cons_of_mem _ hp)
    refine ⟨s'', ?_, hrc, hholds'⟩
    rw [loadLines, hadd]
    exact hload

theorem grpLiUriGet_of_loadLines (hcalm : env.Calm) {r : ℕ}
    (hr : r ∉ lines.map Prod.fst) : ∀ {s s' : AttachLoad}, s.grp.lc.IsView →
      loadLines service env psrRank lines s = .ok s' →
      s'.grp.lc.grpLiUriGet r 0 = s.grp.lc.grpLiUriGet r 0 := by
  induction lines with
  | nil =>
    intro s s' _ h
    cases h
    rfl
  | cons line lines ih =>
    intro s s' hview h
    rw [map_cons, mem_cons, not_or] at hr
    obtain ⟨s₁, psr, hadd, _, heq⟩ := addLine_view service psrRank
      (s := { s with rank := line.1, addrStr := line.2 }) hview hcalm
    have hview₁ := isView_of_addLine (s := { s with rank := line.1, addrStr := line.2 }) hview heq
    rw [loadLines, hadd] at h
    rw [ih hr.2 hview₁ h, heq]
    refine (grpLiUriGet_withMember s.grp.lc line.1 line.2 r).trans ?_
    rw [if_neg hr.1]

end

/-! ### The PSR -/

theorem last_of_loadLines : ∀ {s s' : AttachLoad},
    loadLines service env psrRank lines s = .ok s' → s'.rc = 0 →
      (s'.rank, s'.addrStr) = lines.getLastD (s.rank, s.addrStr) := by
  induction lines with
  | nil =>
    intro s s' h _
    cases h
    rfl
  | cons line lines ih =>
    intro s s' h hrc
    rw [loadLines] at h
    obtain ⟨⟨more, s₁⟩, hline, hrest⟩ := exists_of_bind_eq_ok h
    obtain ⟨rc, lc, _, hcase⟩ := addLine_cases hline
    rcases hcase with ⟨rfl, hfail, rfl⟩ | ⟨rfl, _, rfl⟩
    · cases hrest
      exact absurd hrc hfail
    · rw [ih hrest hrc, getLastD_cons]

section

/-- The PSR after a load that succeeded is the last line. -/
theorem AttachFile.psr_of_load (h : AttachFile grpid file lines) {fuel : ℕ}
    (hfuel : lines.length < fuel) {g : PsrGrpPriv} (hpsr : psrRank ≠ crtNoRank) {line : ℕ × Uri}
    (hlast : lines.getLast? = some line)
    (hload : g.crtGrpConfigPsrLoad fuel service env grpid file psrRank = some (.ok s))
    (hrc : s.rc = 0) : s.grp.lc.grp.gpPsrRank = line.1 ∧
      s.grp.gpPsrPhyAddr = if env.psrDupLast then some (dStrndup line.2) else none := by
  rcases h.load_cases hfuel service env g psrRank with ⟨rc, hne, heq⟩ | heq
  · cases heq.symm.trans hload
    exact absurd hrc hne
  cases hlines : loadLines service env psrRank lines (g.unread env (-derInval)) with
  | error stop =>
    rw [hlines] at heq
    cases heq.symm.trans hload
  | ok s' =>
    rw [hlines] at heq
    simp only [heq, Except.map, if_pos hpsr, Option.some.injEq, Except.ok.injEq] at hload
    subst hload
    have hlast' := last_of_loadLines hlines hrc
    rw [getLastD_eq_getLast?, hlast, getD_some] at hlast'
    obtain ⟨rfl, rfl⟩ := hlast'
    exact ⟨rfl, rfl⟩

end

/-- A reload that succeeded has found the URI of its candidate, or loaded the file. -/
theorem crtGrpPsrReload_cases {fuel : ℕ} {grpid file : List Char} {g g' : PsrGrpPriv}
    (h : g.crtGrpPsrReload fuel service shareNa env grpid file = some (.ok (0, g'))) :
    (∃ uri, (g.lc.crtGrpLcLookup shareNa 0 g.candidate 0).1 = some uri ∧
        g' = g.crtGrpPsrSet env.psrDupLast g.candidate uri) ∨
      (g.lc.crtGrpLcLookup shareNa 0 g.candidate 0).1 = none ∧ ∃ s,
        g.crtGrpConfigPsrLoad fuel service env grpid file g.candidate = some (.ok s) ∧
          s.rc = 0 ∧ g' = s.grp := by
  rw [PsrGrpPriv.crtGrpPsrReload] at h
  by_cases hzero : g.lc.grp.gpSize = 0
  · rw [if_pos hzero] at h
    cases h
  rw [if_neg hzero] at h
  split_ifs at h with hsame
  · cases h
  cases hlookup : (g.lc.crtGrpLcLookup shareNa 0 g.candidate 0).1 with
  | some uri =>
    rw [hlookup] at h
    cases h
    exact .inl ⟨uri, rfl, rfl⟩
  | none =>
    rw [hlookup] at h
    obtain ⟨r, hload, heq⟩ := map_eq_some_iff.mp h
    cases r with
    | error stop => cases heq
    | ok s =>
      obtain ⟨hrc, hgrp⟩ := Prod.mk.inj (Except.ok.inj heq)
      exact .inr ⟨rfl, s, hload, hrc, hgrp.symm⟩

/-- **The choice of the PSR.** Loading a well-formed file makes the rank asked for the PSR if
and only if it is in the last line. -/
theorem psr_choice_iff {grpid file : List Char} {lines : List (ℕ × Uri)}
    (hfile : AttachFile grpid file lines) {fuel : ℕ} (hfuel : lines.length < fuel)
    (service shareNa : Bool) (env : AttachEnv) (g : PsrGrpPriv) :
    (∀ psrRank uri, psrRank ≠ crtNoRank → (psrRank, uri) ∈ lines →
      ∃ r, g.crtGrpConfigPsrLoad fuel service env grpid file psrRank = some r ∧
        ∀ s, r = .ok s → s.rc = 0 →
          (s.grp.lc.grp.gpPsrRank = psrRank ∧ s.grp.gpPsrPhyAddr = some uri ↔
            lines.getLast? = some (psrRank, uri) ∧ env.psrDupLast = true)) ∧
    ∀ g', g.lc.grp.gpSize ≤ crtNoRank → g.candidate ∈ lines.map Prod.fst →
      g.crtGrpPsrReload fuel service shareNa env grpid file = some (.ok (0, g')) →
      (g'.lc.grp.gpPsrRank = g.candidate ↔
        (g.lc.crtGrpLcLookup shareNa 0 g.candidate 0).1.isSome = true ∨
          ∃ uri, lines.getLast? = some (g.candidate, uri)) := by
  constructor
  · intro psrRank uri hpsr hmem
    obtain ⟨line, hlast⟩ := ne_none_iff_exists'.mp
      (mt getLast?_eq_none_iff.mp (ne_nil_of_mem hmem))
    have hdup : dStrndup line.2 = line.2 :=
      take_of_length_le (hfile.ok line (List.mem_of_getLast? hlast)).uri
    have hsome : ∃ r, g.crtGrpConfigPsrLoad fuel service env grpid file psrRank = some r := by
      rcases hfile.load_cases hfuel service env g psrRank with ⟨rc, _, heq⟩ | heq
      · exact ⟨_, heq⟩
      · exact ⟨_, heq⟩
    obtain ⟨r, hload⟩ := hsome
    refine ⟨r, hload, fun s hs hrc => ?_⟩
    rw [hs] at hload
    obtain ⟨hrank, haddr⟩ := hfile.psr_of_load hfuel hpsr hlast hload hrc
    rw [hrank, haddr, hlast, hdup]
    constructor
    · rintro ⟨rfl, haddr'⟩
      by_cases hmemory : env.psrDupLast = true
      · rw [if_pos hmemory, Option.some.injEq] at haddr'
        exact ⟨by rw [← haddr'], hmemory⟩
      · rw [if_neg hmemory] at haddr'
        cases haddr'
    · rintro ⟨heq, hmemory⟩
      cases heq
      exact ⟨rfl, if_pos hmemory⟩
  · intro g' hsize hmem hreload
    obtain ⟨p, hp, _⟩ := List.mem_map.mp hmem
    obtain ⟨line, hlast⟩ := ne_none_iff_exists'.mp
      (mt getLast?_eq_none_iff.mp (ne_nil_of_mem hp))
    have hzero : g.lc.grp.gpSize ≠ 0 := fun hzero => by
      rw [PsrGrpPriv.crtGrpPsrReload, if_pos hzero] at hreload
      cases hreload
    rcases crtGrpPsrReload_cases hreload with ⟨uri, hlookup, rfl⟩ | ⟨hlookup, s, hload, hrc, rfl⟩
    · rw [hlookup]
      exact iff_of_true rfl (Or.inl rfl)
    · have hpsr : g.candidate ≠ crtNoRank :=
        ((Nat.mod_lt _ (Nat.pos_of_ne_zero hzero)).trans_le hsize).ne
      obtain ⟨hrank, _⟩ := hfile.psr_of_load hfuel hpsr hlast hload hrc
      rw [hrank, hlookup, hlast]
      constructor
      · intro heq
        exact Or.inr ⟨line.2, by rw [← heq]⟩
      · rintro (hc | ⟨uri, heq⟩)
        · cases hc
        · cases heq
          rfl

/-- A file with two members. -/
def twoMembers : List (ℕ × Uri) := [(0, "tcp://a".toList), (1, "tcp://b".toList)]

theorem twoMembers_ok : ∀ q ∈ twoMembers, q.1 < crtNoRank ∧ UriOk q.2 := by
  intro q hq
  rcases mem_cons.mp hq with rfl | hq
  · exact ⟨by decide, by decide, by decide, by decide, by decide⟩
  · rw [mem_singleton.mp hq]
    exact ⟨by decide, by decide, by decide, by decide, by decide⟩

theorem attachFile_twoMembers :
    AttachFile "svc".toList (attachInfo "svc".toList 2 "all".toList twoMembers) twoMembers :=
  attachFile_attachInfo (by decide) (by decide) (by decide) (by decide)
    (fun q hq => ⟨(twoMembers_ok q hq).1.trans (by decide), (twoMembers_ok q hq).2⟩) 2

/-- The last of two members becomes the PSR if it is asked for. -/
theorem psr_choice_last : ∃ r, emptyView.crtGrpConfigPsrLoad 3 false easyAttach "svc".toList
    (attachInfo "svc".toList 2 "all".toList twoMembers) 1 = some r ∧
      ∀ s, r = .ok s → s.rc = 0 →
        s.grp.lc.grp.gpPsrRank = 1 ∧ s.grp.gpPsrPhyAddr = some "tcp://b".toList := by
  obtain ⟨r, hload, hr⟩ := (psr_choice_iff attachFile_twoMembers
    (by decide : twoMembers.length < 3) false false easyAttach emptyView).1 1 "tcp://b".toList
    (by decide) (by decide)
  exact ⟨r, hload, fun s hs hrc => (hr s hs hrc).mpr ⟨rfl, rfl⟩⟩

/-- The first of two members is asked for, and the last becomes the PSR. -/
theorem psr_choice_broken : ∃ s, emptyView.crtGrpConfigPsrLoad 3 false easyAttach "svc".toList
    (attachInfo "svc".toList 2 "all".toList twoMembers) 0 = some (.ok s) ∧ s.rc = 0 ∧
      s.grp.lc.grp.gpPsrRank = 1 ∧ s.grp.gpPsrPhyAddr = some "tcp://b".toList := by
  have hok : ∀ q ∈ twoMembers, q.1 ≠ crtNoRank ∧ q.2.length ≤ crtAddrStrMaxLen := fun q hq =>
    ⟨(twoMembers_ok q hq).1.ne, (twoMembers_ok q hq).2.short⟩
  have hlast : twoMembers.getLast? = some (1, "tcp://b".toList) := rfl
  obtain ⟨s, hlines, hrc, _⟩ := loadLines_holds false 0 easyAttach_calm
    (s := emptyView.unread easyAttach (-derInval)) holds_emptyView (by decide) hok
  have hfuel : twoMembers.length < 3 := by decide
  obtain ⟨s', psr, hload, hrc', _⟩ := attachFile_twoMembers.load_ok hfuel easyAttach_calm hlines
  obtain ⟨hrank, haddr⟩ := attachFile_twoMembers.psr_of_load hfuel (by decide : 0 ≠ crtNoRank)
    hlast hload (hrc'.trans hrc)
  exact ⟨s', hload, hrc'.trans hrc, hrank, haddr⟩

/-! ### The round trip -/

/-- The members of a group with their URIs. -/
def LcGrpPriv.memberUris (shareNa : Bool) (g : LcGrpPriv) : List (ℕ × Option Uri) :=
  g.grp.gpMembs.cgmLinearList.map fun rank => (rank, (g.crtGrpLcLookup shareNa 0 rank 0).1)

/-- The group of a service has these members, with ranks of their own and URIs that
can be saved. -/
structure AttachSelf.Saves (p : AttachSelf) (g : LcGrpPriv) (pairs : List (ℕ × Uri)) : Prop where
  primary : g.grp.gpPrimary = true
  listed : g.grp.gpMembs.cgmLinearList = pairs.map Prod.fst
  size : g.grp.gpSize = pairs.length
  distinct : (pairs.map Prod.fst).Nodup
  rank : ∀ q ∈ pairs, q.1 < crtNoRank
  uri : ∀ q ∈ pairs, p.crtRankUriGet g q.1 = .ok q.2
  uriOk : ∀ q ∈ pairs, UriOk q.2
  self : g.grp.gpSelf < 2 ^ 32
  addrOk : UriOk p.cgAddr

theorem Holds.memberUris_eq (h : Holds lines g)
    (shareNa : Bool) : g.memberUris shareNa = lines.map fun q => (q.1, some q.2) := by
  rw [memberUris, h.listed, List.map_map]
  refine map_congr_left fun q hq => ?_
  obtain ⟨item, hitem⟩ := isSome_iff_exists.mp (h.item q hq)
  show (q.1, (g.crtGrpLcLookup shareNa 0 q.1 0).1) = _
  rw [crtGrpLcLookup, hitem]
  rw [ite_self, h.uri q hq]

theorem memberUris_ne_of_no_uri {q : ℕ × Uri}
    (hnone : g.grpLiUriGet q.1 0 = none) : g.memberUris shareNa ≠ [(q.1, some q.2)] := by
  intro hmembers
  have hmem : (q.1, some q.2) ∈ g.memberUris shareNa := by
    rw [hmembers]
    exact mem_singleton_self _
  obtain ⟨r, _, heq⟩ := mem_map.mp hmem
  obtain ⟨rfl, hlookup⟩ := Prod.mk.inj heq
  rw [crtGrpLcLookup] at hlookup
  cases hitem : g.gpLookupCache 0 q.1 with
  | none =>
    rw [hitem] at hlookup
    cases hlookup
  | some item =>
    rw [hitem] at hlookup
    rw [ite_self, hnone] at hlookup
    cases hlookup

section

variable {p : AttachSelf} {pairs : List (ℕ × Uri)}

/-- The lines that are saved. -/
def AttachSelf.savedLines (p : AttachSelf) (g : LcGrpPriv) (pairs : List (ℕ × Uri)) :
    List (ℕ × Uri) :=
  if pairs.length = 1 then [(g.grp.gpSelf, p.cgAddr)] else pairs

theorem AttachSelf.Saves.save_eq (h : p.Saves g pairs) (grpid : List Char) :
    p.crtGroupConfigSave grpid g true =
      .ok (attachInfo grpid g.grp.gpSize "all".toList (p.savedLines g pairs)) := by
  have hmap : ∀ qs : List (ℕ × Uri), (∀ q ∈ qs, p.crtRankUriGet g q.1 = .ok q.2) →
      ((qs.map Prod.fst).mapM fun rank => do
        let uri ← p.crtRankUriGet g rank
        return (rank, uri)) = Except.ok qs := by
    intro qs hqs
    induction qs with
    | nil => rfl
    | cons q qs ih =>
      rw [map_cons, mapM_cons, hqs q mem_cons_self,
        ih fun q' hq' => hqs q' (mem_cons_of_mem _ hq')]
      rfl
  rw [crtGroupConfigSave, if_neg (by rw [h.primary]; decide), savedLines, ← h.size]
  by_cases hone : g.grp.gpSize = 1
  · rw [if_pos (.inr hone), if_pos hone]
    rfl
  · have hne : ¬ (true = false ∨ g.grp.gpSize = 1) := by
      rintro (hc | hc)
      · cases hc
      · exact hone hc
    rw [if_neg hne, if_neg hone, h.listed, h.size, take_of_length_le (by simp), hmap pairs h.uri]
    rfl

theorem AttachSelf.Saves.savedLines_ok (h : p.Saves g pairs) :
    (∀ q ∈ p.savedLines g pairs, q.1 < 2 ^ 32 ∧ UriOk q.2) ∧
      (p.savedLines g pairs).length = pairs.length := by
  rw [savedLines]
  split_ifs with hone
  · rw [hone]
    refine ⟨fun q hq => ?_, rfl⟩
    rw [mem_singleton.mp hq]
    exact ⟨h.self, h.addrOk⟩
  · exact ⟨fun q hq => ⟨(h.rank q hq).trans (by decide), h.uriOk q hq⟩, rfl⟩

/-- If a group of one is the process itself, the members are saved. -/
theorem AttachSelf.Saves.savedLines_eq (h : p.Saves g pairs)
    (hself : ∀ q, pairs = [q] → q.1 = g.grp.gpSelf) : p.savedLines g pairs = pairs := by
  rw [savedLines]
  by_cases hone : pairs.length = 1
  · obtain ⟨q, hq⟩ := length_eq_one_iff.mp hone
    have hrank := hself q hq
    have huri := h.uri q (hq ▸ mem_singleton_self q)
    rw [crtRankUriGet, if_neg (by rw [h.primary]; decide), if_pos hrank] at huri
    split at huri
    · cases huri
    · rw [if_pos hone, hq, ← hrank, Except.ok.inj huri]
  · rw [if_neg hone]

/-- The ids that are accepted have no null character. -/
theorem cString_of_valid (hvalid : crtValidateGrpid grpid = 0) : cString grpid = grpid := by
  obtain ⟨_, _, hgood⟩ := (crtValidateGrpid_eq_zero_iff grpid).mp hvalid
  have hall : ∀ c ∈ grpid, (c.toNat != 0) = true := by
    intro c hc
    have hbad := hgood c hc
    by_contra hzero
    rw [bne_iff_ne, not_not] at hzero
    rw [badGrpidChar, hzero] at hbad
    cases hbad
  rw [cString, ← append_nil grpid, takeWhile_append_of_pos hall]
  rfl

end

/-- **The round trip.** What a group saves gives the same members back if and only if its id has
less than 64 characters and no blank, and a group of one is the process itself. -/
theorem attach_round_trip_iff {grpid : List Char} (hvalid : crtValidateGrpid grpid = 0)
    {p : AttachSelf} {g : LcGrpPriv} {pairs : List (ℕ × Uri)} (hsaves : p.Saves g pairs)
    (service : Bool) {env : AttachEnv} (hcalm : env.Calm) (psrRank : ℕ) :
    (crtGrpPrivCreate 0 grpid = .ok grpid ∧
      (∀ ids, crtGroupLookup grpid ids grpid = .ok (some grpid)) ∧
      ∃ file s, p.crtGroupConfigSave grpid g true = .ok file ∧
        emptyView.crtGrpConfigPsrLoad (pairs.length + 1) service env grpid file psrRank =
          some (.ok s) ∧ s.rc = 0 ∧
        s.grp.lc.memberUris p.shareNa = pairs.map fun q => (q.1, some q.2)) ↔
    grpid.length < crtGroupIdMaxLen ∧ (∀ c ∈ grpid, isSpace c = false) ∧
      ∀ q, pairs = [q] → q.1 = g.grp.gpSelf := by
  obtain ⟨hpos, hle, _⟩ := (crtValidateGrpid_eq_zero_iff grpid).mp hvalid
  have hne : grpid ≠ [] := ne_nil_of_length_pos hpos
  have hnull := cString_of_valid hvalid
  obtain ⟨hlines, hlength⟩ := hsaves.savedLines_ok
  have hfuel : (p.savedLines g pairs).length < pairs.length + 1 := by omega
  rw [hsaves.save_eq]
  constructor
  · rintro ⟨hcreate, _, file, s, hfile, hload, hrc, hmembers⟩
    obtain rfl := Except.ok.inj hfile
    have hsolid : ∀ c ∈ grpid, isSpace c = false := by
      intro c hc
      by_contra hblank
      rw [Bool.not_eq_false] at hblank
      rw [PsrGrpPriv.crtGrpConfigPsrLoad, if_neg (not_not.mpr hcalm.openRc),
        attachHeader_of_blank env.errnoRc hle hc hblank] at hload
      cases hload
      cases hrc
    refine ⟨(crtGrpPrivCreate_iff hvalid).mp hcreate, hsolid, fun q hq => ?_⟩
    by_contra hother
    -- what is loaded is the process that saved the group, which is not its member
    have hattach := attachFile_attachInfo hne hsolid hle hnull hlines g.grp.gpSize
    have hsaved : p.savedLines g pairs = [(g.grp.gpSelf, p.cgAddr)] := by
      rw [AttachSelf.savedLines, hq]
      rfl
    have hnot : q.1 ∉ (p.savedLines g pairs).map Prod.fst := by
      rw [hsaved]
      exact fun hmem => hother (mem_singleton.mp hmem)
    cases hlines' : loadLines service env psrRank (p.savedLines g pairs)
      (emptyView.unread env (-derInval)) with
    | error stop =>
      rw [hattach.load_eq hfuel service hcalm.openRc hcalm.addrAllocated, hlines'] at hload
      cases hload
    | ok t =>
      obtain ⟨s', psr, hload', _, hlc⟩ := hattach.load_ok hfuel hcalm hlines'
      obtain rfl := Except.ok.inj (Option.some.inj (hload'.symm.trans hload))
      have hnone : s'.grp.lc.grpLiUriGet q.1 0 = none := by
        rw [hlc]
        exact grpLiUriGet_of_loadLines hcalm hnot emptyView_isView hlines'
      exact memberUris_ne_of_no_uri hnone (by rw [hmembers, hq]; rfl)
  · rintro ⟨hlt, hsolid, hself⟩
    have hattach := attachFile_attachInfo hne hsolid hle hnull hlines g.grp.gpSize
    rw [hsaves.savedLines_eq hself] at hattach hfuel
    have hok : ∀ q ∈ pairs, q.1 ≠ crtNoRank ∧ q.2.length ≤ crtAddrStrMaxLen := fun q hq =>
      ⟨(hsaves.rank q hq).ne, (hsaves.uriOk q hq).short⟩
    obtain ⟨s, hlines', hrc, hholds⟩ := loadLines_holds service psrRank hcalm
      (s := emptyView.unread env (-derInval)) holds_emptyView hsaves.distinct hok
    obtain ⟨s', psr, hload, hrc', hlc⟩ := hattach.load_ok hfuel hcalm hlines'
    refine ⟨(crtGrpPrivCreate_iff hvalid).mpr hlt, crtGroupLookup_primary hvalid hlt, _, s', rfl,
      ?_, hrc'.trans hrc, ?_⟩
    · rw [hsaves.savedLines_eq hself]
      exact hload
    · rw [hlc]
      exact (hholds.psr psr).memberUris_eq p.shareNa

/-- The process that is rank 0, and knows the URI of rank 1. -/
def attachSelf : AttachSelf := ⟨"tcp://a".toList, 0, false⟩

/-- A service with the ranks of a list as members; there is a URI for rank 1. -/
def serviceGrp (ranks : List ℕ) : LcGrpPriv where
  grp := { GrpPriv.crtGroupViewCreate with
    gpView := false
    gpMembs := ⟨[], ranks, ranks⟩
    gpSize := ranks.length
    gpSelf := 0
    gpUriLookupCache := fun r => r == 1 }
  uiUri := fun _ _ => some "tcp://b".toList
  gpLookupCache := fun _ r => if r = 1 then some fun _ => none else none
  gpMembsVer := 0

theorem saves_twoMembers : attachSelf.Saves (serviceGrp [0, 1]) twoMembers := by
  refine ⟨rfl, rfl, rfl, by decide, fun q hq => (twoMembers_ok q hq).1, fun q hq => ?_,
    fun q hq => (twoMembers_ok q hq).2, by decide,
    ⟨by decide, by decide, by decide, by decide⟩⟩
  rcases mem_cons.mp hq with rfl | hq
  · rfl
  · rw [mem_singleton.mp hq]
    rfl

/-- Two members are saved and loaded. -/
theorem attach_round_trip_two :
    ∃ file s, attachSelf.crtGroupConfigSave "svc".toList (serviceGrp [0, 1]) true = .ok file ∧
      emptyView.crtGrpConfigPsrLoad 3 false easyAttach "svc".toList file crtNoRank = some (.ok s) ∧
      s.rc = 0 ∧
      s.grp.lc.memberUris false = [(0, some "tcp://a".toList), (1, some "tcp://b".toList)] :=
  ((attach_round_trip_iff (by decide : crtValidateGrpid "svc".toList = 0) saves_twoMembers false
    easyAttach_calm crtNoRank).mpr ⟨by decide, by decide, fun q hq => by cases hq⟩).2.2

/-- An id with a blank, one of 64 characters, and a group of one that is not the process. -/
theorem attach_round_trip_broken :
    (crtValidateGrpid "my svc".toList = 0 ∧
      ∃ file, attachSelf.crtGroupConfigSave "my svc".toList (serviceGrp [0, 1]) true = .ok file ∧
        emptyView.crtGrpConfigPsrLoad 3 false easyAttach "my svc".toList file crtNoRank =
          some (.ok (emptyView.unread easyAttach (-derInval)))) ∧
    (crtValidateGrpid (List.replicate 64 'g') = 0 ∧
      crtGrpPrivCreate 0 (List.replicate 64 'g') = .error .assertFail) ∧
    attachSelf.crtGroupConfigSave "svc".toList (serviceGrp [1]) true =
      .ok "name svc\nsize 1\nall\n0 tcp://a\n".toList := by
  refine ⟨⟨by decide, _, saves_twoMembers.save_eq _, ?_⟩, ⟨by decide, by decide⟩, by decide⟩
  rw [PsrGrpPriv.crtGrpConfigPsrLoad, if_neg (not_not.mpr easyAttach_calm.openRc),
    attachHeader_of_blank easyAttach.errnoRc (by decide) (by decide : ' ' ∈ "my svc".toList) rfl]

end Cart
