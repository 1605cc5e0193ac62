import CoverageReplay.Proofs.Splicing.Splice

/-!
# Splicing slice by slice

Splicing sorts the holes and goes through them with a cursor, up to which the source is done with:
each hole is checked when it is reached, and what stands between the cursor and the hole is copied
as a slice of the source. `spliceFrom?` says so step by step. A slice can be asked for only between
boundaries of characters that come in order, and `splice?_decides` says that this is always so,
whatever holes there are: however they overlap, the cursor stays on a boundary (`spliceFrom?_eq`).

So splicing refuses exactly the trees with a hole that is not a stretch of the source, and of all
others it keeps the characters that lie outside all holes.
-/

namespace CoverageReplay

/-! ## Boundaries -/

section Boundaries

variable {cs front middle back : List Char} {n : Nat} {c : Char} {source : String}

/-- The size of a text is what its characters add up to. -/
theorem byteSize_toList (source : String) : byteSize source.toList = source.utf8ByteSize := by
  obtain ⟨cs, rfl⟩ : ∃ cs, source = String.ofList cs := ⟨source.toList, String.ofList_toList.symm⟩
  rw [String.toList_ofList]
  induction cs with
  | nil => rfl
  | cons c cs ih =>
    have hsplit : String.ofList (c :: cs) = String.singleton c ++ String.ofList cs := by
      rw [String.singleton_eq_ofList, ← String.ofList_append, List.singleton_append]
    rw [byteSize_cons, ih, hsplit, String.utf8ByteSize_append, String.utf8ByteSize_singleton]

/-- A text without bytes is empty. -/
theorem eq_nil_of_byteSize (h : byteSize cs = 0) : cs = [] := by
  cases cs with
  | nil => rfl
  | cons c cs =>
    have hpos := c.utf8Size_pos
    rw [byteSize_cons] at h
    omega

/-- The end of a first part is a boundary. -/
theorem isBoundary_byteSize (front back : List Char) :
    isBoundary (front ++ back) (byteSize front) := by
  induction front with
  | nil => exact isBoundary_zero _
  | cons c front ih =>
    have hpos := c.utf8Size_pos
    rw [List.cons_append, byteSize_cons, isBoundary_cons (by omega), Nat.add_sub_cancel_left, ih,
      Bool.and_true]
    exact decide_eq_true (Nat.le_add_right _ _)

/-- A boundary is where a first part of the text ends. -/
theorem isBoundary_iff_append :
    isBoundary cs n ↔ ∃ front back, cs = front ++ back ∧ byteSize front = n := by
  constructor
  · intro h
    obtain ⟨happend, hsize⟩ := splitBytes_spec h
    exact ⟨_, _, happend.symm, hsize⟩
  · rintro ⟨front, back, rfl, rfl⟩
    exact isBoundary_byteSize front back

/-- Boundaries are the valid positions of the text. -/
theorem isBoundary_iff_isValid :
    isBoundary source.toList n ↔ (⟨n⟩ : String.Pos.Raw).IsValid source := by
  rw [isBoundary_iff_append, String.Pos.Raw.isValid_iff_exists_append]
  constructor
  · rintro ⟨front, back, happend, rfl⟩
    refine ⟨String.ofList front, String.ofList back, ?_, ?_⟩
    · rw [← String.ofList_append, ← happend, String.ofList_toList]
    · rw [← String.toList_ofList (l := front), byteSize_toList, String.ofList_toList]
      rfl
  · rintro ⟨front, back, rfl, hn⟩
    refine ⟨front.toList, back.toList, String.toList_append, ?_⟩
    rw [byteSize_toList]
    exact (congrArg String.Pos.Raw.byteIdx hn).symm

/-- No boundary lies within a character. -/
theorem le_or_le_of_isBoundary (h : isBoundary (front ++ c :: back) n) :
    n ≤ byteSize front ∨ byteSize front + c.utf8Size ≤ n := by
  have hrest := isBoundary_append h
  by_cases hzero : n - byteSize front = 0
  · exact Or.inl (by omega)
  · rw [isBoundary_cons hzero, Bool.and_eq_true, decide_eq_true_eq] at hrest
    exact Or.inr (by omega)

end Boundaries

/-! ## Holes that are no stretch of the source -/

/-- Whether a hole is no stretch of characters of a source: it ends before it starts or behind the
source, or one of its ends lies within a character. -/
def Hole.IsOutside (source : String) (h : Hole) : Prop :=
  h.stop < h.start ∨ source.utf8ByteSize < h.stop ∨ ¬ (⟨h.start⟩ : String.Pos.Raw).IsValid source ∨
    ¬ (⟨h.stop⟩ : String.Pos.Raw).IsValid source

/-- A hole fits unless one of its ends lies outside the text or within a character. -/
theorem Hole.fits_iff_not_isOutside {source : String} {h : Hole} :
    h.fits source.toList ↔ ¬ h.IsOutside source := by
  have hend : (⟨h.stop⟩ : String.Pos.Raw).IsValid source → h.stop ≤ source.utf8ByteSize :=
    fun hvalid => hvalid.le_utf8ByteSize
  rw [fits_iff, isBoundary_iff_isValid, isBoundary_iff_isValid, IsOutside, not_or, not_or, not_or,
    Classical.not_not, Classical.not_not, Nat.not_lt, Nat.not_lt]
  constructor
  · rintro ⟨hle, hstart, hstop⟩
    exact ⟨hle, hend hstop, hstart, hstop⟩
  · rintro ⟨hle, _, hstart, hstop⟩
    exact ⟨hle, hstart, hstop⟩

instance (source : String) (h : Hole) : Decidable (h.IsOutside source) :=
  decidable_of_iff (¬ h.fits source.toList) (by rw [Hole.fits_iff_not_isOutside, Classical.not_not])

/-! ## Slices -/

/-- The stretch of a text between two bytes; `none` if they do not come in order or one of them is
no boundary. -/
def slice? (cs : List Char) (start stop : Nat) : Option (List Char) :=
  if start ≤ stop && isBoundary cs start && isBoundary cs stop then
    some (splitBytes (splitBytes cs start).2 (stop - start)).1
  else none

/-- A text is split at the end of its first part into this and the rest. -/
theorem splitBytes_append (front back : List Char) :
    splitBytes (front ++ back) (byteSize front) = (front, back) := by
  induction front with
  | nil =>
    cases back with
    | nil => rfl
    | cons => rfl
  | cons c front ih =>
    have hpos := c.utf8Size_pos
    rw [List.cons_append, byteSize_cons, splitBytes, if_neg (by omega), Nat.add_sub_cancel_left, ih]

/-- Between the ends of two first parts of a text stands what the longer one has more. -/
theorem slice?_append (front middle back : List Char) :
    slice? (front ++ (middle ++ back)) (byteSize front) (byteSize front + byteSize middle) =
      some middle := by
  have hstop : isBoundary (front ++ (middle ++ back)) (byteSize front + byteSize middle) := by
    rw [← List.append_assoc, ← byteSize_append]
    exact isBoundary_byteSize _ _
  rw [slice?, isBoundary_byteSize, hstop, decide_eq_true (Nat.le_add_right _ _), splitBytes_append,
    Nat.add_sub_cancel_left, splitBytes_append]
  rfl

namespace SourceTree

/-- Why a hole cannot be left out. -/
def holeFault (t : SourceTree) (h : Hole) : ReplayError :=
  .render t.path ("removed range " ++ toString h.start ++ ".." ++ toString h.stop ++
    " is outside the source")

/-- Goes on with some holes, `out` being what is copied so far and `cursor` the byte up to which the
source is done with; `none` if a slice is asked for that the source does not have. -/
def spliceFrom? (t : SourceTree) (cursor : Nat) (out : List Char) :
    List Hole → Option (Except ReplayError String)
  | [] =>
    (slice? t.source.toList cursor (byteSize t.source.toList)).map fun last =>
      .ok (String.ofList (out ++ last))
  | h :: rest =>
    if h.fits t.source.toList then
      if cursor < h.start then
        (slice? t.source.toList cursor h.start).bind fun kept =>
          t.spliceFrom? (max cursor h.stop) (out ++ kept) rest
      else t.spliceFrom? (max cursor h.stop) out rest
    else some (.error (t.holeFault h))

variable {t : SourceTree}

/-- Going on from a boundary never asks for a slice that is not there. It comes to the first hole
that is no stretch of the source, or to the end. -/
theorem spliceFrom?_eq {front back : List Char} (source : t.source.toList = front ++ back)
    (out : List Char) (holes : List Hole) :
    t.spliceFrom? (byteSize front) out holes =
      some (match holes.find? fun h => !h.fits t.source.toList with
        | some h => .error (t.holeFault h)
        | none => .ok (String.ofList (out ++ copyAround (byteSize front) back holes))) := by
  -- The induction is on the holes, for every way to split the source at the cursor.
  induction holes generalizing front back out with
  | nil =>
    have hlast := slice?_append front back []
    rw [List.append_nil, ← byteSize_append, ← source] at hlast
    rw [spliceFrom?, hlast]
    rfl
  | cons h rest ih =>
    rw [spliceFrom?, List.find?_cons]
    by_cases hfits : h.fits t.source.toList
    · rw [if_pos hfits, hfits, Bool.not_true]
      dsimp only
      obtain ⟨hle, hfirst, hlast⟩ := Hole.fits_iff.mp hfits
      obtain ⟨kept, lost, after, rfl, hstart, hstop, hcopy⟩ :=
        copyAround_cons (isBoundary_append (source ▸ hfirst))
          (isBoundary_append (source ▸ hlast)) rest
      have hcursor : max (byteSize front) h.stop = byteSize (front ++ (kept ++ lost)) := by
        rw [byteSize_append, byteSize_append]
        omega
      have hsource : t.source.toList = (front ++ (kept ++ lost)) ++ after := by
        rw [source]
        simp only [List.append_assoc]
      have hrest (out : List Char) := ih hsource out
      rw [byteSize_append, byteSize_append, ← Nat.add_assoc] at hrest hcursor
      rw [hcopy, hcursor]
      by_cases hlt : byteSize front < h.start
      · have hslice : slice? t.source.toList (byteSize front) h.start = some kept := by
          have hend : h.start = byteSize front + byteSize kept := by omega
          rw [source, hend, slice?_append]
        rw [if_pos hlt, hslice, Option.bind_some, hrest, List.append_assoc]
      · -- The hole starts before the cursor, so there is nothing to copy.
        have hkept : kept = [] := eq_nil_of_byteSize (by omega)
        rw [if_neg hlt, hrest, hkept, List.nil_append]
    · rw [if_neg hfits, Bool.eq_false_iff.mpr hfits, Bool.not_false]

/-- Splicing goes through the sorted holes from the start of the source. -/
theorem spliceFrom?_zero (t : SourceTree) :
    t.spliceFrom? 0 [] (t.holes.mergeSort Hole.before) = some t.splice? := by
  have hfrom :=
    spliceFrom?_eq (List.nil_append t.source.toList).symm [] (t.holes.mergeSort Hole.before)
  rw [byteSize_nil, List.nil_append] at hfrom
  rw [hfrom, splice?]
  rfl

end SourceTree

/-! ## The characters outside all holes -/

/-- The characters of a text with the bytes they begin at, the first at byte `cursor`. -/
def placed (cursor : Nat) : List Char → List (Nat × Char)
  | [] => []
  | c :: cs => (cursor, c) :: placed (cursor + c.utf8Size) cs

/-- The characters of a text that have none of their bytes in a hole. -/
def outside (holes : List Hole) (cs : List Char) : List Char :=
  ((placed 0 cs).filter fun e => ∀ k < e.2.utf8Size, ∀ h ∈ holes, ¬ h.covers (e.1 + k)).map Prod.snd

section Outside

variable {cs front back : List Char} {cursor k : Nat} {c : Char} {h : Hole} {holes : List Hole}

/-- Each character stands behind the bytes of what precedes it. -/
theorem exists_of_mem_placed (mem : (k, c) ∈ placed cursor cs) :
    ∃ front back, cs = front ++ c :: back ∧ k = cursor + byteSize front := by
  induction cs generalizing cursor with
  | nil => cases mem
  | cons d cs ih =>
    rw [placed, List.mem_cons] at mem
    rcases mem with hfirst | hlater
    · injection hfirst with hk hc
      exact ⟨[], cs, by rw [hc, List.nil_append], by rw [hk, byteSize_nil, Nat.add_zero]⟩
    · obtain ⟨front, back, hsplit, hk⟩ := ih hlater
      exact ⟨d :: front, back, by rw [hsplit, List.cons_append], by
        rw [hk, byteSize_cons, Nat.add_assoc]⟩

/-- What is kept of a text are the characters at the places that are kept. -/
theorem select_eq_placed (keep : Nat → Bool) (cursor : Nat) (cs : List Char) :
    select keep cursor cs = ((placed cursor cs).filter fun e => keep e.1).map Prod.snd := by
  induction cs generalizing cursor with
  | nil => rfl
  | cons c cs ih =>
    rw [select, placed, List.filter_cons, ih]
    by_cases hkeep : keep cursor
    · rw [if_pos hkeep, if_pos hkeep, List.map_cons]
    · rw [if_neg hkeep, if_neg hkeep]

/-- Of a character, a hole takes all bytes or none. -/
theorem Hole.covers_add_iff (fits : h.fits (front ++ c :: back)) (hlt : k < c.utf8Size) :
    h.covers (byteSize front + k) ↔ h.covers (byteSize front) := by
  obtain ⟨_, hfirst, hlast⟩ := Hole.fits_iff.mp fits
  have hstart := le_or_le_of_isBoundary hfirst
  have hstop := le_or_le_of_isBoundary hlast
  rw [Hole.covers_iff, Hole.covers_iff]
  omega

/-- So to select characters by their first bytes is to select them by all of their bytes. -/
theorem outside_eq_select (fits : ∀ h ∈ holes, h.fits cs) :
    outside holes cs = select (fun k => !holes.any (·.covers k)) 0 cs := by
  rw [outside, select_eq_placed]
  refine congrArg (List.map Prod.snd) (List.filter_congr fun (k, c) hmem => ?_)
  obtain ⟨front, back, hsplit, hk⟩ := exists_of_mem_placed hmem
  rw [Nat.zero_add] at hk
  subst hsplit hk
  rw [Bool.eq_iff_iff, decide_eq_true_eq, Bool.not_eq_true', List.any_eq_false]
  constructor
  · intro hnone h hh
    exact hnone 0 c.utf8Size_pos h hh
  · intro hnone j hlt h hh
    rw [Hole.covers_add_iff (fits h hh) hlt]
    exact hnone h hh

/-- What is outside all holes depends on the bytes only that the holes take together. -/
theorem outside_congr {others : List Hole}
    (same : ∀ k, (∃ h ∈ others, h.covers k) ↔ ∃ h ∈ holes, h.covers k) :
    outside others cs = outside holes cs := by
  refine congrArg (List.map Prod.snd) (List.filter_congr fun (k, c) _ => decide_eq_decide.mpr ?_)
  refine forall_congr' fun j => forall_congr' fun _ => ?_
  have hsame := not_congr (same (k + j))
  simpa using hsame

end Outside

/-! ## What splicing comes to -/

/-- What is found first among sorted holes comes before all others that could be found. -/
theorem first_of_find?_mergeSort {holes : List Hole} {p : Hole → Bool} {h : Hole}
    (found : (holes.mergeSort Hole.before).find? p = some h) :
    h ∈ holes ∧ p h ∧ ∀ x ∈ holes, p x → h.before x := by
  have hperm := List.mergeSort_perm holes Hole.before
  have hsorted := pairwise_before_mergeSort holes
  obtain ⟨hp, front, back, hsplit, hnone⟩ := List.find?_eq_some_iff_append.mp found
  rw [hsplit] at hperm hsorted
  rw [List.pairwise_append, List.pairwise_cons] at hsorted
  refine ⟨hperm.mem_iff.mp (by simp), hp, fun x hx hpx => ?_⟩
  rcases List.mem_append.mp (hperm.mem_iff.mpr hx) with hfront | hback
  · have hnot := hnone x hfront
    rw [hpx] at hnot
    cases hnot
  · rcases List.mem_cons.mp hback with rfl | hback
    · exact Hole.before_iff.mpr (Or.inr ⟨rfl, Nat.le_refl _⟩)
    · exact hsorted.2.1.1 x hback

namespace SourceTree

variable {t : SourceTree}

/-- A tree with a hole that is no stretch of the source is refused for the first such hole. -/
theorem splice?_of_isOutside (some_outside : ∃ h ∈ t.holes, h.IsOutside t.source) :
    ∃ h ∈ t.holes, h.IsOutside t.source ∧ (∀ x ∈ t.holes, x.IsOutside t.source → h.before x) ∧
      t.splice? = .error (t.holeFault h) := by
  have hbad (x : Hole) : (!x.fits t.source.toList) = true ↔ x.IsOutside t.source := by
    rw [Bool.not_eq_true', Bool.eq_false_iff, ne_eq, Hole.fits_iff_not_isOutside, Classical.not_not]
  rw [splice?]
  cases hfind : (t.holes.mergeSort Hole.before).find? fun h => !h.fits t.source.toList with
  | none =>
    obtain ⟨h, hh, hout⟩ := some_outside
    have hmem := (List.mergeSort_perm t.holes Hole.before).mem_iff.mpr hh
    exact absurd ((hbad h).mpr hout) (List.find?_eq_none.mp hfind h hmem)
  | some h =>
    obtain ⟨hmem, hp, hfirst⟩ := first_of_find?_mergeSort hfind
    exact ⟨h, hmem, (hbad h).mp hp, fun x hx hout => hfirst x hx ((hbad x).mpr hout), rfl⟩

/-- Of any other tree the characters outside all holes are kept. -/
theorem splice?_of_not_isOutside (fits : ∀ h ∈ t.holes, ¬ h.IsOutside t.source) :
    t.splice? = .ok (String.ofList (outside t.holes t.source.toList)) := by
  have hfits : ∀ h ∈ t.holes, h.fits t.source.toList :=
    fun h hh => Hole.fits_iff_not_isOutside.mpr (fits h hh)
  rw [splice?_eq hfits, outside_eq_select hfits]

/-- Splicing never asks for a slice that the source does not have. It refuses the trees with a hole
that is no stretch of the source, for the first such hole. Of all other trees it keeps the
characters that have no byte in a hole, in their order, so that only the bytes matter that the holes
take together. -/
theorem splice?_decides (t : SourceTree) :
    t.spliceFrom? 0 [] (t.holes.mergeSort Hole.before) = some t.splice? ∧
    ((∃ message, t.splice? = .error (.render t.path message)) ↔
      ∃ h ∈ t.holes, h.IsOutside t.source) ∧
    ((∃ h ∈ t.holes, h.IsOutside t.source) →
      ∃ h ∈ t.holes, h.IsOutside t.source ∧ (∀ x ∈ t.holes, x.IsOutside t.source → h.before x) ∧
        t.splice? = .error (t.holeFault h)) ∧
    ((∀ h ∈ t.holes, ¬ h.IsOutside t.source) →
      t.splice? = .ok (String.ofList (outside t.holes t.source.toList)) ∧
      ∀ holes : List Hole, (∀ h ∈ holes, ¬ h.IsOutside t.source) →
        (∀ k, (∃ h ∈ holes, h.covers k) ↔ ∃ h ∈ t.holes, h.covers k) →
        SourceTree.splice? { t with holes := holes } = t.splice?) := by
  refine ⟨spliceFrom?_zero t, ⟨fun herror => ?_, fun hsome => ?_⟩, splice?_of_isOutside,
    fun hfits => ⟨?_, ?_⟩⟩
  · -- The trees that are not refused are spliced.
    refine Classical.byContradiction fun hnone => ?_
    obtain ⟨message, herror⟩ := herror
    rw [splice?_of_not_isOutside fun h hh hout => hnone ⟨h, hh, hout⟩] at herror
    cases herror
  · obtain ⟨h, _, _, _, herror⟩ := splice?_of_isOutside hsome
    exact ⟨_, herror⟩
  · exact splice?_of_not_isOutside hfits
  · intro holes hothers hsame
    rw [splice?_of_not_isOutside hfits, splice?_of_not_isOutside (t :=
      { t with holes := holes }) hothers, outside_congr hsame]

/-- In `aé€x` the euro sign is bytes 3 to 5. Holes that overlap there, one of them twice, another
empty, take what two holes take that touch; byte 2 lies within the letter before it. -/
theorem splice?_decides_overlapping :
    let t : SourceTree :=
      { path := "a.rs", source := "aé€x", bodies := [], holes := [⟨3, 6⟩, ⟨1, 6⟩, ⟨6, 6⟩, ⟨3, 6⟩] }
    t.splice? = .ok "ax" ∧ SourceTree.splice? { t with holes := [⟨3, 6⟩, ⟨1, 3⟩] } = .ok "ax" ∧
      SourceTree.splice? { t with holes := [⟨6, 5⟩, ⟨2, 3⟩] } =
        .error (.render "a.rs" "removed range 2..3 is outside the source") := by
  intro t
  have hsource : outside t.holes t.source.toList = ['a', 'x'] := by decide +kernel
  have hinside : ∀ h ∈ t.holes, ¬ h.IsOutside t.source := by decide +kernel
  have hothers : ∀ h ∈ [Hole.mk 3 6, ⟨1, 3⟩], ¬ h.IsOutside t.source := by decide +kernel
  have hsame : ∀ k, (∃ h ∈ [Hole.mk 3 6, ⟨1, 3⟩], h.covers k) ↔ ∃ h ∈ t.holes, h.covers k := by
    intro k
    simp only [t, List.mem_cons, List.not_mem_nil, or_false, exists_eq_or_imp, exists_eq_left,
      Hole.covers_iff]
    omega
  obtain ⟨hspliced, hunion⟩ := (splice?_decides t).2.2.2 hinside
  rw [hsource] at hspliced
  refine ⟨hspliced, (hunion _ hothers hsame).trans hspliced, ?_⟩
  obtain ⟨h, hmem, hout, hfirst, herror⟩ :=
    (splice?_decides { t with holes := [⟨6, 5⟩, ⟨2, 3⟩] }).2.2.1
    ⟨⟨2, 3⟩, by decide, by decide +kernel⟩
  have hbefore := hfirst ⟨2, 3⟩ (by decide) (by decide +kernel)
  have hmessage : "removed range " ++ toString 2 ++ ".." ++ toString 3 ++ " is outside the source" =
      "removed range 2..3 is outside the source" := by decide +kernel
  simp only [List.mem_cons, List.not_mem_nil, or_false] at hmem
  rcases hmem with rfl | rfl
  · exact absurd hbefore (by decide)
  · rw [herror, holeFault, hmessage]

end SourceTree

end CoverageReplay
