import CoverageReplay.Proofs.Splicing.Agreement

/-!
# Where the places of the outline lie

The parser counts lines and columns, holes are bytes. `LineIndex.offset_advance` says that the index
of a text takes a place back to the byte it was counted from.

Lowering looks places up in the source without one byte-order mark. The parser counts in less than
that: one more mark is gone for it, and a line that names an interpreter. `Layout.byte_ofSource_iff`
says which places are taken to their own bytes all the same: all of them if the parser left nothing
out, and in any case those behind the first line feed. `SourceTree.places_of_parse?` says so of
every source that is accepted. A place of the first line of a source with two marks is taken to a
byte too early, and what is then cut out of that line is not what the parser saw there
(`SourceTree.render?_marked`).
-/

namespace CoverageReplay

open Rust

/-! ## Places and the line index -/

namespace Rust.Place

@[simp] theorem advance_nil (p : Place) : p.advance [] = p := rfl

@[simp] theorem advance_cons (p : Place) (c : Char) (cs : List Char) :
    p.advance (c :: cs) = (p.step c).advance cs := rfl

theorem advance_append (p : Place) (front back : List Char) :
    p.advance (front ++ back) = (p.advance front).advance back :=
  List.foldl_append

/-- In a line only the column grows. -/
theorem advance_of_not_mem (line column : Nat) {cs : List Char} (h : '\n' ∉ cs) :
    (⟨line, column⟩ : Place).advance cs = ⟨line, column + cs.length⟩ := by
  induction cs generalizing column with
  | nil => rfl
  | cons c cs ih =>
    rw [List.mem_cons, not_or] at h
    have hstep : (⟨line, column⟩ : Place).step c = ⟨line, column + 1⟩ := if_neg (Ne.symm h.1)
    rw [advance_cons, hstep, ih _ h.2, List.length_cons, Nat.add_assoc, Nat.add_comm 1]

/-- A line feed forgets the column. -/
theorem advance_of_mem (line column column' : Nat) {cs : List Char} (h : '\n' ∈ cs) :
    (⟨line, column⟩ : Place).advance cs = (⟨line, column'⟩ : Place).advance cs := by
  induction cs generalizing column column' with
  | nil => exact absurd h List.not_mem_nil
  | cons c cs ih =>
    by_cases hc : c = '\n'
    · rw [advance_cons, advance_cons, hc]
      rfl
    · have hmem : '\n' ∈ cs := (List.mem_cons.mp h).resolve_left (Ne.symm hc)
      have hstep : ∀ k, (⟨line, k⟩ : Place).step c = ⟨line, k + 1⟩ := fun k => if_neg hc
      rw [advance_cons, advance_cons, hstep, hstep]
      exact ih _ _ hmem

end Rust.Place

namespace LineIndex

/-- The first line begins with what has been read of it. -/
theorem splitLines_head (line cs : List Char) :
    ∃ more rest, splitLines line cs = (line.reverse ++ more) :: rest := by
  induction cs generalizing line with
  | nil => exact ⟨[], [], by rw [splitLines, List.append_nil]⟩
  | cons c cs ih =>
    rw [splitLines]
    split
    · exact ⟨[c], splitLines [] cs, by rw [List.reverse_cons]⟩
    · obtain ⟨more, rest, h⟩ := ih (c :: line)
      exact ⟨c :: more, rest, by
        rw [h, List.reverse_cons, List.append_assoc, List.singleton_append]⟩

/-- The place after `front` is found in one of the lines, at the byte that `front` leads to. The
characters `line` have been read of the current line, which begins at byte `start`. -/
theorem exists_line (start number : Nat) (line front back : List Char) :
    ∃ k from_ cs, ((⟨number, line.length⟩ : Place).advance front).line = number + k ∧
      (place start (splitLines line (front ++ back)))[k]? = some (from_, cs) ∧
      from_ + byteSize (cs.take ((⟨number, line.length⟩ : Place).advance front).column) =
        start + byteSize line + byteSize front := by
  -- The induction is on what is before the place, for every start of the line that it is in.
  induction front generalizing start number line with
  | nil =>
    obtain ⟨more, rest, hsplit⟩ := splitLines_head line back
    refine ⟨0, start, line.reverse ++ more, rfl, ?_, ?_⟩
    · rw [List.nil_append, hsplit, place, List.getElem?_cons_zero]
    · rw [Place.advance_nil, byteSize_nil, Nat.add_zero, List.take_left' List.length_reverse,
        byteSize_reverse]
  | cons c front ih =>
    rw [Place.advance_cons, List.cons_append, splitLines, byteSize_cons]
    by_cases hc : c = '\n'
    · -- The line ends here; the rest is found in the lines after it.
      have hstep : (⟨number, line.length⟩ : Place).step c = ⟨number + 1, ([] : List Char).length⟩ :=
        if_pos hc
      rw [if_pos hc, hstep]
      obtain ⟨k, from_, cs, hline, hfound, hbyte⟩ :=
        ih (start + byteSize (c :: line).reverse) (number + 1) []
      refine ⟨k + 1, from_, cs, ?_, ?_, ?_⟩
      · rw [hline]
        omega
      · rw [place, List.getElem?_cons_succ]
        exact hfound
      · rw [hbyte, byteSize_reverse, byteSize_cons, byteSize_nil]
        omega
    · have hstep : (⟨number, line.length⟩ : Place).step c = ⟨number, (c :: line).length⟩ :=
        if_neg hc
      rw [if_neg hc, hstep]
      obtain ⟨k, from_, cs, hline, hfound, hbyte⟩ := ih start number (c :: line)
      refine ⟨k, from_, cs, hline, hfound, ?_⟩
      rw [hbyte, byteSize_cons]
      omega

/-- The index of a text takes a place back to the byte it was counted from. -/
theorem offset_advance (front back : List Char) :
    (ofText (front ++ back)).offset (Place.origin.advance front).line
      (Place.origin.advance front).column = byteSize front := by
  obtain ⟨k, from_, cs, hline, hfound, hbyte⟩ := exists_line 0 1 [] front back
  have horigin : (⟨1, ([] : List Char).length⟩ : Place) = Place.origin := rfl
  rw [horigin] at hline hbyte
  rw [byteSize_nil, Nat.zero_add] at hbyte
  rw [hline, Nat.add_comm 1 k, offset, ofText, List.getElem?_toArray, hfound]
  exact hbyte

end LineIndex

/-! ## What the parser leaves out -/

/-- The part of a source in which the parser counts lines and columns. -/
def countedText (cs : List Char) : List Char :=
  dropInterpreter (dropMark (dropMark cs))

/-- At most a mark is dropped, and it ends no line. -/
theorem dropMark_spec (cs : List Char) :
    ∃ lead, cs = lead ++ dropMark cs ∧ '\n' ∉ lead := by
  cases cs with
  | nil => exact ⟨[], rfl, List.not_mem_nil⟩
  | cons c cs =>
    by_cases hc : c = byteOrderMark
    · refine ⟨[c], ?_, ?_⟩
      · rw [dropMark, if_pos hc, List.singleton_append]
      · rw [List.mem_singleton, hc]
        decide
    · refine ⟨[], ?_, List.not_mem_nil⟩
      rw [dropMark, if_neg hc, List.nil_append]

/-- At most a line is dropped, without its end. -/
theorem dropInterpreter_spec (cs : List Char) :
    ∃ lead, cs = lead ++ dropInterpreter cs ∧ '\n' ∉ lead := by
  have hline : ∃ lead, cs = lead ++ cs.dropWhile (· ≠ '\n') ∧ '\n' ∉ lead := by
    refine ⟨cs.takeWhile (· ≠ '\n'), List.takeWhile_append_dropWhile.symm, fun hmem => ?_⟩
    have hne := List.all_eq_true.mp List.all_takeWhile _ hmem
    simp at hne
  have hnothing : ∃ lead, cs = lead ++ cs ∧ '\n' ∉ lead := ⟨[], rfl, List.not_mem_nil⟩
  unfold dropInterpreter
  split
  · split
    · exact hnothing
    · exact hline
  · exact hnothing

/-- The parser leaves out a piece of the first line, if anything. -/
theorem countedText_spec (cs : List Char) :
    ∃ lead, dropMark cs = lead ++ countedText cs ∧ '\n' ∉ lead := by
  obtain ⟨mark, hmark, hmarkLine⟩ := dropMark_spec (dropMark cs)
  obtain ⟨line, hline, hlineLine⟩ := dropInterpreter_spec (dropMark (dropMark cs))
  refine ⟨mark ++ line, ?_, ?_⟩
  · rw [List.append_assoc, countedText, ← hline, ← hmark]
  · rw [List.mem_append, not_or]
    exact ⟨hmarkLine, hlineLine⟩

/-- Tokens are read from the counted part on. A mark that is still there is counted, but skipped. -/
theorem fileTokens?_eq (cs : List Char) :
    ∃ front back, countedText cs = front ++ back ∧
      fileTokens? (dropMark cs) = tokens? (Place.origin.advance front) back := by
  unfold fileTokens? countedText
  split
  · next c rest h =>
    rw [h]
    by_cases hc : c = byteOrderMark
    · exact ⟨[c], rest, rfl, by rw [if_pos hc]; rfl⟩
    · exact ⟨[], c :: rest, rfl, by rw [if_neg hc]; rfl⟩
  · next h =>
    rw [h]
    exact ⟨[], [], rfl, rfl⟩

/-! ## Bytes of places -/

namespace Layout

/-- How lowering looks at a source. -/
def ofSource (source : String) : Layout :=
  { bytes := source.toUTF8.data
    skipped := byteSize source.toList - byteSize (dropMark source.toList)
    index := .ofText (dropMark source.toList) }

/-- What lowering skips and what it sees are all bytes of a source. -/
theorem skipped_ofSource (source : String) :
    (ofSource source).skipped + byteSize (dropMark source.toList) = byteSize source.toList := by
  obtain ⟨lead, hlead, _⟩ := dropMark_spec source.toList
  have hsize := congrArg byteSize hlead
  rw [byteSize_append] at hsize
  show byteSize source.toList - _ + _ = _
  omega

variable {source : String} {lead front back : List Char}

/-- Lowering takes a place that was counted from the first character it sees to its own byte. -/
theorem byte_ofSource (h : dropMark source.toList = front ++ back) :
    (ofSource source).byte (Place.origin.advance front) + byteSize back =
      byteSize source.toList := by
  have hskipped := skipped_ofSource source
  have hoffset := LineIndex.offset_advance front back
  rw [← h] at hoffset
  rw [h, byteSize_append] at hskipped
  show (ofSource source).skipped +
    (LineIndex.ofText (dropMark source.toList)).offset _ _ + _ = _
  rw [hoffset]
  omega

/-- A place of the first line that was counted without the characters `lead` before it is taken to a
byte that lies as many characters too early. -/
theorem byte_ofSource_of_first_line (h : dropMark source.toList = lead ++ (front ++ back))
    (hlead : '\n' ∉ lead) (hfront : '\n' ∉ front) :
    (ofSource source).byte (Place.origin.advance front) +
        byteSize ((lead ++ front).drop front.length) + byteSize back =
      byteSize source.toList := by
  have hline : '\n' ∉ lead ++ front := by
    rw [List.mem_append, not_or]
    exact ⟨hlead, hfront⟩
  -- In the first line a place is its column, so lowering goes as many characters into its own text.
  have hplace : Place.origin.advance front =
      Place.origin.advance ((lead ++ front).take front.length) := by
    have hlength : ((lead ++ front).take front.length).length = front.length := by
      rw [List.length_take, List.length_append]
      omega
    unfold Place.origin
    rw [Place.advance_of_not_mem _ _ hfront,
      Place.advance_of_not_mem _ _ fun hmem => hline (List.mem_of_mem_take hmem), hlength]
  have hsplit : dropMark source.toList =
      (lead ++ front).take front.length ++ ((lead ++ front).drop front.length ++ back) := by
    rw [← List.append_assoc, List.take_append_drop, List.append_assoc, h]
  have hbyte := byte_ofSource hsplit
  rw [byteSize_append, ← hplace] at hbyte
  omega

/-- **Which places are taken to their own bytes.** The place between `front` and `back` in the
counted part of a source is taken to the byte where `back` begins exactly if the parser left out
nothing that lowering sees, or if the place is behind a line feed. -/
theorem byte_ofSource_iff (h : countedText source.toList = front ++ back) :
    (ofSource source).byte (Place.origin.advance front) + byteSize back = byteSize source.toList ↔
      countedText source.toList = dropMark source.toList ∨ '\n' ∈ front := by
  obtain ⟨lead, hcounted, hlead⟩ := countedText_spec source.toList
  constructor
  · intro hbyte
    by_cases hfront : '\n' ∈ front
    · exact .inr hfront
    · refine .inl ?_
      rw [h] at hcounted
      have hearly := byte_ofSource_of_first_line hcounted hlead hfront
      -- Nothing is left between the byte and `back`, so `lead` is empty.
      have hnone : byteSize ((lead ++ front).drop front.length) = 0 := by omega
      have hempty : lead = [] := by
        cases hdrop : (lead ++ front).drop front.length with
        | nil =>
          have hlength := congrArg List.length hdrop
          rw [List.length_drop, List.length_append, List.length_nil] at hlength
          exact List.length_eq_zero_iff.mp (by omega)
        | cons c rest =>
          have hpos := c.utf8Size_pos
          rw [hdrop, byteSize_cons] at hnone
          omega
      rw [hcounted, hempty, h, List.nil_append]
  · rintro (hsame | hfront)
    · exact byte_ofSource (by rw [← hsame, h])
    · -- Counted with `lead` the place is the same, since its line begins behind both.
      have hplace : Place.origin.advance front = Place.origin.advance (lead ++ front) := by
        rw [Place.advance_append]
        unfold Place.origin
        rw [Place.advance_of_not_mem _ _ hlead]
        exact Place.advance_of_mem _ _ _ hfront
      rw [hplace]
      exact byte_ofSource (by rw [hcounted, h, List.append_assoc])

end Layout

namespace SourceTree

/-- The parser's tree is lowered from the outline of what lowering sees of the source. -/
theorem exists_lowered_of_parse? {path source : String} {t : SourceTree}
    (h : parse? path source = .ok t) :
    ∃ blocks, bodies? (String.ofList (dropMark source.toList)) = .ok blocks ∧
      t = lowered (Layout.ofSource source) path source blocks := by
  unfold parse? at h
  dsimp only at h
  split at h
  next => cases h
  next blocks hblocks =>
    injection h with h
    exact ⟨blocks, hblocks, h.symm⟩

/-- **Which places of a parsed source are taken to their own bytes.** The tree of a source is
lowered from the outline of what lowering sees of it, whose tokens are counted in what the parser
sees of it. A place in there is taken to the byte it was counted from exactly if the parser left out
nothing that lowering sees, or if the place is behind a line feed. -/
theorem places_of_parse? {path source : String} {t : SourceTree} (h : parse? path source = .ok t) :
    (∃ blocks, bodies? (String.ofList (dropMark source.toList)) = .ok blocks ∧
      t = lowered (Layout.ofSource source) path source blocks) ∧
    (∃ front back, countedText source.toList = front ++ back ∧
      fileTokens? (dropMark source.toList) = tokens? (Place.origin.advance front) back) ∧
    ∀ front back, countedText source.toList = front ++ back →
      ((Layout.ofSource source).byte (Place.origin.advance front) + byteSize back =
          byteSize source.toList ↔
        countedText source.toList = dropMark source.toList ∨ '\n' ∈ front) :=
  ⟨exists_lowered_of_parse? h, fileTokens?_eq source.toList, fun _ _ hsplit =>
    Layout.byte_ofSource_iff hsplit⟩

/-- A function with one call in one line, behind two byte-order marks. -/
def marked : String :=
  "\ufeff\ufefffn f() \x7b a() \x7d"

/-- The call in `marked` begins five bytes before the end, but its place is taken to another byte:
the parser has left out the second mark, and nothing is behind a line feed. -/
theorem places_of_parse?_marked :
    ∃ t, parse? "f.rs" marked = .ok t ∧
      (Layout.ofSource marked).byte (Place.origin.advance "fn f() \x7b ".toList) +
        byteSize "a() \x7d".toList ≠ byteSize marked.toList := by
  have haccepted : (parse? "f.rs" marked).toOption.isSome := by decide +kernel
  cases hparse : parse? "f.rs" marked with
  | error e =>
    rw [hparse] at haccepted
    cases haccepted
  | ok t =>
    obtain ⟨_, _, hplaces⟩ := places_of_parse? hparse
    refine ⟨t, rfl, fun hbyte => ?_⟩
    have hwhy := (hplaces "fn f() \x7b ".toList "a() \x7d".toList (by decide)).mp hbyte
    revert hwhy
    decide

/-- Coverage in which no position of the first line ran. -/
def firstLineSkipped : MergedCoverage :=
  .ofProfiles [.ofBlocks .set [⟨"f.rs", ⟨⟨1, 1⟩, ⟨1, 200⟩⟩, 1, 0⟩]]

/-- What is left of `marked` when the bytes from 14 to 17 are cut out. -/
def markedRemains : String :=
  "\ufeff\ufefffn f() \x7b) \x7d"

/-- The call in `marked` takes the bytes from 15 to 18. Pruning cuts out those from 14 to 17, a
blank and `a(`. What it leaves has no tree, and the verifying printer refuses it. -/
theorem render?_marked :
    ∃ t pruned stats, parse? "f.rs" marked = .ok t ∧
      prune? firstLineSkipped 256 t = .ok (pruned, stats) ∧
      pruned.holes = [⟨14, 17⟩] ∧ pruned.splice? = .ok markedRemains ∧
      (parse? "f.rs" markedRemains).toOption.isNone ∧
      ∃ place, pruned.render? true =
        .error (.render "f.rs" ("pruned output does not parse: " ++ syntaxFault place)) := by
  have hrun : ((parse? "f.rs" marked).toOption.bind fun t =>
      (prune? firstLineSkipped 256 t).toOption.map fun r => (r.1.path, r.1.source, r.1.holes)) =
        some ("f.rs", marked, [⟨14, 17⟩]) := by decide +kernel
  cases hparse : parse? "f.rs" marked with
  | error e =>
    rw [hparse] at hrun
    exact absurd hrun (by simp [Except.toOption])
  | ok t =>
    cases hprune : prune? firstLineSkipped 256 t with
    | error e =>
      rw [hparse] at hrun
      simp [Except.toOption, hprune] at hrun
    | ok done =>
      obtain ⟨pruned, stats⟩ := done
      rw [hparse] at hrun
      simp only [Except.toOption, Option.bind_some, hprune, Option.map_some, Option.some.injEq,
        Prod.mk.injEq] at hrun
      obtain ⟨hpath, hsource, hholes⟩ := hrun
      have hsplice : pruned.splice? = .ok markedRemains := by
        rw [splice?_eq (by rw [hholes, hsource]; decide +kernel), hholes, hsource]
        decide +kernel
      refine ⟨t, pruned, stats, rfl, hprune, hholes, hsplice, by decide +kernel, ?_⟩
      have hrefused : (bodies? markedRemains).toOption.isNone := by decide +kernel
      cases hbodies : bodies? markedRemains with
      | ok blocks =>
        rw [hbodies] at hrefused
        exact absurd hrefused (by simp [Except.toOption])
      | error place =>
        refine ⟨place, ?_⟩
        have hcut : pruned.isPristine = false := by rw [isPristine, hholes]; rfl
        rw [render?, hsplice]
        simp only [hcut, Bool.not_false, Bool.and_self, if_true, hbodies, hpath]

end SourceTree

end CoverageReplay
