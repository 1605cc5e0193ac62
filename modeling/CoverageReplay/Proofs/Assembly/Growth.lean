import CoverageReplay.Proofs.Assembly.Snapshots
import CoverageReplay.Proofs.Coverage.Blocks
import CoverageReplay.Proofs.Pruning.Growth
import CoverageReplay.Proofs.Splicing.Places

/-!
# Snapshots grow

`growing_coverage_keeps` says that more coverage keeps more: of a tree, what pruning keeps is kept
where fewer positions are dead, and along a replay whose tests report the same positions, each
snapshot has all code that the one before it has.

A position is dead for some tests if they report it and none of them ran it. With the tests that
follow it can only come alive, as long as these report no positions that nobody reported before.
-/

namespace CoverageReplay

/-! ## Dead positions -/

/-- Whether a profile reports a position of a file. -/
def Profile.Reports (p : Profile) (path : String) (q : Position) : Prop :=
  ∃ b ∈ p.blocks, b.file = path ∧ b.range.contains q

/-- Whether profiles report the same positions of the same files. -/
def ReportSame (profiles : List Profile) : Prop :=
  ∀ p ∈ profiles, ∀ p' ∈ profiles, ∀ path q, p.Reports path q → p'.Reports path q

theorem ReportSame.subset {some all : List Profile} (h : ReportSame all) (sub : some ⊆ all) :
    ReportSame some :=
  fun p hp p' hp' => h p (sub hp) p' (sub hp')

/-- What is dead for more profiles that report the same positions is dead for some of them. -/
theorem MergedCoverage.isDead_of_subset {some all : List Profile} (sub : some ⊆ all)
    (nonempty : some ≠ []) (same : ReportSame all) {path : String} {q : Position}
    (h : (ofProfiles all).isDead path q) : (ofProfiles some).isDead path q := by
  rw [(tracks_ofProfiles all).isDead_iff] at h
  rw [(tracks_ofProfiles some).isDead_iff]
  obtain ⟨⟨b, hb, hfile, hrange⟩, hidle⟩ := h
  constructor
  · -- Any profile of `some` reports the position, because one of `all` does.
    obtain ⟨p, hp⟩ := List.exists_mem_of_ne_nil some nonempty
    obtain ⟨p', hp', hb⟩ := List.mem_flatMap.mp hb
    obtain ⟨c, hc, hreports⟩ := same p' hp' p (sub hp) path q ⟨b, hb, hfile, hrange⟩
    exact ⟨c, List.mem_flatMap.mpr ⟨p, hp, hc⟩, hreports⟩
  · intro c hc
    obtain ⟨p, hp, hc⟩ := List.mem_flatMap.mp hc
    exact hidle c (List.mem_flatMap.mpr ⟨p, sub hp, hc⟩)

/-- Coverage by more profiles grows, if they report the same ranges. -/
theorem MergedCoverage.grows_of_subset {some all : List Profile} (sub : some ⊆ all) {path : String}
    (same : ((ofProfiles all).file? path).map FileCoverage.instrumented =
      ((ofProfiles some).file? path).map FileCoverage.instrumented) :
    SourceTree.Grows path (ofProfiles some) (ofProfiles all) := by
  refine ⟨same, fun file file' hfile hfile' q hq => ?_⟩
  have hcovered := (tracks_ofProfiles some).covered_iff path q
  have hcovered' := (tracks_ofProfiles all).covered_iff path q
  rw [hfile, Option.getD_some] at hcovered
  rw [hfile', Option.getD_some] at hcovered'
  obtain ⟨b, hb, hruns⟩ := hcovered.mp hq
  obtain ⟨p, hp, hb⟩ := List.mem_flatMap.mp hb
  exact hcovered'.mpr ⟨b, List.mem_flatMap.mpr ⟨p, sub hp, hb⟩, hruns⟩

/-! ## Sources -/

/-- Whether files are texts: the parser makes a fresh tree of the text that is read, and a tree is
rendered by splicing. -/
structure SourceSet.OfTexts (s : SourceSet) : Prop where
  parse : ∀ path t, s.parse path = .ok t →
    t.isFresh ∧ t.holes = [] ∧ s.read path = .ok t.source.toUTF8
  render : ∀ t bytes, s.render t = .ok bytes → ∃ text, t.splice? = .ok text ∧ bytes = text.toUTF8

/-- A tree that has just been parsed has no holes, and its source is the text. -/
theorem holes_of_parse? {path source : String} {t : SourceTree}
    (h : SourceTree.parse? path source = .ok t) : t.holes = [] ∧ t.source = source := by
  obtain ⟨blocks, _, rfl⟩ := SourceTree.exists_lowered_of_parse? h
  exact ⟨rfl, rfl⟩

/-- What is rendered is the spliced text. -/
theorem splice?_of_renderBytes {verify : Bool} {t : SourceTree} {bytes : ByteArray}
    (h : renderBytes verify t = .ok bytes) :
    ∃ text, t.splice? = .ok text ∧ bytes = text.toUTF8 := by
  unfold renderBytes SourceTree.render? at h
  cases hsplice : t.splice? with
  | error e =>
    rw [hsplice] at h
    cases h
  | ok text =>
    rw [hsplice] at h
    refine ⟨text, rfl, ?_⟩
    dsimp only at h
    split at h
    next =>
      split at h
      next =>
        injection h with h
        exact h.symm
      next => cases h
    next =>
      injection h with h
      exact h.symm

/-- Files in memory are texts. -/
theorem memorySources_ofTexts (files : SortedMap String String) (verify : Bool) :
    (memorySources files verify).OfTexts where
  parse := by
    intro path t h
    unfold memorySources at h ⊢
    dsimp only at h ⊢
    split at h
    next text htext =>
      obtain ⟨hholes, hsource⟩ := holes_of_parse? h
      rw [hsource]
      exact ⟨SourceTree.isFresh_of_parse? h, hholes, rfl⟩
    next => cases h
  render := fun _ _ h => splice?_of_renderBytes h

/-- Bytes that are read as a text are the bytes of that text. -/
theorem toUTF8_of_fromUTF8? {bytes : ByteArray} {text : String}
    (h : String.fromUTF8? bytes = some text) : text.toUTF8 = bytes := by
  unfold String.fromUTF8? at h
  split at h
  next =>
    injection h with h
    rw [← h]
    rfl
  next => cases h

/-- Files in a directory are texts, as far as they have trees. -/
theorem directorySources_ofTexts (files : FileTree) (root : String) (verify : Bool) :
    (directorySources files root verify).OfTexts where
  parse := by
    intro path t h
    unfold directorySources at h ⊢
    dsimp only at h ⊢
    split at h
    next bytes hbytes =>
      unfold parseBytes at h
      split at h
      next text htext =>
        obtain ⟨hholes, hsource⟩ := holes_of_parse? h
        rw [hsource, toUTF8_of_fromUTF8? htext, hbytes]
        exact ⟨SourceTree.isFresh_of_parse? h, hholes, rfl⟩
      next => cases h
    next => cases h
  render := fun _ _ h => splice?_of_renderBytes h

/-! ## The snapshots of a replay -/

namespace Assembler

variable {a : Assembler} {order : List String} {profiles : TestProfiles} {oracle : CoverageOracle}
  {r : JobResult} {i : Nat} {s : Snapshot} {path : String} {bytes : ByteArray}

/-- The coverage that the files of a snapshot are pruned by. Nothing is pruned for the baseline,
which comes after those of the tests. -/
def coverageAt (profiles : TestProfiles) (order : List String) (i : Nat) : MergedCoverage :=
  if i < order.length then .ofProfiles (profilesOf profiles (order.take (i + 1))) else .empty

/-- A rendered file is that which one pass leaves of the tree. -/
theorem render_of_rendered {upTo : List Profile}
    (h : a.rendered upTo path = .ok bytes) :
    ∃ t, a.sources.parse path = .ok t ∧
      a.sources.render (t.pass (.ofProfiles upTo)).1 = .ok bytes := by
  unfold rendered at h
  cases hparse : a.sources.parse path with
  | error e =>
    rw [pruned, hparse] at h
    cases h
  | ok t =>
    rw [pruned_of_parse upTo hparse] at h
    cases hprune : t.prune? (.ofProfiles upTo) a.maxPasses with
    | error e =>
      rw [hprune] at h
      cases h
    | ok result =>
      rw [hprune] at h
      exact ⟨t, rfl, (SourceTree.pass_of_prune? hprune).1 ▸ h⟩

/-- Each snapshot has the files touched so far. -/
theorem keys_of_assemble (h : ((a.assemble order profiles).run oracle).2 = .ok r)
    (hs : r.snapshots[i]? = some s) :
    s.keys = touched (profilesOf profiles (order.take (i + 1))) := by
  rcases snapshot_cases h hs with ⟨_, hkeys, _⟩ | ⟨hi, hkeys, _⟩
  · exact hkeys
  · rw [List.take_of_length_le (by omega)]
    exact hkeys

/-- A file of the snapshot for a test has been parsed. -/
theorem exists_parse (h : ((a.assemble order profiles).run oracle).2 = .ok r)
    (hs : r.snapshots[i]? = some s) (hi : i < order.length) (hpath : path ∈ s.keys) :
    ∃ t, a.sources.parse path = .ok t := by
  rcases snapshot_cases h hs with ⟨_, hkeys, hcontents⟩ | ⟨heq, _⟩
  · rw [hkeys] at hpath
    obtain ⟨bytes, hrendered, _⟩ := hcontents path hpath
    obtain ⟨t, ht, _⟩ := render_of_rendered hrendered
    exact ⟨t, ht⟩
  · omega

/-- A file of a snapshot is the text that is left of its tree. -/
theorem splice?_of_assemble (texts : a.sources.OfTexts)
    (h : ((a.assemble order profiles).run oracle).2 = .ok r) (hs : r.snapshots[i]? = some s)
    {t : SourceTree} (ht : a.sources.parse path = .ok t) (hpath : s.get? path = some bytes) :
    ∃ text, (t.pass (coverageAt profiles order i)).1.splice? = .ok text ∧ bytes = text.toUTF8 := by
  have hmem : path ∈ s.keys := SortedMap.mem_keys_of_get? hpath
  unfold coverageAt
  rcases snapshot_cases h hs with ⟨hi, hkeys, hcontents⟩ | ⟨hi, hkeys, hcontents⟩
  · rw [hkeys] at hmem
    obtain ⟨bytes', hrendered, hget⟩ := hcontents path hmem
    rw [hpath] at hget
    injection hget with hget
    obtain ⟨t', ht', hrender⟩ := render_of_rendered hrendered
    rw [ht] at ht'
    injection ht' with ht'
    rw [if_pos hi, hget, ht']
    exact texts.render _ _ hrender
  · -- The baseline has the text that was read, of which pruning by no coverage leaves everything.
    rw [hkeys] at hmem
    obtain ⟨bytes', hread, hget⟩ := hcontents path hmem
    rw [hpath] at hget
    injection hget with hget
    obtain ⟨_, hholes, hsource⟩ := texts.parse path t ht
    rw [hsource] at hread
    injection hread with hread
    rw [if_neg (by omega)]
    exact ⟨t.source, SourceTree.splice?_of_pristine hholes, hget.trans hread.symm⟩

/-- From one snapshot to the next, no position of a replay dies, as long as all tests report the
same positions. -/
theorem isDead_coverageAt (same : ReportSame (profilesOf profiles order))
    (hi : i < order.length) (nonempty : profilesOf profiles (order.take (i + 1)) ≠ [])
    {q : Position} (h : (coverageAt profiles order (i + 1)).isDead path q) :
    (coverageAt profiles order i).isDead path q := by
  unfold coverageAt at h ⊢
  rw [if_pos hi]
  split at h
  next hnext =>
    -- The tests so far are some of those up to the next snapshot.
    have hsub : profilesOf profiles (order.take (i + 1)) ⊆
        profilesOf profiles (order.take (i + 2)) :=
      ((List.take_prefix_take_left (by omega)).sublist.filterMap _).subset
    have hall : profilesOf profiles (order.take (i + 2)) ⊆ profilesOf profiles order :=
      ((List.take_sublist _ _).filterMap _).subset
    exact MergedCoverage.isDead_of_subset hsub nonempty (same.subset hall) h
  next =>
    rw [SourceTree.isDead_of_no_file rfl] at h
    cases h

/-- **More coverage keeps more.** If pruning a fresh tree by some coverage succeeds, it succeeds by
coverage that finds no more positions dead, and what is kept of the tree then is kept still. That is
so if the same regions are reported and more of them have run. So if all tests of a replay report
the same positions, a snapshot has the files of the one before it, and of each file it has the
pieces that this one has, and, if the spans of the file are well nested, the characters. -/
theorem growing_coverage_keeps :
    (∀ (t : SourceTree) (m m' : MergedCoverage) (maxPasses : Nat) (next : SourceTree)
        (stats : PruneStats), t.isFresh → (∀ p, m'.isDead t.path p → m.isDead t.path p) →
      t.prune? m maxPasses = .ok (next, stats) →
        ∃ next' stats', t.prune? m' maxPasses = .ok (next', stats') ∧ t.KeepsMore m m' next next') ∧
    (∀ path m m', SourceTree.Grows path m m' → ∀ p, m'.isDead path p → m.isDead path p) ∧
    ∀ (a : Assembler) (order : List String) (profiles : TestProfiles) (oracle : CoverageOracle)
        (r : JobResult), a.sources.OfTexts → ReportSame (profilesOf profiles order) →
      ((a.assemble order profiles).run oracle).2 = .ok r →
      ∀ i s s', r.snapshots[i]? = some s → r.snapshots[i + 1]? = some s' →
        ∀ path bytes, s.get? path = some bytes →
          ∃ bytes' t text text', s'.get? path = some bytes' ∧ a.sources.parse path = .ok t ∧
            let next := (t.pass (coverageAt profiles order i)).1
            let next' := (t.pass (coverageAt profiles order (i + 1))).1
            t.KeepsMore (coverageAt profiles order i) (coverageAt profiles order (i + 1))
              next next' ∧
            next.splice? = .ok text ∧ bytes = text.toUTF8 ∧
            next'.splice? = .ok text' ∧ bytes' = text'.toUTF8 ∧
            (t.Nests → ShowsMore t.source text text') := by
  refine ⟨?_, fun path m m' grows => grows.fewer, ?_⟩
  · intro t m m' maxPasses next stats fresh fewer h
    obtain ⟨stats', h'⟩ := SourceTree.prune?_of_fewer fresh fewer h
    rw [(SourceTree.pass_of_prune? h).1]
    exact ⟨_, stats', h', SourceTree.keepsMore_of_fewer fresh fewer⟩
  · intro a order profiles oracle r texts same h i s s' hs hs' path bytes hpath
    have hkeys := keys_of_assemble h hs
    have hkeys' := keys_of_assemble h hs'
    have hmem : path ∈ s.keys := SortedMap.mem_keys_of_get? hpath
    have hmem' : path ∈ s'.keys := by
      rw [hkeys] at hmem
      rw [hkeys']
      exact touched_mono ((List.take_prefix_take_left (by omega)).sublist.filterMap _).subset hmem
    -- A snapshot that another one follows is that of a test, so the file has been parsed for it.
    have hi : i < order.length := by
      rcases snapshot_cases h hs' with ⟨hi, _⟩ | ⟨hi, _⟩
      · omega
      · omega
    obtain ⟨t, ht⟩ := exists_parse h hs hi hmem
    obtain ⟨bytes', hpath'⟩ :=
      Option.isSome_iff_exists.mp (SortedMap.contains_iff_mem_keys.mpr hmem')
    obtain ⟨text, htext, hbytes⟩ := splice?_of_assemble texts h hs ht hpath
    obtain ⟨text', htext', hbytes'⟩ := splice?_of_assemble texts h hs' ht hpath'
    have nonempty : profilesOf profiles (order.take (i + 1)) ≠ [] := by
      intro hnil
      rw [hkeys, hnil, touched_nil] at hmem
      cases hmem
    have hkeeps := SourceTree.keepsMore_of_fewer (texts.parse path t ht).1
      fun q hq => isDead_coverageAt same hi nonempty hq
    exact ⟨bytes', t, text, text', hpath', ht, hkeeps, htext, hbytes, htext', hbytes',
      fun nests => hkeeps.showsMore nests htext htext'⟩

/-- How lowering looks at `cascade`. -/
def cascadeLayout : Layout :=
  ⟨SourceTree.cascade.source.toUTF8.data, 0, .ofText SourceTree.cascade.source.toList⟩

/-- The outline of the `if` of `cascade`. -/
def cascadeBranch : Rust.Statement :=
  .expression
    [.ident "if" ⟨⟨3, 4⟩, ⟨3, 6⟩⟩, .ident "c" ⟨⟨3, 7⟩, ⟨3, 8⟩⟩,
      .group .brace ⟨⟨3, 9⟩, ⟨3, 10⟩⟩ [] ⟨⟨5, 4⟩, ⟨5, 5⟩⟩]
    (.ifThen [.ident "c" ⟨⟨3, 7⟩, ⟨3, 8⟩⟩]
      (.mk ⟨⟨3, 9⟩, ⟨3, 10⟩⟩ ⟨⟨5, 4⟩, ⟨5, 5⟩⟩
        [.expression
          [.ident "g" ⟨⟨4, 8⟩, ⟨4, 9⟩⟩,
            .group .paren ⟨⟨4, 9⟩, ⟨4, 10⟩⟩ [.ident "a" ⟨⟨4, 10⟩, ⟨4, 11⟩⟩] ⟨⟨4, 11⟩, ⟨4, 12⟩⟩,
            .punct ';' false ⟨⟨4, 12⟩, ⟨4, 13⟩⟩]
          (.flat .plain)])
      none)

/-- The outline of `cascade`, without the tokens that blocks hold. -/
def cascadeBlock : Rust.CodeBlock :=
  .mk ⟨⟨1, 14⟩, ⟨1, 15⟩⟩ ⟨⟨6, 0⟩, ⟨6, 1⟩⟩
    [.binding
      [.ident "let" ⟨⟨2, 4⟩, ⟨2, 7⟩⟩, .ident "a" ⟨⟨2, 8⟩, ⟨2, 9⟩⟩,
        .punct '=' false ⟨⟨2, 10⟩, ⟨2, 11⟩⟩,
        .literal "1" ⟨⟨2, 12⟩, ⟨2, 13⟩⟩, .punct ';' false ⟨⟨2, 13⟩, ⟨2, 14⟩⟩]
      ⟨2, 4⟩ (some "a") [.literal "1" ⟨⟨2, 12⟩, ⟨2, 13⟩⟩],
      cascadeBranch]

theorem cascade_nests : SourceTree.cascade.Nests := by
  refine ⟨cascadeLayout, [cascadeBlock], rfl, rfl, ?_, trivial⟩
  refine ⟨by decide, by decide, by decide, ⟨by decide, by decide, trivial, ?_⟩, by decide⟩
  refine ⟨by decide, by decide, ?_, ?_⟩
  · refine ⟨by decide, by decide, by decide, ⟨by decide, by decide, trivial, ?_⟩, by decide⟩
    show (55 : Nat) ≤ 60
    decide
  · show (61 : Nat) ≤ 62
    decide

/-- The one file of `cascade`. -/
def cascadeSources : SourceSet where
  parse path :=
    if path = "f.rs" then .ok SourceTree.cascade else .error (.parse path "no such file")
  render := renderBytes false
  read path :=
    if path = "f.rs" then .ok SourceTree.cascade.source.toUTF8 else .error
      (.read path "no such file")

theorem cascadeSources_ofTexts : cascadeSources.OfTexts where
  parse := by
    intro path t h
    simp only [cascadeSources] at h ⊢
    split at h
    next hpath =>
      injection h with h
      subst h
      rw [if_pos hpath]
      exact ⟨by decide, rfl, rfl⟩
    next => cases h
  render := fun _ _ h => splice?_of_renderBytes h

theorem cascadeSources_renders (m : MergedCoverage) :
    ∃ bytes, cascadeSources.render (SourceTree.cascade.pass m).1 = .ok bytes := by
  obtain ⟨text, htext⟩ := SourceTree.exists_splice?_pass (t := SourceTree.cascade) rfl (by decide) m
  refine ⟨text.toUTF8, ?_⟩
  simp [cascadeSources, renderBytes, SourceTree.render?, htext, Except.map]

/-- A first test that does not run the call of `cascade`, and one that does. -/
def cascadeTests : TestProfiles :=
  ⟨[("idle", SourceTree.cascadeRun 0), ("busy", SourceTree.cascadeRun 1)]⟩

/-- How `cascade` is replayed. -/
def cascadeAssembler (strategy : SortStrategy) : Assembler :=
  ⟨cascadeSources, ⟨strategy, .standard⟩, 2⟩

theorem cascadeTests_reportSame : ReportSame (profilesOf cascadeTests ["idle", "busy"]) := by
  have hregions : ∀ p ∈ profilesOf cascadeTests ["idle", "busy"],
      p.blocks.map Block.region =
        [⟨"f.rs", ⟨1, 1⟩, ⟨4, 1⟩⟩, ⟨"f.rs", ⟨4, 1⟩, ⟨5, 1⟩⟩] := by decide
  intro p hp p' hp' path q h
  obtain ⟨b, hb, hreports⟩ := h
  have hmem : b.region ∈ p'.blocks.map Block.region := by
    rw [hregions p' hp', ← hregions p hp]
    exact List.mem_map_of_mem hb
  obtain ⟨b', hb', hregion⟩ := List.mem_map.mp hmem
  injection hregion with hfile hrange
  exact ⟨b', hb', hfile ▸ hrange ▸ hreports⟩

/-- In whatever order, the tests of `cascade` can be replayed. -/
theorem cascade_succeeds (strategy : SortStrategy) (tests : List String) (oracle : CoverageOracle)
    (known : ∀ test ∈ tests, (cascadeTests.get? test).isSome) :
    ∃ r, (((cascadeAssembler strategy).assemble tests cascadeTests).run oracle).2 = .ok r := by
  refine exists_result oracle (Nat.le_refl 2) known fun path hpath => ?_
  obtain ⟨p, hp, b, hb, rfl⟩ := mem_touched.mp hpath
  obtain ⟨test, _, hget⟩ := List.mem_filterMap.mp hp
  have hfile : b.file = "f.rs" := by
    obtain ⟨e, hfind, rfl⟩ := Option.map_eq_some_iff.mp hget
    have hall : ∀ e ∈ cascadeTests.entries, ∀ b ∈ e.2.blocks, b.file = "f.rs" := by decide
    exact hall e (List.mem_of_find?_eq_some hfind) b hb
  rw [hfile]
  exact ⟨SourceTree.cascade, _, rfl, rfl, cascadeSources_renders⟩

/-- What the idle test alone leaves of `cascade` is left with both tests, and there is a snapshot
for each of them that has the file, the second one with all that shows of it in the first one. -/
theorem growing_coverage_keeps_cascade :
    let idle := MergedCoverage.ofProfiles [SourceTree.cascadeRun 0]
    let both := MergedCoverage.ofProfiles [SourceTree.cascadeRun 0, SourceTree.cascadeRun 1]
    (∀ p, both.isDead "f.rs" p → idle.isDead "f.rs" p) ∧
    (∃ next stats next' stats', SourceTree.cascade.prune? idle 2 = .ok (next, stats) ∧
      SourceTree.cascade.prune? both 2 = .ok (next', stats') ∧
      SourceTree.cascade.KeepsMore idle both next next') ∧
    ∃ r s s' text text',
      (((cascadeAssembler .hardcoded).assemble ["idle", "busy"] cascadeTests).run
        fun _ _ => .panic "").2 = .ok r ∧
      r.snapshots[0]? = some s ∧ r.snapshots[1]? = some s' ∧
      s.get? "f.rs" = some text.toUTF8 ∧ s'.get? "f.rs" = some text'.toUTF8 ∧
      ShowsMore SourceTree.cascade.source text text' := by
  intro idle both
  have hsub : [SourceTree.cascadeRun 0] ⊆ [SourceTree.cascadeRun 0, SourceTree.cascadeRun 1] :=
    List.cons_subset_cons _ (List.nil_subset _)
  have hfewer : ∀ p, both.isDead "f.rs" p → idle.isDead "f.rs" p :=
    growing_coverage_keeps.2.1 "f.rs" idle both (MergedCoverage.grows_of_subset hsub (by decide))
  refine ⟨hfewer, ?_, ?_⟩
  · have hprune := SourceTree.prune?_eq SourceTree.cascade idle (Nat.le_refl 2)
    obtain ⟨next', stats', hprune', hkeeps⟩ :=
      growing_coverage_keeps.1 SourceTree.cascade idle both 2 _ _ (by decide) hfewer hprune
    exact ⟨_, _, next', stats', hprune, hprune', hkeeps⟩
  · obtain ⟨r, hr⟩ :=
      cascade_succeeds .hardcoded ["idle", "busy"] (fun _ _ => .panic "") (by decide)
    obtain ⟨s, hs⟩ := exists_snapshot hr (Nat.zero_le 2)
    obtain ⟨s', hs'⟩ := exists_snapshot hr (Nat.le_succ 1)
    have hmem : "f.rs" ∈ s.keys := by
      rw [keys_of_assemble hr hs, mem_touched]
      decide
    obtain ⟨bytes, hbytes⟩ := Option.isSome_iff_exists.mp (SortedMap.contains_iff_mem_keys.mpr hmem)
    obtain ⟨bytes', t, text, text', hbytes', hparse, _, _, htext, _, htext', hshows⟩ :=
      growing_coverage_keeps.2.2 (cascadeAssembler .hardcoded) _ cascadeTests _ r
        cascadeSources_ofTexts cascadeTests_reportSame hr 0 _ _ hs hs' "f.rs" bytes hbytes
    have ht : SourceTree.cascade = t := by
      injection hparse
    subst ht htext htext'
    exact ⟨r, s, s', text, text', hr, hs, hs', hbytes, hbytes', hshows cascade_nests⟩

end Assembler

end CoverageReplay
