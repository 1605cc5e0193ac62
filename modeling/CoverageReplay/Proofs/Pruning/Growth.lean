import CoverageReplay.Proofs.Pruning.Removal
import CoverageReplay.Proofs.Splicing.Agreement

/-!
# More coverage keeps more

Where fewer positions are dead, pruning removes fewer pieces of a tree: what the rules of removing
ask for then, they ask for with more dead positions too, so the least closed set can only shrink
(`LeastRemoval.of_fewer`). Of the source text, fewer characters are left out
(`KeepsMore.showsMore`).

Pruning also succeeds if it did with more dead positions, whatever the ceiling (`prune?_of_fewer`).
-/

namespace CoverageReplay

/-! ## The least set shrinks -/

section Fewer

variable {dead dead' : Position → Bool} {look : Address → Option Piece} {R : Set Address}
  {gone gone' : Address → Bool}

/-- What the rules ask for when more is dead is enough when less is. -/
theorem Closed.of_fewer (fewer : ∀ p, dead' p → dead p) (h : Closed dead look R) :
    Closed dead' look R where
  nested := h.nested
  demanded := fun a ha => h.demanded a (ha.mono fewer (Set.Subset.refl R))

theorem LeastRemoval.of_fewer (fewer : ∀ p, dead' p → dead p) (h : LeastRemoval dead look gone)
    (h' : LeastRemoval dead' look gone') {a : Address} (ha : gone' a) : gone a :=
  h'.2 (h.1.of_fewer fewer) ha

end Fewer

/-! ## A sweep that cuts nothing changes nothing -/

section Uncut

variable {dead : Position → Bool}

/-- If dropping unused bindings makes no holes, it drops nothing. -/
theorem eq_of_dropUnused {nodes : List Node} (h : (dropUnused nodes).2.2 = []) :
    (dropUnused nodes).1 = nodes := by
  induction nodes with
  | nil => rfl
  | cons n rest ih =>
    simp only [dropUnused] at h ⊢
    split at h
    next => simp at h
    next hkept =>
      rw [if_neg hkept]
      exact congrArg (n :: ·) (ih h)

mutual

/-- If a sweep cuts nothing out of a body, it leaves the body as it is. -/
theorem Body.eq_of_sweep : ∀ b : Body, (b.sweep dead).2 = [] → (b.sweep dead).1 = b
  | .mk opening closeEnd nodes pruned, h => by
    simp only [Body.sweep, List.append_eq_nil_iff] at h ⊢
    -- No `let` is dropped from what the sweep leaves, which is what there was.
    have hnodes := Body.eq_of_sweepNodes nodes h.1
    rw [hnodes] at h ⊢
    rw [eq_of_dropUnused h.2]
    simp

/-- If no statement is cut, and nothing in one, the statements stay as they are. -/
theorem Body.eq_of_sweepNodes :
    ∀ nodes : List Node, (Body.sweepNodes dead nodes).2 = [] →
      (Body.sweepNodes dead nodes).1 = nodes
  | [], _ => rfl
  | n :: rest, h => by
    simp only [Body.sweepNodes] at h ⊢
    split at h
    next => cases h
    next halive =>
      rw [if_neg halive]
      split at h
      next => simp at h
      next hfilled =>
        rw [List.append_eq_nil_iff] at h
        rw [if_neg hfilled, Node.eq_of_sweep n h.1, Body.eq_of_sweepNodes rest h.2]

/-- If a sweep cuts nothing out of a statement, it leaves the statement as it is. -/
theorem Node.eq_of_sweep : ∀ n : Node, (n.sweep dead).2 = [] → (n.sweep dead).1 = n
  | .mk start hole idents kind, h => by
    simp only [Node.sweep] at h ⊢
    rw [NodeKind.eq_of_sweep kind h]

/-- If a sweep cuts nothing out of what a statement is made of, it leaves that as it is. -/
theorem NodeKind.eq_of_sweep : ∀ k : NodeKind, (k.sweep dead).2 = [] → (k.sweep dead).1 = k
  | .leaf, _ => rfl
  | .binding _ _, _ => rfl
  | .block body removable, h => by
    simp only [NodeKind.sweep] at h ⊢
    rw [Body.eq_of_sweep body h]
  | .loop body removable, h => by
    simp only [NodeKind.sweep] at h ⊢
    rw [Body.eq_of_sweep body h]
  | .branch yes no lostElse, h => by
    simp only [NodeKind.sweep, List.append_eq_nil_iff] at h ⊢
    obtain ⟨hno, hlost⟩ := Otherwise.eq_of_sweep no h.2
    rw [Body.eq_of_sweep yes h.1, hno, hlost, Bool.or_false]
  | .select arms pruned, h => by
    simp only [NodeKind.sweep] at h ⊢
    rw [NodeKind.eq_of_sweepArms arms h]
    simp

/-- If a sweep cuts nothing out of an `else` branch, the branch stays, and stays as it is. -/
theorem Otherwise.eq_of_sweep :
    ∀ o : Otherwise, (o.sweep dead).2.2 = [] → (o.sweep dead).1 = o ∧ (o.sweep dead).2.1 = false
  | .absent, _ => ⟨rfl, rfl⟩
  | .block hole body, h => by
    simp only [Otherwise.sweep] at h ⊢
    split at h
    next => simp at h
    next hfilled =>
      rw [if_neg hfilled, Body.eq_of_sweep body h]
      exact ⟨rfl, rfl⟩
  | .chain hole n, h => by
    simp only [Otherwise.sweep] at h ⊢
    split at h
    next => cases h
    next halive =>
      rw [if_neg halive]
      split at h
      next => simp at h
      next hfilled =>
        rw [if_neg hfilled, Node.eq_of_sweep n h]
        exact ⟨rfl, rfl⟩

/-- If a sweep cuts nothing out of some arms, it leaves them as they are. -/
theorem NodeKind.eq_of_sweepArms :
    ∀ arms : List Arm, (NodeKind.sweepArms dead arms).2 = [] →
      (NodeKind.sweepArms dead arms).1 = arms
  | [], _ => rfl
  | m :: rest, h => by
    simp only [NodeKind.sweepArms] at h ⊢
    split at h
    next => cases h
    next halive =>
      rw [if_neg halive]
      split at h
      next => simp at h
      next hfilled =>
        rw [List.append_eq_nil_iff] at h
        rw [if_neg hfilled, Arm.eq_of_sweep m h.1, NodeKind.eq_of_sweepArms rest h.2]

/-- If a sweep cuts nothing out of an arm, it leaves the arm as it is. -/
theorem Arm.eq_of_sweep : ∀ m : Arm, (m.sweep dead).2.2 = [] → (m.sweep dead).1 = m
  | .flat _ _ _, _ => rfl
  | .block start hole idents body, h => by
    simp only [Arm.sweep] at h ⊢
    rw [Body.eq_of_sweep body h]

end

/-- If a sweep cuts nothing out of the bodies of a file, it leaves them as they are. -/
theorem SourceTree.eq_of_sweepBodies {bodies : List Body} (h : (sweepBodies dead bodies).2 = []) :
    (sweepBodies dead bodies).1 = bodies := by
  induction bodies with
  | nil => rfl
  | cons b rest ih =>
    simp only [sweepBodies, List.append_eq_nil_iff] at h ⊢
    rw [Body.eq_of_sweep b h.1, ih h.2]

end Uncut

/-! ## Pruning -/

namespace SourceTree

variable {t next : SourceTree} {m m' : MergedCoverage} {maxPasses : Nat} {stats : PruneStats}

/-- What pruning gives is what one pass gives. With a ceiling of one, this pass has removed
nothing. -/
theorem pass_of_prune? (h : t.prune? m maxPasses = .ok (next, stats)) :
    next = (t.pass m).1 ∧ (2 ≤ maxPasses ∨ maxPasses = 1 ∧ (t.pass m).2 = 0) := by
  by_cases two : 2 ≤ maxPasses
  · rw [prune?_eq t m two] at h
    injection h with h
    injection h with hnext _
    exact ⟨hnext.symm, Or.inl two⟩
  · obtain rfl | rfl : maxPasses = 0 ∨ maxPasses = 1 := by omega
    · cases h
    · by_cases hzero : (t.pass m).2 = 0
      · simp only [prune?, pruneFrom, hzero, if_true] at h
        injection h with h
        injection h with hnext _
        exact ⟨hnext.symm, Or.inr ⟨rfl, hzero⟩⟩
      · simp only [prune?, pruneFrom, if_neg hzero] at h
        cases h

/-- If a pass over a fresh tree removes nothing, one that finds fewer positions dead does not
either. -/
theorem pass_of_fewer (fresh : t.isFresh) (fewer : ∀ p, m'.isDead t.path p → m.isDead t.path p)
    (h : (t.pass m).2 = 0) : t.pass m' = (t, 0) := by
  rw [pass_of_fresh fresh] at h ⊢
  have hcuts : (sweepBodies (m.isDead t.path) t.bodies).2 = [] := List.length_eq_zero_iff.mp h
  refine swept_eq_self ?_
  -- The first sweep left the bodies as they were, so what is known of a second sweep holds of this
  -- one.
  have htwice := sweepBodies_sweepBodies fewer t.bodies
  rwa [eq_of_sweepBodies hcuts] at htwice

/-- Where pruning succeeds, it does so if fewer positions are dead. -/
theorem prune?_of_fewer (fresh : t.isFresh) (fewer : ∀ p, m'.isDead t.path p → m.isDead t.path p)
    (h : t.prune? m maxPasses = .ok (next, stats)) :
    ∃ stats', t.prune? m' maxPasses = .ok ((t.pass m').1, stats') := by
  obtain ⟨_, two | ⟨rfl, hzero⟩⟩ := pass_of_prune? h
  · exact ⟨_, prune?_eq t m' two⟩
  · have hpass := pass_of_fewer fresh fewer hzero
    exact ⟨⟨1, 0⟩, by simp [prune?, pruneFrom, hpass]⟩

/-- Whether a tree is what pruning by some coverage leaves of a tree, and the pieces at some
addresses are those that are gone. -/
structure PrunesTo (t : SourceTree) (m : MergedCoverage) (next : SourceTree)
    (gone : Address → Bool) :
    Prop where
  path : next.path = t.path
  source : next.source = t.source
  bodies : next.bodies = eraseBodies gone t.bodies
  least : LeastRemoval (m.isDead t.path) t.piece? gone

/-- A pass over a fresh tree prunes it. -/
theorem exists_prunesTo (fresh : t.isFresh) (m : MergedCoverage) :
    ∃ gone, t.PrunesTo m (t.pass m).1 gone := by
  obtain ⟨gone, hleast, hswept⟩ := sweepBodies_eq_erase (m.isDead t.path) fresh
  rw [pass_of_fresh fresh]
  exact ⟨gone, rfl, rfl, hswept, hleast⟩

/-- Whether a tree `next'` that pruning by coverage `m'` leaves has all pieces of a tree that
`next`, which coverage `m` leaves, has of it. -/
def KeepsMore (t : SourceTree) (m m' : MergedCoverage) (next next' : SourceTree) : Prop :=
  ∃ gone gone', t.PrunesTo m next gone ∧ t.PrunesTo m' next' gone' ∧ ∀ a, gone' a → gone a

/-- With fewer positions dead a pass over a fresh tree keeps at least as much. -/
theorem keepsMore_of_fewer (fresh : t.isFresh)
    (fewer : ∀ p, m'.isDead t.path p → m.isDead t.path p) :
    t.KeepsMore m m' (t.pass m).1 (t.pass m').1 := by
  obtain ⟨gone, h⟩ := exists_prunesTo fresh m
  obtain ⟨gone', h'⟩ := exists_prunesTo fresh m'
  exact ⟨gone, gone', h, h', fun a ha => h.least.of_fewer fewer h'.least ha⟩

end SourceTree

/-! ## What is left shows more -/

section Erase

theorem append_subset_append {front front' back back' : List Hole} (hfront : front ⊆ front')
    (hback : back ⊆ back') : front ++ back ⊆ front' ++ back' :=
  List.append_subset.mpr ⟨List.subset_append_of_subset_left _ hfront,
    List.subset_append_of_subset_right _ hback⟩

@[simp] theorem Node.hole_erase (gone : Address → Bool) (n : Node) :
    (n.erase gone).hole = n.hole := by
  cases n
  rfl

@[simp] theorem Arm.hole_erase (gone : Address → Bool) (m : Arm) :
    (m.erase gone).hole = m.hole := by
  cases m with
  | flat => rfl
  | block => rfl

mutual

/-- The less is erased of a body, the more places are left in it. -/
theorem Body.places_erase_subset :
    ∀ (b : Body) {gone gone' : Address → Bool}, (∀ a, gone' a → gone a) →
      (b.erase gone).forest.labels ⊆ (b.erase gone').forest.labels
  | .mk _ _ nodes _, _, _, less => Body.places_eraseNodes_subset nodes less

/-- Erasing fewer pieces leaves more. -/
theorem Body.places_eraseNodes_subset :
    ∀ (nodes : List Node) {gone gone' : Address → Bool}, (∀ a, gone' a → gone a) →
      (Body.nodesForest (Body.eraseNodes gone nodes)).labels ⊆
        (Body.nodesForest (Body.eraseNodes gone' nodes)).labels
  | [], _, _, _ => List.Subset.refl _
  | n :: rest, gone, gone', less => by
    have hrest := Body.places_eraseNodes_subset rest fun a => less (Address.next a)
    have hn := Node.places_erase_subset n fun a => less (.statement 0 :: a)
    rw [Body.eraseNodes, Body.eraseNodes]
    -- Either both lose the first statement, or only the left one may.
    by_cases hgone' : gone' [.statement 0]
    · rw [if_pos hgone', if_pos (less _ hgone')]
      exact hrest
    · rw [if_neg hgone']
      by_cases hgone : gone [.statement 0]
      · rw [if_pos hgone]
        exact fun h hh => List.mem_append_right _ (hrest hh)
      · rw [if_neg hgone, Body.nodesForest, Body.nodesForest, Node.hole_erase, Node.hole_erase]
        exact List.cons_subset_cons _ (append_subset_append hn hrest)

theorem Node.places_erase_subset :
    ∀ (n : Node) {gone gone' : Address → Bool}, (∀ a, gone' a → gone a) →
      (n.erase gone).inner.labels ⊆ (n.erase gone').inner.labels
  | .mk _ _ _ kind, _, _, less => NodeKind.places_erase_subset kind less

/-- The less is erased of what a statement is made of, the more places are left in it. -/
theorem NodeKind.places_erase_subset :
    ∀ (k : NodeKind) {gone gone' : Address → Bool}, (∀ a, gone' a → gone a) →
      (k.erase gone).forest.labels ⊆ (k.erase gone').forest.labels
  | .leaf, _, _, _ => List.Subset.refl _
  | .binding _ _, _, _, _ => List.Subset.refl _
  | .block body _, _, _, less => Body.places_erase_subset body less
  | .loop body _, _, _, less => Body.places_erase_subset body less
  | .branch yes no _, _, _, less => by
    rw [NodeKind.erase, NodeKind.erase, NodeKind.forest, NodeKind.forest, Forest.labels_append,
      Forest.labels_append]
    exact append_subset_append (Body.places_erase_subset yes fun a => less (.yes :: a))
      (Otherwise.places_erase_subset no fun a => less (.otherwise :: a))
  | .select arms _, _, _, less => NodeKind.places_eraseArms_subset arms less

/-- The less is erased of an `else` branch, the more places are left in it. -/
theorem Otherwise.places_erase_subset :
    ∀ (o : Otherwise) {gone gone' : Address → Bool}, (∀ a, gone' a → gone a) →
      (o.erase gone).forest.labels ⊆ (o.erase gone').forest.labels
  | .absent, _, _, _ => List.Subset.refl _
  | .block hole body, gone, gone', less => by
    rw [Otherwise.erase, Otherwise.erase]
    by_cases hgone : gone []
    · rw [if_pos hgone]
      exact List.nil_subset _
    · rw [if_neg hgone, if_neg fun hgone' => hgone (less _ hgone')]
      have hbody := Body.places_erase_subset body less
      exact List.cons_subset_cons _ (append_subset_append hbody (List.Subset.refl _))
  | .chain hole n, gone, gone', less => by
    rw [Otherwise.erase, Otherwise.erase]
    by_cases hgone : gone []
    · rw [if_pos hgone]
      exact List.nil_subset _
    · rw [if_neg hgone, if_neg fun hgone' => hgone (less _ hgone')]
      have hn := Node.places_erase_subset n less
      exact List.cons_subset_cons _ (append_subset_append hn (List.Subset.refl _))

/-- The less is erased of some arms, the more places are left in them. -/
theorem NodeKind.places_eraseArms_subset :
    ∀ (arms : List Arm) {gone gone' : Address → Bool}, (∀ a, gone' a → gone a) →
      (NodeKind.armsForest (NodeKind.eraseArms gone arms)).labels ⊆
        (NodeKind.armsForest (NodeKind.eraseArms gone' arms)).labels
  | [], _, _, _ => List.Subset.refl _
  | m :: rest, gone, gone', less => by
    have hrest := NodeKind.places_eraseArms_subset rest fun a => less (Address.next a)
    have hm := Arm.places_erase_subset m fun a => less (.arm 0 :: a)
    rw [NodeKind.eraseArms, NodeKind.eraseArms]
    by_cases hgone' : gone' [.arm 0]
    · rw [if_pos hgone', if_pos (less _ hgone')]
      exact hrest
    · rw [if_neg hgone']
      by_cases hgone : gone [.arm 0]
      · rw [if_pos hgone]
        exact fun h hh => List.mem_append_right _ (hrest hh)
      · rw [if_neg hgone, NodeKind.armsForest, NodeKind.armsForest, Arm.hole_erase, Arm.hole_erase]
        exact List.cons_subset_cons _ (append_subset_append hm hrest)

theorem Arm.places_erase_subset :
    ∀ (m : Arm) {gone gone' : Address → Bool}, (∀ a, gone' a → gone a) →
      (m.erase gone).inner.labels ⊆ (m.erase gone').inner.labels
  | .flat _ _ _, _, _, _ => List.Subset.refl _
  | .block _ _ _ body, _, _, less => Body.places_erase_subset body less

end

/-- The less is erased of the bodies of a file, the more places are left in them. -/
theorem SourceTree.places_eraseBodies_subset (bodies : List Body) {gone gone' : Address → Bool}
    (less : ∀ a, gone' a → gone a) :
    (bodiesForest (eraseBodies gone bodies)).labels ⊆
      (bodiesForest (eraseBodies gone' bodies)).labels := by
  induction bodies generalizing gone gone' with
  | nil => exact List.Subset.refl _
  | cons b rest ih =>
    rw [eraseBodies, eraseBodies, bodiesForest, bodiesForest, Forest.labels_append,
      Forest.labels_append]
    exact append_subset_append (Body.places_erase_subset b fun a => less (.body 0 :: a))
      (ih fun a => less (Address.next a))

end Erase

/-- Whether, of the characters of a source text that show, one text has all that another one has. -/
def ShowsMore (source text text' : String) : Prop :=
  ∃ keep keep', text = String.ofList (select keep 0 source.toList) ∧
    text' = String.ofList (select keep' 0 source.toList) ∧
    ∀ k, IsVisible source.toList k → keep k → keep' k

namespace SourceTree

variable {t : SourceTree} {m m' : MergedCoverage} {text text' : String}

/-- A spliced text consists of the characters outside all holes. -/
theorem eq_select_of_splice? (h : t.splice? = .ok text) :
    text = String.ofList (select (fun k => !t.holes.any (·.covers k)) 0 t.source.toList) := by
  have hfits : ∀ h ∈ t.holes, h.fits t.source.toList := by
    rw [splice?] at h
    split at h
    next => cases h
    next hfind =>
      intro x hx
      have hsorted := (List.mergeSort_perm t.holes Hole.before).mem_iff.mpr hx
      simpa using List.find?_eq_none.mp hfind x hsorted
  rw [splice?_eq hfits] at h
  injection h with h
  exact h.symm

/-- A tree without holes is spliced to its source. -/
theorem splice?_of_pristine (h : t.holes = []) : t.splice? = .ok t.source := by
  have hall : (fun k => !t.holes.any (·.covers k)) = fun _ => true := by
    rw [h]
    rfl
  rw [splice?_eq (by simp [h]), hall, select_true, String.ofList_toList]

/-- What a pass leaves can be spliced if all pieces lie on characters. -/
theorem exists_splice?_pass (pristine : t.holes = [])
    (fits : ∀ h ∈ t.places, h.fits t.source.toList) (m : MergedCoverage) :
    ∃ text, (t.pass m).1.splice? = .ok text := by
  obtain ⟨cuts, hshrinks, hholes⟩ := pass_shrinks t m
  rw [pristine, Multiset.coe_nil, zero_add] at hholes
  have hsource : (t.pass m).1.source = t.source := source_passes t [m]
  refine ⟨_, splice?_eq fun h hh => ?_⟩
  rw [hsource]
  refine fits h (hshrinks.cuts_subset ?_)
  rw [← hholes]
  exact hh

/-- Whether the spans of the outline that a tree was lowered from are well nested. -/
def Nests (t : SourceTree) : Prop :=
  ∃ l blocks, t = lowered l t.path t.source blocks ∧ l.bytes = t.source.toUTF8.data ∧
    Rust.blocksNest l t.source.toList 0 blocks

/-- Where more pieces of a well-nested tree are kept, more of its text is. -/
theorem KeepsMore.showsMore (nests : t.Nests)
    (h : t.KeepsMore m m' (t.pass m).1 (t.pass m').1) (htext : (t.pass m).1.splice? = .ok text)
    (htext' : (t.pass m').1.splice? = .ok text') : ShowsMore t.source text text' := by
  obtain ⟨gone, gone', h, h', less⟩ := h
  obtain ⟨l, blocks, ht, bytes, nests⟩ := nests
  obtain ⟨hi, hnested⟩ := Rust.blocksNested bytes nests
  have hforest : t.forest = (Rust.blocksExtents l blocks).map Extent.hole :=
    (congrArg forest ht).trans (forest_lowered l t.path t.source blocks)
  have hholes : t.holes = [] := congrArg SourceTree.holes ht
  have hinside := hnested.inside
  have hnodup : t.forest.labels.Nodup := by
    rw [hforest, Forest.labels_map]
    exact hnested.nodup
  rw [← hforest] at hinside
  obtain ⟨cuts, hshrinks, hcuts⟩ := pass_shrinks t m
  obtain ⟨cuts', hshrinks', hcuts'⟩ := pass_shrinks t m'
  rw [hholes, Multiset.coe_nil, zero_add] at hcuts hcuts'
  obtain ⟨_, hlost⟩ := hshrinks.cuts_of_nodup (fun _ _ _ hk => hk) hinside hnodup
  obtain ⟨hcut', _⟩ := hshrinks'.cuts_of_nodup (fun _ _ _ hk => hk) hinside hnodup
  have hplaces : (t.pass m).1.forest.labels ⊆ (t.pass m').1.forest.labels := by
    rw [forest, forest, h.bodies, h'.bodies]
    exact places_eraseBodies_subset t.bodies less
  have hkept := eq_select_of_splice? htext
  have hkept' := eq_select_of_splice? htext'
  rw [h.source] at hkept
  rw [h'.source] at hkept'
  refine ⟨_, _, hkept, hkept', fun k hvisible hkeep => ?_⟩
  rw [Bool.not_eq_true', List.any_eq_false] at hkeep ⊢
  intro x hx hcovers
  -- The piece of this hole is lost either way, so with more dead positions a hole takes it too.
  have hx' : x ∈ cuts' := by
    rw [← hcuts']
    exact hx
  obtain ⟨hpiece, hgone'⟩ := hcut' x hx'
  obtain ⟨y, hy, hinside⟩ := hlost x hpiece fun hmem => hgone' (hplaces hmem)
  rw [← hcuts] at hy
  exact hkeep y hy (hinside k hvisible hcovers)

end SourceTree

end CoverageReplay
