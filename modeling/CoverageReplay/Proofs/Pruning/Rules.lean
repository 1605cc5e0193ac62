import CoverageReplay.Proofs.Pruning.Address

/-!
# The rules of removing

What pruning may remove is said here without saying how it is found: `Demanded dead look R a` holds
if one of the rules asks for the piece at `a` once the pieces at `R` are gone. A set of addresses is
`Closed` if it holds all pieces that the rules ask for and, with a piece, all that is nested in it.

The rules look at a piece, at what is nested in it, and, for a `let`, at the later statements of the
same body. So they hold in a part of a tree exactly if they hold in the whole, which is what
`Embeds.demanded_iff` says for every way a part can lie in a whole (`Embeds`).
-/

namespace CoverageReplay

/-! ## The rules -/

/-- Whether an address is that of a later sibling of a statement, or lies in one. -/
def Address.Follows (a x : Address) : Prop :=
  ∃ b i j c, a = b ++ [.statement i] ∧ i < j ∧ x = b ++ .statement j :: c

/-- Whether a body had statements and has lost them all. -/
def Body.LostAll (R : Set Address) (b : Body) : Prop :=
  b.nodes ≠ [] ∧ ∀ i < b.nodes.length, [.statement i] ∈ R

/-- Whether a structure has been emptied: a removable block or loop that lost all its statements, an
`if` that lost something and has neither statements nor an `else` left, a `match` that lost all its
arms. -/
def NodeKind.Emptied (R : Set Address) : NodeKind → Prop
  | .leaf => False
  | .binding _ _ => False
  | .block body removable => removable ∧ body.LostAll R
  | .loop body removable => removable ∧ body.LostAll R
  | .branch yes no _ =>
    (∀ i < yes.nodes.length, [.yes, .statement i] ∈ R) ∧ (no.isPresent → [.otherwise] ∈ R) ∧
      (yes.nodes ≠ [] ∨ no.isPresent)
  | .select arms _ => arms ≠ [] ∧ ∀ i < arms.length, [.arm i] ∈ R

/-- Whether a piece has to go for what it is and for what has gone of it, `R` being addresses in the
piece. -/
def Piece.Dies (dead : Position → Bool) (R : Set Address) : Piece → Prop
  | .statement n => dead n.start ∨ n.kind.Emptied R
  | .otherwise .absent => False
  | .otherwise (.block _ body) => body.LostAll R
  | .otherwise (.chain _ n) => dead n.start ∨ n.kind.Emptied R
  | .arm m => dead m.start ∨ ∃ body, m.body? = some body ∧ body.LostAll R

/-- Whether a rule asks for the piece at an address once the pieces at `R` are gone. -/
inductive Demanded (dead : Position → Bool) (look : Address → Option Piece) (R : Set Address) :
    Address → Prop where
  /-- The piece is dead or has been emptied. -/
  | dies {a : Address} {p : Piece} (piece : look a = some p)
    (dies : p.Dies dead {c | a ++ c ∈ R}) : Demanded dead look R a
  /-- The piece is a `let` whose name was mentioned later in its body as written and is no
  longer. -/
  | unused {a : Address} {n : Node} {name : String} (piece : look a = some (.statement n))
    (binding : n.kind = .binding (some name) true) (named : name.startsWith "_" = false)
    (unmentioned : ∀ x p, a.Follows x → look x = some p → name ∈ p.names → x ∈ R) :
    Demanded dead look R a

/-- Whether everything nested in a piece at one of the addresses is at one of them too. -/
def Nested (look : Address → Option Piece) (R : Set Address) : Prop :=
  ∀ a c, a ∈ R → (look a).isSome → (look (a ++ c)).isSome → a ++ c ∈ R

/-- Whether a set of addresses holds all pieces that the rules ask for, and all that is nested in
them. -/
structure Closed (dead : Position → Bool) (look : Address → Option Piece) (R : Set Address) :
    Prop where
  nested : Nested look R
  demanded : ∀ a, Demanded dead look R a → a ∈ R

section Monotone

variable {dead dead' : Position → Bool} {look : Address → Option Piece} {R S : Set Address}

theorem Body.LostAll.mono {b : Body} (sub : R ⊆ S) (h : b.LostAll R) : b.LostAll S :=
  ⟨h.1, fun i hi => sub (h.2 i hi)⟩

/-- What has been emptied is empty also when more is removed. -/
theorem NodeKind.Emptied.mono {k : NodeKind} (sub : R ⊆ S) (h : k.Emptied R) : k.Emptied S := by
  cases k with
  | leaf => exact h
  | binding name used => exact h
  | block body removable => exact ⟨h.1, h.2.mono sub⟩
  | loop body removable => exact ⟨h.1, h.2.mono sub⟩
  | branch yes no lostElse =>
    exact ⟨fun i hi => sub (h.1 i hi), fun hno => sub (h.2.1 hno), h.2.2⟩
  | select arms pruned => exact ⟨h.1, fun i hi => sub (h.2 i hi)⟩

/-- The rules ask for more when more is dead and more is removed. -/
theorem Piece.Dies.mono {p : Piece} (fewer : ∀ q, dead q → dead' q) (sub : R ⊆ S)
    (h : p.Dies dead R) : p.Dies dead' S := by
  cases p with
  | statement n => exact h.imp (fewer _) (NodeKind.Emptied.mono sub)
  | otherwise o =>
    cases o with
    | absent => exact h
    | block hole body => exact Body.LostAll.mono sub h
    | chain hole n => exact h.imp (fewer _) (NodeKind.Emptied.mono sub)
  | arm m =>
    rcases h with hdead | ⟨body, hbody, hlost⟩
    · exact Or.inl (fewer _ hdead)
    · exact Or.inr ⟨body, hbody, hlost.mono sub⟩

/-- The more is dead and the more is gone, the more the rules ask for. -/
theorem Demanded.mono {a : Address} (fewer : ∀ q, dead q → dead' q) (sub : R ⊆ S)
    (h : Demanded dead look R a) : Demanded dead' look S a := by
  cases h with
  | dies piece dies => exact .dies piece (dies.mono fewer fun c hc => sub hc)
  | unused piece binding named unmentioned =>
    exact .unused piece binding named fun x p hx hp hname => sub (unmentioned x p hx hp hname)

/-- The rules ask for pieces only. -/
theorem Demanded.isSome {a : Address} (h : Demanded dead look R a) : (look a).isSome := by
  cases h with
  | dies piece _ => exact Option.isSome_of_eq_some piece
  | unused piece _ _ _ => exact Option.isSome_of_eq_some piece

/-- A closed set stays closed without the addresses in it that hold no piece. -/
theorem Closed.restrict (h : Closed dead look R) :
    Closed dead look {a | a ∈ R ∧ (look a).isSome} where
  nested := fun a c ha hpiece hc => ⟨h.nested a c ha.1 hpiece hc, hc⟩
  demanded := fun a ha =>
    ⟨h.demanded a (ha.mono (fun _ hq => hq) fun _ hx => hx.1), ha.isSome⟩

end Monotone

/-! ## Nesting -/

/-- What is nested in a piece is nested as it is in the whole. -/
theorem Nested.inner {look inner : Address → Option Piece} {R : Set Address} (h : Nested look R)
    (same : ∀ s a, look (s :: a) = inner (s :: a)) (hollow : inner [] = none) :
    Nested inner R := by
  intro a c ha hpiece hc
  cases a with
  | nil =>
    rw [hollow] at hpiece
    cases hpiece
  | cons s a =>
    rw [← same] at hpiece
    rw [List.cons_append, ← same] at hc
    exact h (s :: a) c ha hpiece hc

/-- How the addresses of a list are made of those of its first element, after the step `s`, and
those of the other elements. -/
structure Conses (look : Address → Option Piece) (s : Step) (head tail : Address → Option Piece) :
    Prop where
  nil : look [] = none
  tail_nil : tail [] = none
  head : ∀ a, look (s :: a) = head a
  tail : ∀ t a, look (t.next :: a) = tail (t :: a)
  cover : ∀ t a, (look (t :: a)).isSome → t = s ∨ ∃ u : Step, t = u.next

/-- The addresses in statements are made of those in the first one and those in the others. -/
theorem Conses.statements (n : Node) (rest : List Node) :
    Conses (Body.nodesPiece? (n :: rest)) (.statement 0) n.piece? (Body.nodesPiece? rest) where
  nil := rfl
  tail_nil := Body.nodesPiece?_nil rest
  head := fun _ => rfl
  tail := Body.nodesPiece?_next n rest
  cover := by
    intro t a h
    cases t with
    | statement i =>
      cases i with
      | zero => exact Or.inl rfl
      | succ i => exact Or.inr ⟨.statement i, rfl⟩
    | body i => cases h
    | yes => cases h
    | otherwise => cases h
    | arm i => cases h

/-- The addresses in arms are made of those in the first one and those in the others. -/
theorem Conses.arms (m : Arm) (rest : List Arm) :
    Conses (NodeKind.armsPiece? (m :: rest)) (.arm 0) m.piece? (NodeKind.armsPiece? rest) where
  nil := rfl
  tail_nil := NodeKind.armsPiece?_nil rest
  head := fun _ => rfl
  tail := NodeKind.armsPiece?_next m rest
  cover := by
    intro t a h
    cases t with
    | arm i =>
      cases i with
      | zero => exact Or.inl rfl
      | succ i => exact Or.inr ⟨.arm i, rfl⟩
    | body i => cases h
    | yes => cases h
    | otherwise => cases h
    | statement i => cases h

/-- The addresses in a file are made of those in its first body and those in the others. -/
theorem Conses.bodies (b : Body) (rest : List Body) :
    Conses (SourceTree.bodiesPiece? (b :: rest)) (.body 0) b.piece? (SourceTree.bodiesPiece? rest)
    where
  nil := rfl
  tail_nil := SourceTree.bodiesPiece?_nil rest
  head := fun _ => rfl
  tail := SourceTree.bodiesPiece?_next b rest
  cover := by
    intro t a h
    cases t with
    | body i =>
      cases i with
      | zero => exact Or.inl rfl
      | succ i => exact Or.inr ⟨.body i, rfl⟩
    | arm i => cases h
    | yes => cases h
    | otherwise => cases h
    | statement i => cases h

namespace Conses

variable {look head tail : Address → Option Piece} {s : Step} {R : Set Address}

/-- What is removed from a list with all that is in it is so removed from the first element. -/
theorem nested_head (c : Conses look s head tail) (h : Nested look R) :
    Nested head {a | s :: a ∈ R} := by
  intro a d ha hpiece hd
  rw [← c.head] at hpiece hd
  exact h (s :: a) d ha hpiece hd

/-- What is removed from a list with all that is in it is so removed from the rest. -/
theorem nested_tail (c : Conses look s head tail) (h : Nested look R) :
    Nested tail {a | Address.next a ∈ R} := by
  intro a d ha hpiece hd
  cases a with
  | nil =>
    rw [c.tail_nil] at hpiece
    cases hpiece
  | cons t a =>
    rw [← c.tail] at hpiece
    rw [List.cons_append, ← c.tail] at hd
    exact h (t.next :: a) d ha hpiece hd

end Conses

/-! ## Parts of a tree -/

/-- How the addresses of a part lie in those of the whole: pieces stay what they are, what is nested
in them stays nested, and the later siblings of a statement are those it has in the part. -/
structure Embeds (look look' : Address → Option Piece) (f : Address → Address) : Prop where
  piece : ∀ a, (look' a).isSome → look (f a) = look' a
  append : ∀ a c, (look' a).isSome → f (a ++ c) = f a ++ c
  inside : ∀ a c, (look' a).isSome → (look (f a ++ c)).isSome → (look' (a ++ c)).isSome
  follows : ∀ a x, (look' a).isSome → (look' x).isSome → a.Follows x → (f a).Follows (f x)
  follower : ∀ a x, (look' a).isSome → (look x).isSome → (f a).Follows x →
    ∃ y, x = f y ∧ (look' y).isSome ∧ a.Follows y

namespace Embeds

variable {dead : Position → Bool} {look look' : Address → Option Piece} {f : Address → Address}
  {R : Set Address}

/-- The rules ask for a piece in the whole exactly if they ask for it in the part. -/
theorem demanded_iff (e : Embeds look look' f) {a : Address} (ha : (look' a).isSome) :
    Demanded dead look R (f a) ↔ Demanded dead look' {x | f x ∈ R} a := by
  have hset : {c | f a ++ c ∈ R} = {c | a ++ c ∈ {x | f x ∈ R}} := by
    ext c
    show f a ++ c ∈ R ↔ f (a ++ c) ∈ R
    rw [e.append a c ha]
  -- What follows a piece in the part follows it in the whole, and the other way around.
  constructor
  · intro h
    cases h with
    | dies piece dies =>
      rw [e.piece a ha] at piece
      exact .dies piece (hset ▸ dies)
    | unused piece binding named unmentioned =>
      rw [e.piece a ha] at piece
      refine .unused piece binding named fun x p hx hp hname => ?_
      have hsome : (look' x).isSome := Option.isSome_of_eq_some hp
      exact unmentioned (f x) p (e.follows a x ha hsome hx) ((e.piece x hsome).trans hp) hname
  · intro h
    cases h with
    | dies piece dies => exact .dies ((e.piece a ha).trans piece) (hset ▸ dies)
    | unused piece binding named unmentioned =>
      refine .unused ((e.piece a ha).trans piece) binding named fun x p hx hp hname => ?_
      obtain ⟨y, rfl, hy, hay⟩ := e.follower a x ha (Option.isSome_of_eq_some hp) hx
      exact unmentioned y p hay ((e.piece y hy).symm.trans hp) hname

/-- What is removed with all that is in it is so removed from a part. -/
theorem nested (e : Embeds look look' f) (h : Nested look R) : Nested look' {x | f x ∈ R} := by
  intro a c ha hpiece hc
  show f (a ++ c) ∈ R
  rw [e.append a c hpiece]
  refine h (f a) c ha ?_ ?_
  · rw [e.piece a hpiece]
    exact hpiece
  · rw [← e.append a c hpiece, e.piece _ hc]
    exact hc

/-- What is closed in the whole is closed in the part. -/
theorem closed (e : Embeds look look' f) (h : Closed dead look R) :
    Closed dead look' {x | f x ∈ R} where
  nested := e.nested h.nested
  demanded := fun a ha => h.demanded (f a) ((e.demanded_iff ha.isSome).mpr ha)

/-- A part whose addresses follow one step into the whole. A statement is not such a part itself,
since its siblings are not in it. -/
theorem step (s : Step) (inner : ∀ t a, look (s :: t :: a) = look' (t :: a))
    (outer : look' [] = none ∨ look [s] = look' [] ∧ ∀ i, s ≠ .statement i) :
    Embeds look look' (s :: ·) where
  piece := by
    intro a ha
    cases a with
    | cons t a => exact inner t a
    | nil =>
      rcases outer with hnone | ⟨hsame, _⟩
      · rw [hnone] at ha
        cases ha
      · exact hsame
  append := fun _ _ _ => rfl
  inside := by
    intro a c ha hc
    cases a with
    | cons t a => rwa [List.cons_append, ← inner]
    | nil =>
      cases c with
      | nil => exact ha
      | cons t c => rwa [List.nil_append, ← inner]
  follows := by
    intro a x _ _ h
    obtain ⟨b, i, j, c, rfl, hij, rfl⟩ := h
    exact ⟨s :: b, i, j, c, rfl, hij, rfl⟩
  follower := by
    intro a x ha hx h
    obtain ⟨b, i, j, c, hab, hij, rfl⟩ := h
    cases b with
    | nil =>
      -- The statement would be the part itself.
      injection hab with hs hnil
      subst hnil
      rcases outer with hnone | ⟨_, hne⟩
      · rw [hnone] at ha
        cases ha
      · exact absurd hs (hne i)
    | cons t b =>
      injection hab with hs hb
      subst hs hb
      refine ⟨b ++ .statement j :: c, rfl, ?_, b, i, j, c, rfl, hij, rfl⟩
      cases b with
      | nil => rwa [List.nil_append, ← inner]
      | cons t b => rwa [List.cons_append, ← inner]

/-- The tail of a list lies in the list. -/
theorem next (tail : ∀ s a, look (s.next :: a) = look' (s :: a)) (none : look' [] = none) :
    Embeds look look' Address.next where
  piece := by
    intro a ha
    cases a with
    | nil =>
      rw [none] at ha
      cases ha
    | cons s a => exact tail s a
  append := by
    intro a c ha
    cases a with
    | nil =>
      rw [none] at ha
      cases ha
    | cons s a => rfl
  inside := by
    intro a c ha hc
    cases a with
    | nil =>
      rw [none] at ha
      cases ha
    | cons s a => rwa [List.cons_append, ← tail]
  follows := by
    intro a x _ _ h
    obtain ⟨b, i, j, c, rfl, hij, rfl⟩ := h
    cases b with
    | nil => exact ⟨[], i + 1, j + 1, c, rfl, Nat.succ_lt_succ hij, rfl⟩
    | cons s b => exact ⟨s.next :: b, i, j, c, rfl, hij, rfl⟩
  follower := by
    intro a x ha hx h
    obtain ⟨b, i, j, c, hab, hij, rfl⟩ := h
    cases a with
    | nil =>
      rw [none] at ha
      cases ha
    | cons s a =>
      rw [Address.next_cons] at hab
      cases b with
      | nil =>
        -- The statement is one of the tail, so its later siblings are too.
        injection hab with hs hnil
        subst hnil
        cases s with
        | statement k =>
          injection hs with hk
          subst hk
          obtain ⟨j, rfl⟩ : ∃ m, j = m + 1 := ⟨j - 1, by omega⟩
          refine ⟨.statement j :: c, rfl, ?_, [], k, j, c, rfl, Nat.lt_of_succ_lt_succ hij, rfl⟩
          rw [← tail]
          exact hx
        | body k => cases hs
        | yes => cases hs
        | otherwise => cases hs
        | arm k => cases hs
      | cons t b =>
        injection hab with hs hb
        subst hs hb
        refine ⟨s :: (b ++ .statement j :: c), rfl, ?_, s :: b, i, j, c, rfl, hij, rfl⟩
        rw [← tail]
        exact hx

end Embeds

end CoverageReplay
