import CoverageReplay.Proofs.Pruning.Erasure
import CoverageReplay.Proofs.Pruning.Settled

/-!
# A sweep removes the least closed set

`Body.sweep_eq_erase` says what a sweep removes from a fresh body: the pieces of the least set of
addresses that is closed under the rules of removing.

The least set of a structure is put together from those of its parts (`LeastRemoval.join`), in the
way in which a sweep puts together what it leaves of them. The one rule that looks sideways, that
for a `let`, is decided with the statements after it, which a sweep has finished with by then.
-/

namespace CoverageReplay

/-- Whether some addresses are the least set closed under the rules of removing. -/
def LeastRemoval (dead : Position → Bool) (look : Address → Option Piece) (gone : Address → Bool) :
    Prop :=
  IsLeast {R | Closed dead look R} {a | gone a}

/-! ## Putting least sets together -/

namespace LeastRemoval

variable {dead : Position → Bool} {look inner rest : Address → Option Piece}
  {gone g₁ g₂ : Address → Bool}

/-- The least set closed under the rules, as a question about addresses. -/
theorem of_isLeast {R : Set Address} [DecidablePred (· ∈ R)]
    (h : IsLeast {R | Closed dead look R} R) : LeastRemoval dead look fun a => decide (a ∈ R) := by
  have hset : {a | decide (a ∈ R) = true} = R := Set.ext fun a => decide_eq_true_iff
  unfold LeastRemoval
  rwa [hset]

/-- Only pieces are removed. -/
theorem piece (h : LeastRemoval dead look gone) {a : Address} (ha : gone a) : (look a).isSome :=
  (h.2 h.1.restrict ha).2

/-- What goes is asked for by a rule, or is in something that goes and is. -/
theorem exists_demanded (h : LeastRemoval dead look gone) {a : Address} (ha : gone a) :
    ∃ b, b <+: a ∧ gone b ∧ Demanded dead look {x | gone x} b := by
  -- The addresses of which this holds are closed, so the least set is among them.
  have hclosed : Closed dead look
      {a | gone a ∧ ∃ b, b <+: a ∧ gone b ∧ Demanded dead look {x | gone x} b} :=
    { nested := fun a c ha hpiece hc =>
        ⟨h.1.nested a c ha.1 hpiece hc, ha.2.imp fun b hb =>
          ⟨hb.1.trans (List.prefix_append a c), hb.2⟩⟩
      demanded := fun a ha =>
        have hdemanded := ha.mono (fun _ hq => hq) fun _ hx => hx.1
        have hgone := h.1.demanded a hdemanded
        ⟨hgone, a, List.prefix_rfl, hgone, hdemanded⟩ }
  exact (h.2 hclosed ha).2

/-- Where nothing around a piece goes, it goes exactly if a rule asks for it. -/
theorem iff_demanded (h : LeastRemoval dead look gone) {a : Address}
    (outer : ∀ b, b <+: a → b ≠ a → gone b = false) :
    gone a ↔ Demanded dead look {x | gone x} a := by
  refine ⟨fun ha => ?_, h.1.demanded a⟩
  obtain ⟨b, hb, hgone, hdemanded⟩ := h.exists_demanded ha
  by_cases hsame : b = a
  · rwa [← hsame]
  · rw [outer b hb hsame] at hgone
    cases hgone

/-- Only what is there is removed. -/
theorem eq_false (h : LeastRemoval dead look gone) {a : Address} (ha : look a = none) :
    gone a = false := by
  refine Bool.eq_false_iff.mpr fun hgone => ?_
  have hsome := h.piece hgone
  rw [ha] at hsome
  cases hsome

/-- Where there are no pieces, none is removed. -/
theorem empty (h : ∀ a, look a = none) : LeastRemoval dead look fun _ => false := by
  refine ⟨⟨fun a c ha => absurd ha Bool.false_ne_true, fun a ha => ?_⟩,
    fun R _ a ha => absurd ha Bool.false_ne_true⟩
  have hsome := ha.isSome
  rw [h a] at hsome
  cases hsome

/-- What is removed from a part is removed from the whole. -/
theorem subset_of_embeds {f : Address → Address} {S : Set Address} (e : Embeds look inner f)
    (h : LeastRemoval dead inner gone) (closed : Closed dead look S) {a : Address} (ha : gone a) :
    f a ∈ S :=
  h.2 (e.closed closed) ha

/-- In the part of a whole, a set that restricts to a least set is nested. -/
theorem nested_of_embeds {f : Address → Address} {R : Set Address} (e : Embeds look inner f)
    (h : LeastRemoval dead inner gone) (restricts : ∀ x, f x ∈ R ↔ gone x) {x c : Address}
    (hx : gone x) (hc : (look (f x ++ c)).isSome) : f x ++ c ∈ R := by
  have hpiece := h.piece hx
  rw [← e.append x c hpiece, restricts]
  exact h.1.nested x c hx hpiece (e.inside x c hpiece hc)

/-- In the part of a whole, a set that restricts to a least set holds what the rules ask for. -/
theorem demanded_of_embeds {f : Address → Address} {R : Set Address} (e : Embeds look inner f)
    (h : LeastRemoval dead inner gone) (restricts : ∀ x, f x ∈ R ↔ gone x) {x : Address}
    (hx : (inner x).isSome) (hdemand : Demanded dead look R (f x)) : f x ∈ R := by
  have hset : {y | f y ∈ R} = {y | gone y} := Set.ext restricts
  rw [restricts]
  have hinner := (e.demanded_iff hx).mp hdemand
  rw [hset] at hinner
  exact h.1.demanded x hinner

/-- The addresses that `p` gives under the step `s`, and those that `q` gives under `f`. -/
def joined (s : Step) (f : Address → Address) (p q : Address → Bool) : Set Address :=
  {a | (∃ x, p x ∧ a = s :: x) ∨ ∃ x, q x ∧ a = f x}

section Joined

variable {s : Step} {f : Address → Address} {p q : Address → Bool}

/-- Of the two joined sets the first holds what begins with the step. -/
theorem mem_joined_head (apart : ∀ x y, s :: x ≠ f y) (x : Address) :
    s :: x ∈ joined s f p q ↔ p x := by
  constructor
  · intro hmem
    rcases hmem with ⟨y, hy, hxy⟩ | ⟨y, _, hxy⟩
    · injection hxy with _ hxy
      rw [hxy]
      exact hy
    · exact absurd hxy (apart x y)
  · exact fun hx => Or.inl ⟨x, hx, rfl⟩

/-- Of the two joined sets the second holds what is moved by the map. -/
theorem mem_joined_tail (apart : ∀ x y, s :: x ≠ f y) (inj : Function.Injective f) (x : Address) :
    f x ∈ joined s f p q ↔ q x := by
  constructor
  · intro hmem
    rcases hmem with ⟨y, _, hxy⟩ | ⟨y, hy, hxy⟩
    · exact absurd hxy.symm (apart y x)
    · rw [inj hxy]
      exact hy
  · exact fun hx => Or.inr ⟨x, hx, rfl⟩

end Joined

section Join

variable {s : Step} {f : Address → Address} (e₁ : Embeds look inner (s :: ·))
  (e₂ : Embeds look rest f) (inj : Function.Injective f) (apart : ∀ x y, s :: x ≠ f y)
  (cover : ∀ a, (look a).isSome →
    a = [s] ∨ (∃ x, (inner x).isSome ∧ a = s :: x) ∨ ∃ x, (rest x).isSome ∧ a = f x)
  (h₁ : LeastRemoval dead inner g₁) (h₂ : LeastRemoval dead rest g₂)

include e₁ e₂ h₁ h₂

/-- The join of two least sets lies in every set closed under the rules. -/
theorem joined_subset {S : Set Address} (closed : Closed dead look S) : joined s f g₁ g₂ ⊆ S := by
  intro a ha
  rcases ha with ⟨x, hx, rfl⟩ | ⟨x, hx, rfl⟩
  · exact subset_of_embeds e₁ h₁ closed hx
  · exact subset_of_embeds e₂ h₂ closed hx

include inj apart cover

/-- If the piece at `s` stays, the least sets of the two parts make up that of the whole. -/
theorem isLeast_joined_of_kept (kept : ¬ Demanded dead look (joined s f g₁ g₂) [s]) :
    IsLeast {R | Closed dead look R} (joined s f g₁ g₂) := by
  have hhead : ∀ x, s :: x ∈ joined s f g₁ g₂ ↔ g₁ x := mem_joined_head apart
  have htail : ∀ x, f x ∈ joined s f g₁ g₂ ↔ g₂ x := mem_joined_tail apart inj
  refine ⟨⟨fun a c ha _ hc => ?_, fun a ha => ?_⟩, fun S hS => joined_subset e₁ e₂ h₁ h₂ hS⟩
  · rcases ha with ⟨x, hx, rfl⟩ | ⟨x, hx, rfl⟩
    · exact nested_of_embeds e₁ h₁ hhead hx hc
    · exact nested_of_embeds e₂ h₂ htail hx hc
  · rcases cover a ha.isSome with rfl | ⟨x, hx, rfl⟩ | ⟨x, hx, rfl⟩
    · exact absurd ha kept
    · exact demanded_of_embeds e₁ h₁ hhead hx ha
    · exact demanded_of_embeds e₂ h₂ htail hx ha

/-- If the piece at `s` goes, all that is in it goes with it. -/
theorem isLeast_joined_of_lost (lost : Demanded dead look (joined s f g₁ g₂) [s]) :
    IsLeast {R | Closed dead look R} (joined s f (fun x => (look (s :: x)).isSome) g₂) := by
  have hhead : ∀ x, s :: x ∈ joined s f (fun x => (look (s :: x)).isSome) g₂ ↔
      (look (s :: x)).isSome := mem_joined_head apart
  have htail : ∀ x, f x ∈ joined s f (fun x => (look (s :: x)).isSome) g₂ ↔ g₂ x :=
    mem_joined_tail apart inj
  refine ⟨⟨fun a c ha _ hc => ?_, fun a ha => ?_⟩, fun S hS a ha => ?_⟩
  · rcases ha with ⟨x, hx, rfl⟩ | ⟨x, hx, rfl⟩
    · exact (hhead (x ++ c)).mpr hc
    · exact nested_of_embeds e₂ h₂ htail hx hc
  · rcases cover a ha.isSome with rfl | ⟨x, hx, rfl⟩ | ⟨x, hx, rfl⟩
    · exact (hhead []).mpr ha.isSome
    · exact (hhead x).mpr ha.isSome
    · exact demanded_of_embeds e₂ h₂ htail hx ha
  · -- The least sets of the parts are in every closed set, and they are what asks for the piece
    -- at `s`.
    have hs : [s] ∈ S :=
      hS.demanded [s] (lost.mono (fun _ hq => hq) (joined_subset e₁ e₂ h₁ h₂ hS))
    rcases ha with ⟨x, hx, rfl⟩ | ⟨x, hx, rfl⟩
    · exact hS.nested [s] x hs lost.isSome hx
    · exact subset_of_embeds e₂ h₂ hS hx

/-- A whole consists of what is under one of its steps `s`, the piece at `s` itself if there is one,
and the rest. Once the least sets of what is under `s` and of the rest are known, all that is to be
decided is whether the rules ask for the piece at `s`. -/
theorem join (hollow : inner [] = none) (d : Bool)
    (decides : ∀ R : Set Address, (∀ x, s :: x ∈ R ↔ g₁ x) → (∀ x, f x ∈ R ↔ g₂ x) →
      (d ↔ Demanded dead look R [s])) :
    ∃ gone, LeastRemoval dead look gone ∧ gone [s] = d ∧
      (d = false → ∀ x, gone (s :: x) = g₁ x) ∧ ∀ x, gone (f x) = g₂ x := by
  classical
  have hdecides := decides (joined s f g₁ g₂) (mem_joined_head apart) (mem_joined_tail apart inj)
  cases d with
  | false =>
    have hkept : ¬ Demanded dead look (joined s f g₁ g₂) [s] :=
      fun h => absurd (hdecides.mpr h) Bool.false_ne_true
    have hleast := isLeast_joined_of_kept e₁ e₂ inj apart cover h₁ h₂ hkept
    have hhead : ∀ x, decide (s :: x ∈ joined s f g₁ g₂) = g₁ x := fun x =>
      Bool.eq_iff_iff.mpr (decide_eq_true_iff.trans (mem_joined_head apart x))
    have htail : ∀ x, decide (f x ∈ joined s f g₁ g₂) = g₂ x := fun x =>
      Bool.eq_iff_iff.mpr (decide_eq_true_iff.trans (mem_joined_tail apart inj x))
    exact ⟨fun a => decide (a ∈ joined s f g₁ g₂), of_isLeast hleast,
      (hhead []).trans (h₁.eq_false hollow), fun _ => hhead, htail⟩
  | true =>
    have hlost := hdecides.mp rfl
    have hleast := isLeast_joined_of_lost e₁ e₂ inj apart cover h₁ h₂ hlost
    refine ⟨fun a => decide (a ∈ joined s f (fun x => (look (s :: x)).isSome) g₂),
      of_isLeast hleast, ?_, fun h => absurd h.symm Bool.false_ne_true, fun x => ?_⟩
    · exact decide_eq_true ((mem_joined_head apart []).mpr hlost.isSome)
    · exact Bool.eq_iff_iff.mpr (decide_eq_true_iff.trans (mem_joined_tail apart inj x))

end Join

end LeastRemoval

/-! ## When the rules ask for a piece -/

section Asked

variable {dead : Position → Bool} {R : Set Address} {gone later : Address → Bool}

/-- Only statements are asked for because of other pieces. -/
theorem demanded_iff_dies {look : Address → Option Piece} {a : Address} {p : Piece}
    (piece : look a = some p) (other : ∀ n, p ≠ .statement n) :
    Demanded dead look R a ↔ p.Dies dead {c | a ++ c ∈ R} := by
  constructor
  · intro h
    cases h with
    | dies piece' dies =>
      rw [piece] at piece'
      injection piece' with hp
      exact hp ▸ dies
    | unused piece' =>
      rw [piece] at piece'
      injection piece' with hp
      exact absurd hp (other _)
  · exact Demanded.dies piece

/-- The names that the statements after the first one mention are mentioned by what is left of them,
or by pieces that are gone. -/
theorem unmentioned_iff {n : Node} {rest : List Node} {name : String}
    (htail : ∀ x, Address.next x ∈ R ↔ later x)
    (nested : Nested (Body.nodesPiece? rest) {a | later a}) :
    (∀ x p, Address.Follows [.statement 0] x → Body.nodesPiece? (n :: rest) x = some p →
      name ∈ p.names → x ∈ R) ↔
      name ∉ Body.nodesIdentifiers (Body.eraseNodes later rest) := by
  rw [Body.mem_nodesIdentifiers_erase name rest later nested]
  constructor
  · intro h hleft
    obtain ⟨a, p, hp, hname, ha⟩ := hleft
    cases a with
    | nil =>
      rw [Body.nodesPiece?_nil] at hp
      cases hp
    | cons s a =>
      -- A piece of the later statements follows the first one, so `h` says that it is gone.
      have hfollows : Address.Follows [.statement 0] (Address.next (s :: a)) := by
        cases s with
        | statement j => exact ⟨[], 0, j + 1, a, rfl, Nat.succ_pos j, rfl⟩
        | body i =>
          cases rest with
          | nil => cases hp
          | cons => cases hp
        | yes =>
          cases rest with
          | nil => cases hp
          | cons => cases hp
        | otherwise =>
          cases rest with
          | nil => cases hp
          | cons => cases hp
        | arm i =>
          cases rest with
          | nil => cases hp
          | cons => cases hp
      have hmem := h _ p hfollows ((Body.nodesPiece?_next n rest s a).trans hp) hname
      rw [htail, ha] at hmem
      cases hmem
  · intro h x p hfollows hp hname
    obtain ⟨b, i, j, c, hb, hij, rfl⟩ := hfollows
    cases b with
    | nil =>
      -- What follows the first statement is in the statement `j`, and `j` is not the first one.
      injection hb with hi
      injection hi with hi
      obtain ⟨j, rfl⟩ : ∃ k, j = k + 1 := ⟨j - 1, by omega⟩
      by_contra hmem
      exact h ⟨.statement j :: c, p, hp, hname,
        Bool.eq_false_iff.mpr fun hlater => hmem ((htail _).mpr hlater)⟩
    | cons s b =>
      cases b with
      | nil => cases hb
      | cons => cases hb

/-- Of what is left of a statement only a `let` can be an unused binding, and it is one by its own
name. -/
theorem isUnusedBinding_erase_iff {n : Node} {names : List String} :
    (n.erase gone).isUnusedBinding names ↔
      ∃ name, n.kind = .binding (some name) true ∧ name.startsWith "_" = false ∧ name ∉ names := by
  obtain ⟨start, hole, idents, kind⟩ := n
  rw [Node.erase, Node.isUnusedBinding, Node.kind, Node.kind]
  cases kind with
  | binding name used =>
    cases name with
    | none => simp [NodeKind.erase]
    | some name =>
      cases used with
      | false => simp [NodeKind.erase]
      | true => simp [NodeKind.erase]
  | leaf | block | loop | branch | select => simp [NodeKind.erase]

/-- The rules ask for a statement exactly if it is dead, what is in it leaves it vacuous, or it is
left as an unused binding. -/
theorem demanded_statement_iff {n : Node} (fresh : n.isFresh) {rest : List Node}
    (hhead : ∀ x, .statement 0 :: x ∈ R ↔ gone x) (htail : ∀ x, Address.next x ∈ R ↔ later x)
    (nested : Nested (Body.nodesPiece? rest) {a | later a}) :
    Demanded dead (Body.nodesPiece? (n :: rest)) R [.statement 0] ↔
      dead n.start ∨ (n.erase gone).isVacuous ∨
        (n.erase gone).isUnusedBinding (Body.nodesIdentifiers (Body.eraseNodes later rest)) := by
  have hpiece : Body.nodesPiece? (n :: rest) [.statement 0] = some (.statement n) := by simp
  have hset : {c | [.statement 0] ++ c ∈ R} = {c | gone c} := Set.ext hhead
  rw [Node.isVacuous_erase fresh, ← or_assoc]
  constructor
  · intro h
    cases h with
    | dies piece dies =>
      rw [hpiece] at piece
      injection piece with hp
      rw [← hp, hset] at dies
      exact Or.inl dies
    | unused piece binding named unmentioned =>
      rw [hpiece] at piece
      injection piece with hp
      injection hp with hn
      subst hn
      have hname := (unmentioned_iff htail nested).mp unmentioned
      exact Or.inr (isUnusedBinding_erase_iff.mpr ⟨_, binding, named, hname⟩)
  · intro h
    rcases h with hdies | hunused
    · exact .dies hpiece (show Piece.Dies dead _ (.statement n) from hset ▸ hdies)
    · obtain ⟨name, hbinding, hnamed, hname⟩ := isUnusedBinding_erase_iff.mp hunused
      exact .unused hpiece hbinding hnamed ((unmentioned_iff htail nested).mpr hname)

end Asked

/-! ## A sweep removes the least set -/

/-- The pieces nested in an `else` branch. -/
def Otherwise.inside : Otherwise → Address → Option Piece
  | .absent, _ => none
  | .block _ body, a => body.piece? a
  | .chain _ n, a => n.kind.piece? a

/-- The pieces nested in an arm. -/
def Arm.inside : Arm → Address → Option Piece
  | .flat _ _ _, _ => none
  | .block _ _ _ body, a => body.piece? a

section Inside

@[simp] theorem Otherwise.inside_nil (o : Otherwise) : o.inside [] = none := by
  cases o with
  | absent => rfl
  | block hole body => exact Body.piece?_nil body
  | chain hole n => exact NodeKind.piece?_nil _

/-- An address that goes on leads past the `else` branch into what it is made of. -/
theorem Otherwise.piece?_cons (o : Otherwise) (s : Step) (a : Address) :
    o.piece? (s :: a) = o.inside (s :: a) := by
  cases o with
  | absent => rfl
  | block hole body => rfl
  | chain hole n => exact piece?_chain hole n s a

@[simp] theorem Arm.inside_nil (m : Arm) : m.inside [] = none := by
  cases m with
  | flat start hole idents => rfl
  | block start hole idents body => exact Body.piece?_nil body

/-- An address that goes on leads past the arm into what it is made of. -/
theorem Arm.piece?_cons (m : Arm) (s : Step) (a : Address) :
    m.piece? (s :: a) = m.inside (s :: a) := by
  cases m with
  | flat => rfl
  | block => rfl

/-- The addresses in the rest of a list are moved to different ones. -/
theorem Address.next_injective : Function.Injective Address.next := by
  intro a b h
  cases a with
  | nil =>
    cases b with
    | nil => rfl
    | cons t b => cases h
  | cons s a =>
    cases b with
    | nil => cases h
    | cons t b =>
      injection h with hs ha
      rw [Step.next_injective hs, ha]

/-- A removed `else` branch is not there any more, and it was there before. -/
theorem Otherwise.sweep_of_lost {dead : Position → Bool} {o : Otherwise}
    (lost : (o.sweep dead).2.1) : (o.sweep dead).1 = .absent ∧ o.isPresent := by
  cases o with
  | absent => cases lost
  | block hole body =>
    simp only [sweep] at lost ⊢
    split at lost
    next => simp_all [isPresent]
    next => simp_all
  | chain hole n =>
    simp only [sweep] at lost ⊢
    split at lost
    next => simp_all [isPresent]
    next =>
      split at lost
      next => simp_all [isPresent]
      next => simp_all

/-- Erasing an `else` branch leaves none. -/
theorem Otherwise.erase_of_gone {gone : Address → Bool} {o : Otherwise} (h : gone []) :
    o.erase gone = .absent := by
  cases o with
  | absent => simp [erase]
  | block => simp [erase, h]
  | chain => simp [erase, h]

end Inside

namespace LeastRemoval

variable {dead : Position → Bool}

/-- The least set of an `if` from those of its two branches. -/
theorem branch {yes : Body} {no : Otherwise} {lost : Bool} {g₁ g₂ : Address → Bool}
    (h₁ : LeastRemoval dead no.inside g₁) (h₂ : LeastRemoval dead yes.piece? g₂) (d : Bool)
    (decides : d ↔ (Piece.otherwise no).Dies dead {c | g₁ c}) :
    ∃ gone, LeastRemoval dead (NodeKind.branch yes no lost).piece? gone ∧ gone [.otherwise] = d ∧
      (d = false → ∀ x, gone (.otherwise :: x) = g₁ x) ∧ ∀ x, gone (.yes :: x) = g₂ x := by
  -- The pieces of an `if` are those of its two branches, and whether the `else` branch goes is
  -- decided by what is in it.
  refine join (Embeds.step .otherwise no.piece?_cons (Or.inl no.inside_nil))
    (Embeds.step .yes (fun _ _ => rfl) (Or.inl yes.piece?_nil)) (fun _ _ =>
      List.tail_eq_of_cons_eq) ?_ ?_ h₁ h₂
    no.inside_nil d fun R hR _ => decides.trans ?_
  · intro x y h
    injection h with hs _
    cases hs
  · intro a ha
    cases a with
    | nil => cases ha
    | cons t a =>
      cases t with
      | otherwise =>
        cases a with
        | nil => exact Or.inl rfl
        | cons u a => exact Or.inr (Or.inl ⟨u :: a, no.piece?_cons u a ▸ ha, rfl⟩)
      | yes => exact Or.inr (Or.inr ⟨a, ha, rfl⟩)
      | body i => cases ha
      | statement i => cases ha
      | arm i => cases ha
  · have hset : {c | [.otherwise] ++ c ∈ R} = {c | g₁ c} := Set.ext hR
    rw [← hset]
    cases no with
    | absent => exact iff_of_false id fun h => absurd h.isSome Bool.false_ne_true
    | block hole body => exact (demanded_iff_dies rfl fun n h => by cases h).symm
    | chain hole n => exact (demanded_iff_dies rfl fun n h => by cases h).symm

/-- The least set of a list from those of its first element and of the others. -/
theorem cons {look head tail inner : Address → Option Piece} {s : Step}
    {g₁ g₂ : Address → Bool} (c : Conses look s head tail) (first : ∀ t : Step, s ≠ t.next)
    (same : ∀ t a, head (t :: a) = inner (t :: a)) (hollow : inner [] = none)
    (h₁ : LeastRemoval dead inner g₁) (h₂ : LeastRemoval dead tail g₂) (d : Bool)
    (decides : ∀ R : Set Address, (∀ x, s :: x ∈ R ↔ g₁ x) → (∀ x, Address.next x ∈ R ↔ g₂ x) →
      (d ↔ Demanded dead look R [s])) :
    ∃ gone, LeastRemoval dead look gone ∧ gone [s] = d ∧
      (d = false → ∀ x, gone (s :: x) = g₁ x) ∧ ∀ x, gone (Address.next x) = g₂ x := by
  have hinner : ∀ t a, look (s :: t :: a) = inner (t :: a) := fun t a =>
    (c.head (t :: a)).trans (same t a)
  refine join (Embeds.step s hinner (Or.inl hollow)) (Embeds.next c.tail c.tail_nil)
    Address.next_injective ?_ ?_ h₁ h₂ hollow d decides
  · intro x y h
    cases y with
    | nil => cases h
    | cons t y =>
      injection h with hs _
      exact first t hs
  · intro a ha
    cases a with
    | nil =>
      rw [c.nil] at ha
      cases ha
    | cons t a =>
      rcases c.cover t a ha with rfl | ⟨u, rfl⟩
      · cases a with
        | nil => exact Or.inl rfl
        | cons u a => exact Or.inr (Or.inl ⟨u :: a, hinner u a ▸ ha, rfl⟩)
      · exact Or.inr (Or.inr ⟨u :: a, c.tail u a ▸ ha, rfl⟩)

end LeastRemoval

/-- The first statement is left unless it is a binding that nothing left behind it mentions. -/
theorem dropUnused_cons (n : Node) (rest : List Node) :
    (dropUnused (n :: rest)).1 =
      if n.isUnusedBinding (Body.nodesIdentifiers (dropUnused rest).1) then (dropUnused rest).1
      else n :: (dropUnused rest).1 := by
  rw [← dropUnused_names]
  simp only [dropUnused]
  split
  next => rfl
  next => rfl

mutual

/-- A sweep of a fresh body removes the least set. -/
theorem Body.sweep_eq_erase (dead : Position → Bool) :
    ∀ b : Body, b.isFresh →
      ∃ gone, LeastRemoval dead b.piece? gone ∧ (b.sweep dead).1 = b.erase gone
  | .mk opening closeEnd nodes pruned, fresh => by
    simp only [Body.isFresh, Bool.and_eq_true, Bool.not_eq_true'] at fresh
    obtain ⟨gone, hleast, hswept⟩ := Body.sweepNodes_eq_erase dead nodes fresh.2
    refine ⟨gone, hleast, ?_⟩
    simp only [Body.sweep, Body.erase, hswept]

/-- Sweeping some statements and dropping the unused bindings erases the least set the rules ask
for. -/
theorem Body.sweepNodes_eq_erase (dead : Position → Bool) :
    ∀ nodes : List Node, Body.nodesFresh nodes →
      ∃ gone, LeastRemoval dead (Body.nodesPiece? nodes) gone ∧
        (dropUnused (Body.sweepNodes dead nodes).1).1 = Body.eraseNodes gone nodes
  | [], _ => ⟨_, LeastRemoval.empty fun _ => rfl, rfl⟩
  | n :: rest, fresh => by
    simp only [Body.nodesFresh, Bool.and_eq_true] at fresh
    obtain ⟨⟨hfresh, _⟩, hrestFresh⟩ := fresh
    obtain ⟨g₁, hinner, hn⟩ := Node.sweep_eq_erase dead n hfresh
    obtain ⟨g₂, htail, hrest⟩ := Body.sweepNodes_eq_erase dead rest hrestFresh
    obtain ⟨gone, hleast, hzero, hkept, hnext⟩ :=
      LeastRemoval.cons (Conses.statements n rest) Step.statement_zero_ne_next
        n.piece?_cons (NodeKind.piece?_nil _) hinner htail
        (dead n.start || (n.erase g₁).isVacuous ||
          (n.erase g₁).isUnusedBinding (Body.nodesIdentifiers (Body.eraseNodes g₂ rest)))
        (fun R h₁ h₂ => by
          rw [demanded_statement_iff hfresh h₁ h₂ htail.1.nested, Bool.or_eq_true, Bool.or_eq_true,
            or_assoc])
    refine ⟨gone, hleast, ?_⟩
    -- The sweep asks in its own order: dead, then vacuous, then unused.
    simp only [Body.eraseNodes, hzero, hnext, Body.sweepNodes]
    cases hdead : dead n.start with
    | true => simp [hrest]
    | false =>
      rw [hn]
      cases hvacuous : (n.erase g₁).isVacuous with
      | true => simp [hrest]
      | false =>
        simp only [Bool.false_eq_true, if_false, Bool.false_or, dropUnused_cons, hrest]
        cases hunused : (n.erase g₁).isUnusedBinding
            (Body.nodesIdentifiers (Body.eraseNodes g₂ rest)) with
        | true => rfl
        | false => simp [hkept (by simp [hdead, hvacuous, hunused])]

/-- Sweeping a statement erases the least set of the pieces in it. -/
theorem Node.sweep_eq_erase (dead : Position → Bool) :
    ∀ n : Node, n.isFresh →
      ∃ gone, LeastRemoval dead n.kind.piece? gone ∧ (n.sweep dead).1 = n.erase gone
  | .mk start hole idents kind, fresh => by
    obtain ⟨gone, hleast, hswept⟩ := NodeKind.sweep_eq_erase dead kind fresh
    exact ⟨gone, hleast, by simp only [Node.sweep, Node.erase, hswept]⟩

/-- Sweeping what a statement is made of erases the least set of the pieces in it. -/
theorem NodeKind.sweep_eq_erase (dead : Position → Bool) :
    ∀ k : NodeKind, k.isFresh →
      ∃ gone, LeastRemoval dead k.piece? gone ∧ (k.sweep dead).1 = k.erase gone
  | .leaf, _ => ⟨_, LeastRemoval.empty fun _ => rfl, rfl⟩
  | .binding _ _, _ => ⟨_, LeastRemoval.empty fun _ => rfl, rfl⟩
  | .block body removable, fresh => by
    obtain ⟨gone, hleast, hswept⟩ := Body.sweep_eq_erase dead body fresh
    exact ⟨gone, hleast, by simp only [NodeKind.sweep, NodeKind.erase, hswept]⟩
  | .loop body removable, fresh => by
    obtain ⟨gone, hleast, hswept⟩ := Body.sweep_eq_erase dead body fresh
    exact ⟨gone, hleast, by simp only [NodeKind.sweep, NodeKind.erase, hswept]⟩
  | .branch yes no lostElse, fresh => by
    simp only [NodeKind.isFresh, Bool.and_eq_true] at fresh
    obtain ⟨g₂, hyes, hsweptYes⟩ := Body.sweep_eq_erase dead yes fresh.1.2
    obtain ⟨g₁, hno, hlost, hsweptNo⟩ := Otherwise.sweep_eq_erase dead no fresh.2
    obtain ⟨gone, hleast, hzero, hkept, hnext⟩ := LeastRemoval.branch hno hyes (no.sweep dead).2.1
      hlost
    refine ⟨gone, hleast, ?_⟩
    simp only [NodeKind.sweep, NodeKind.erase, hzero, hnext, hsweptYes]
    -- When the `else` branch stays, it is swept as its own pieces are erased; when it goes, nothing
    -- of it is left.
    cases hd : (no.sweep dead).2.1 with
    | false => simp [hkept hd, hsweptNo hd]
    | true =>
      obtain ⟨habsent, hpresent⟩ := Otherwise.sweep_of_lost hd
      have herase : no.erase (fun a => gone (.otherwise :: a)) = .absent :=
        Otherwise.erase_of_gone (hzero.trans hd)
      simp [habsent, hpresent, herase]
  | .select arms pruned, fresh => by
    simp only [NodeKind.isFresh, Bool.and_eq_true] at fresh
    obtain ⟨gone, hleast, hswept⟩ := NodeKind.sweepArms_eq_erase dead arms fresh.2
    exact ⟨gone, hleast, by simp only [NodeKind.sweep, NodeKind.erase, hswept]⟩

/-- Sweeping an `else` branch erases the least set of the pieces in it, or it removes the branch,
exactly if the rules ask for that. -/
theorem Otherwise.sweep_eq_erase (dead : Position → Bool) :
    ∀ o : Otherwise, o.isFresh →
      ∃ gone, LeastRemoval dead o.inside gone ∧
        ((o.sweep dead).2.1 ↔ (Piece.otherwise o).Dies dead {c | gone c}) ∧
        ((o.sweep dead).2.1 = false → (o.sweep dead).1 = o.erase gone)
  | .absent, _ => ⟨_, LeastRemoval.empty fun _ => rfl, iff_of_false Bool.false_ne_true id, fun _ =>
    rfl⟩
  | .block hole body, fresh => by
    obtain ⟨gone, hleast, hswept⟩ := Body.sweep_eq_erase dead body fresh
    have hnil : gone [] = false := hleast.eq_false (Body.piece?_nil body)
    -- First when the branch goes, then what is left of it when it stays.
    refine ⟨gone, hleast, ?_, ?_⟩
    · rw [Piece.Dies, ← Body.isEmptied_erase fresh, ← hswept]
      simp only [Otherwise.sweep]
      split
      next => simp_all
      next => simp_all
    · intro hkept
      simp only [Otherwise.sweep, Otherwise.erase, hnil, hswept] at hkept ⊢
      split at hkept
      next => simp_all
      next => simp_all
  | .chain hole n, fresh => by
    obtain ⟨gone, hleast, hswept⟩ := Node.sweep_eq_erase dead n fresh
    have hnil : gone [] = false := hleast.eq_false (NodeKind.piece?_nil _)
    refine ⟨gone, hleast, ?_, ?_⟩
    · rw [Piece.Dies, ← Node.isVacuous_erase fresh, ← hswept]
      simp only [Otherwise.sweep]
      cases dead n.start with
      | true => simp
      | false =>
        cases (n.sweep dead).1.isVacuous with
        | false => simp
        | true => simp
    · simp only [Otherwise.sweep, Otherwise.erase, hnil, hswept]
      cases dead n.start with
      | true => simp
      | false =>
        cases (n.erase gone).isVacuous with
        | false => simp
        | true => simp

/-- Sweeping some arms erases the least set the rules ask for. -/
theorem NodeKind.sweepArms_eq_erase (dead : Position → Bool) :
    ∀ arms : List Arm, NodeKind.armsFresh arms →
      ∃ gone, LeastRemoval dead (NodeKind.armsPiece? arms) gone ∧
        (NodeKind.sweepArms dead arms).1 = NodeKind.eraseArms gone arms
  | [], _ => ⟨_, LeastRemoval.empty fun _ => rfl, rfl⟩
  | m :: rest, fresh => by
    simp only [NodeKind.armsFresh, Bool.and_eq_true] at fresh
    obtain ⟨g₁, hinner, hlost, hm⟩ := Arm.sweep_eq_erase dead m fresh.1
    obtain ⟨g₂, htail, hrest⟩ := NodeKind.sweepArms_eq_erase dead rest fresh.2
    obtain ⟨gone, hleast, hzero, hkept, hnext⟩ :=
      LeastRemoval.cons (Conses.arms m rest) Step.arm_zero_ne_next
        m.piece?_cons m.inside_nil hinner htail (dead m.start || (m.sweep dead).2.1)
        (fun R h₁ _ => by
          have hset : {c | [.arm 0] ++ c ∈ R} = {c | g₁ c} := Set.ext h₁
          rw [demanded_iff_dies (p := .arm m) (by simp) (fun n h => by cases h), hset,
            Bool.or_eq_true, hlost]
          rfl)
    refine ⟨gone, hleast, ?_⟩
    simp only [NodeKind.eraseArms, hzero, hnext, NodeKind.sweepArms]
    cases hdead : dead m.start with
    | true => simp [hrest]
    | false =>
      cases hemptied : (m.sweep dead).2.1 with
      | true => simp [hrest]
      | false => simp [hrest, hm, hkept (by simp [hdead, hemptied])]

/-- Sweeping an arm erases the least set of the pieces in it, and it tells whether the arm has lost
all it had. -/
theorem Arm.sweep_eq_erase (dead : Position → Bool) :
    ∀ m : Arm, m.isFresh →
      ∃ gone, LeastRemoval dead m.inside gone ∧
        ((m.sweep dead).2.1 ↔ ∃ body, m.body? = some body ∧ body.LostAll {c | gone c}) ∧
        (m.sweep dead).1 = m.erase gone
  | .flat _ _ _, _ =>
    ⟨_, LeastRemoval.empty fun _ => rfl,
      iff_of_false Bool.false_ne_true fun ⟨_, h, _⟩ => absurd h (Option.some_ne_none _).symm, rfl⟩
  | .block start hole idents body, fresh => by
    obtain ⟨gone, hleast, hswept⟩ := Body.sweep_eq_erase dead body fresh
    refine ⟨gone, hleast, ?_, by simp only [Arm.sweep, Arm.erase, hswept]⟩
    simp only [Arm.sweep, Arm.body?, Option.some.injEq, exists_eq_left', hswept,
      Body.isEmptied_erase fresh]

end

end CoverageReplay
