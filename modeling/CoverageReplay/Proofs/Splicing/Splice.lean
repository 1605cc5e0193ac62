import CoverageReplay.Proofs.Splicing.Characters

/-!
# Copying around holes

`splice?` goes through the source once, hole by hole. `splice?_eq` says what comes out: the
characters that no hole takes, in their order, however the holes overlap and in whatever order they
were cut.
-/

namespace CoverageReplay

/-- The characters of a text, the first at byte `cursor`, that begin at bytes to keep. -/
def select (keep : Nat → Bool) (cursor : Nat) : List Char → List Char
  | [] => []
  | c :: cs =>
    if keep cursor then c :: select keep (cursor + c.utf8Size) cs
    else select keep (cursor + c.utf8Size) cs

section Select

variable {keep keep' : Nat → Bool} {cursor : Nat} {cs front back : List Char}

@[simp] theorem byteSize_nil : byteSize [] = 0 := rfl

@[simp] theorem byteSize_cons (c : Char) (cs : List Char) :
    byteSize (c :: cs) = c.utf8Size + byteSize cs := by
  simp [byteSize, total]

/-- A text has the bytes of its two parts. -/
theorem byteSize_append (front back : List Char) :
    byteSize (front ++ back) = byteSize front + byteSize back := by
  induction front with
  | nil => simp
  | cons c front ih => rw [List.cons_append, byteSize_cons, byteSize_cons, ih, Nat.add_assoc]

/-- A reversed text has as many bytes. -/
theorem byteSize_reverse (cs : List Char) : byteSize cs.reverse = byteSize cs := by
  induction cs with
  | nil => rfl
  | cons c cs ih =>
    rw [List.reverse_cons, byteSize_append, ih, byteSize_cons, byteSize_cons, byteSize_nil]
    omega

/-- From two parts is kept what is kept from each. -/
theorem select_append :
    select keep cursor (front ++ back) =
      select keep cursor front ++ select keep (cursor + byteSize front) back := by
  induction front generalizing cursor with
  | nil => rfl
  | cons c front ih =>
    rw [List.cons_append, select, select, ih, byteSize_cons, Nat.add_assoc]
    split
    next => rfl
    next => rfl

/-- Only what is asked of the bytes of the text matters. -/
theorem select_congr
    (h : ∀ k, cursor ≤ k → k < cursor + byteSize cs → keep k = keep' k) :
    select keep cursor cs = select keep' cursor cs := by
  induction cs generalizing cursor with
  | nil => rfl
  | cons c cs ih =>
    rw [byteSize_cons] at h
    have hpos := c.utf8Size_pos
    rw [select, select, h cursor (Nat.le_refl _) (by omega),
      ih fun k hle hlt => h k (by omega) (by omega)]

/-- All may be kept. -/
theorem select_true : select (fun _ => true) cursor cs = cs := by
  induction cs generalizing cursor with
  | nil => rfl
  | cons c cs ih => rw [select, if_pos rfl, ih]

/-- Nothing may be kept. -/
theorem select_false : select (fun _ => false) cursor cs = [] := by
  induction cs generalizing cursor with
  | nil => rfl
  | cons c cs ih => rw [select, if_neg Bool.false_ne_true, ih]

end Select

/-! ## One hole after the other -/

section Copy

variable {cs front back : List Char} {n : Nat}

/-- Splitting a text at a boundary gives its two parts there. -/
theorem splitBytes_spec (boundary : isBoundary cs n) :
    (splitBytes cs n).1 ++ (splitBytes cs n).2 = cs ∧ byteSize (splitBytes cs n).1 = n := by
  induction cs generalizing n with
  | nil =>
    cases n with
    | zero => exact ⟨rfl, rfl⟩
    | succ n => cases boundary
  | cons c cs ih =>
    rw [splitBytes]
    by_cases hzero : n = 0
    · rw [if_pos hzero, hzero]
      exact ⟨rfl, rfl⟩
    · rw [isBoundary_cons hzero, Bool.and_eq_true, decide_eq_true_eq] at boundary
      obtain ⟨happend, hsize⟩ := ih boundary.2
      rw [if_neg hzero]
      refine ⟨by simp [happend], ?_⟩
      rw [byteSize_cons, hsize]
      omega

/-- A boundary behind the first part of a text is one of the rest. -/
theorem isBoundary_append (boundary : isBoundary (front ++ back) n) :
    isBoundary back (n - byteSize front) := by
  induction front generalizing n with
  | nil => exact boundary
  | cons c front ih =>
    by_cases hzero : n = 0
    · rw [hzero, Nat.zero_sub]
      exact isBoundary_zero _
    · rw [List.cons_append, isBoundary_cons hzero, Bool.and_eq_true] at boundary
      rw [byteSize_cons, ← Nat.sub_sub]
      exact ih boundary.2

/-- A boundary after two parts of a text, as seen from the third. -/
theorem isBoundary_back {cursor : Nat} {middle : List Char}
    (boundary : isBoundary (front ++ (middle ++ back)) (n - cursor)) :
    isBoundary back (n - (cursor + byteSize front + byteSize middle)) := by
  have hback := isBoundary_append (isBoundary_append boundary)
  rwa [Nat.sub_sub, Nat.sub_sub, ← Nat.add_assoc] at hback

/-- Copying around a hole copies what is before it and goes on after it. -/
theorem copyAround_cons {h : Hole} {cursor : Nat} (first : isBoundary cs (h.start - cursor))
    (last : isBoundary cs (h.stop - cursor)) (rest : List Hole) :
    ∃ front middle back, cs = front ++ (middle ++ back) ∧
      max cursor h.start = cursor + byteSize front ∧
      max (cursor + byteSize front) h.stop = cursor + byteSize front + byteSize middle ∧
      copyAround cursor cs (h :: rest) =
        front ++ copyAround (cursor + byteSize front + byteSize middle) back rest := by
  obtain ⟨hfront, hfrontSize⟩ := splitBytes_spec first
  rw [copyAround]
  generalize splitBytes cs (h.start - cursor) = parts at hfront hfrontSize ⊢
  obtain ⟨front, after⟩ := parts
  simp only at hfront hfrontSize ⊢
  subst hfront
  have hstart : max cursor h.start = cursor + byteSize front := by omega
  rw [hstart]
  have hlast : isBoundary after (h.stop - (cursor + byteSize front)) := by
    have hboundary := isBoundary_append last
    rwa [Nat.sub_sub] at hboundary
  obtain ⟨hmiddle, hmiddleSize⟩ := splitBytes_spec hlast
  generalize splitBytes after (h.stop - (cursor + byteSize front)) = parts at hmiddle hmiddleSize ⊢
  obtain ⟨middle, back⟩ := parts
  simp only at hmiddle hmiddleSize ⊢
  subst hmiddle
  have hstop : max (cursor + byteSize front) h.stop =
      cursor + byteSize front + byteSize middle := by
    omega
  refine ⟨front, middle, back, rfl, rfl, hstop, ?_⟩
  rw [hstop]

/-- Copying keeps what no hole takes. The text begins at byte `cursor`, all before it being done
with. -/
theorem copyAround_eq {holes : List Hole} (sorted : holes.Pairwise fun a b => a.start ≤ b.start)
    (cursor : Nat) (cs : List Char)
    (fits : ∀ h ∈ holes, isBoundary cs (h.start - cursor) ∧ isBoundary cs (h.stop - cursor)) :
    copyAround cursor cs holes = select (fun k => !holes.any (·.covers k)) cursor cs := by
  induction holes generalizing cursor cs with
  | nil => exact select_true.symm
  | cons h rest ih =>
    rw [List.pairwise_cons] at sorted
    obtain ⟨hfirst, hrest⟩ := List.forall_mem_cons.mp fits
    obtain ⟨front, middle, back, rfl, hstart, hstop, hcopy⟩ :=
      copyAround_cons hfirst.1 hfirst.2 rest
    have hback := ih sorted.2 (cursor + byteSize front + byteSize middle) back fun x hx =>
      ⟨isBoundary_back (hrest x hx).1, isBoundary_back (hrest x hx).2⟩
    -- Before the hole all is kept, since the later holes begin after this one does.
    have hkept : select (fun k => !(h :: rest).any (·.covers k)) cursor front = front := by
      refine (select_congr fun k _ hlt => ?_).trans select_true
      have hnot : h.covers k = false := Hole.covers_eq_false (by omega)
      have hnone : rest.any (·.covers k) = false := by
        refine List.any_eq_false.mpr fun x hx => ?_
        have hle := sorted.1 x hx
        rw [Hole.covers_eq_false (Or.inl (by omega))]
        exact Bool.false_ne_true
      simp [hnot, hnone]
    have hlost : select (fun k => !(h :: rest).any (·.covers k)) (cursor + byteSize front) middle =
        [] := by
      refine (select_congr fun k hle hlt => ?_).trans select_false
      have hcovers : h.covers k := Hole.covers_iff.mpr (by omega)
      simp [hcovers]
    rw [hcopy, hback, select_append, select_append, hkept, hlost, List.nil_append]
    -- After the hole only the other holes matter.
    refine congrArg (front ++ ·) (select_congr fun k hle _ => ?_)
    have hnot : h.covers k = false := Hole.covers_eq_false (by omega)
    simp [hnot]

end Copy

theorem Hole.before_iff {a b : Hole} :
    a.before b ↔ a.start < b.start ∨ a.start = b.start ∧ a.stop ≤ b.stop := by
  simp [before]

/-- Sorted holes are in order. -/
theorem pairwise_before_mergeSort (holes : List Hole) :
    (holes.mergeSort Hole.before).Pairwise fun a b => a.before b := by
  have htrans : ∀ a b c : Hole, a.before b → b.before c → a.before c := by
    intro a b c hab hbc
    rw [Hole.before_iff] at hab hbc ⊢
    omega
  have htotal : ∀ a b : Hole, a.before b || b.before a := by
    intro a b
    rw [Bool.or_eq_true, Hole.before_iff, Hole.before_iff]
    omega
  exact List.pairwise_mergeSort htrans htotal holes

/-- Sorted holes come in the order of their starts. -/
theorem pairwise_mergeSort_before (holes : List Hole) :
    (holes.mergeSort Hole.before).Pairwise fun a b => a.start ≤ b.start := by
  refine (pairwise_before_mergeSort holes).imp fun {a b} hab => ?_
  rw [Hole.before_iff] at hab
  omega

/-- What is spliced are the characters that no hole takes. -/
theorem SourceTree.splice?_eq {t : SourceTree} (fits : ∀ h ∈ t.holes, h.fits t.source.toList) :
    t.splice? = .ok (String.ofList
      (select (fun k => !t.holes.any (·.covers k)) 0 t.source.toList)) := by
  have hperm := List.mergeSort_perm t.holes Hole.before
  have hfind : (t.holes.mergeSort Hole.before).find? (fun h => !h.fits t.source.toList) = none := by
    refine List.find?_eq_none.mpr fun h hh => ?_
    simp [fits h (hperm.mem_iff.mp hh)]
  have hcopy := copyAround_eq (pairwise_mergeSort_before t.holes) 0 t.source.toList fun h hh => by
    have hfits := Hole.fits_iff.mp (fits h (hperm.mem_iff.mp hh))
    exact hfits.2
  rw [splice?, hfind]
  simp only [hcopy]
  congr 2
  exact select_congr fun k _ _ => by rw [hperm.any_eq]

end CoverageReplay
