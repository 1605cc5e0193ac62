import CoverageReplay.Files.Path
import Mathlib.Data.String.Basic
import Mathlib.Data.List.Infix

/-!
# Parts of joined paths

A relative path seen from a directory has the parts of the directory followed by its own
(`parts_join`) and counts from where the directory counts (`isAbsolute_join`). Each part is a name,
without a slash in it (`isName_of_mem_parts`), and names that are joined by slashes are the parts of
the path again (`parts_ofParts`).
-/

namespace CoverageReplay.Path

variable {base path name : String} {cs rest piece : List Char}

/-! ## Pieces -/

/-- The pieces of a text with a slash are those before it and those behind it. -/
theorem splitFrom_append_slash (piece cs rest : List Char) :
    splitFrom piece (cs ++ '/' :: rest) = splitFrom piece cs ++ splitFrom [] rest := by
  induction cs generalizing piece with
  | nil => simp [splitFrom]
  | cons c cs ih =>
    simp only [List.cons_append, splitFrom]
    split
    next => rw [ih, List.cons_append]
    next => exact ih _

/-- A text without a slash is one piece. -/
theorem splitFrom_of_notMem (h : '/' ∉ cs) : splitFrom piece cs = [piece.reverse ++ cs] := by
  induction cs generalizing piece with
  | nil => rw [splitFrom, List.append_nil]
  | cons c cs ih =>
    rw [List.mem_cons, not_or] at h
    rw [splitFrom, if_neg (Ne.symm h.1), ih h.2]
    simp

/-- No piece holds a slash. -/
theorem slash_notMem_of_splitFrom {found : List Char} (clear : '/' ∉ piece)
    (h : found ∈ splitFrom piece cs) :
    '/' ∉ found := by
  induction cs generalizing piece with
  | nil =>
    rw [splitFrom, List.mem_singleton] at h
    rw [h, List.mem_reverse]
    exact clear
  | cons c cs ih =>
    rw [splitFrom] at h
    split at h
    next =>
      rcases List.mem_cons.mp h with rfl | hrest
      · rw [List.mem_reverse]
        exact clear
      · exact ih List.not_mem_nil hrest
    next hslash =>
      refine ih ?_ h
      rw [List.mem_cons, not_or]
      exact ⟨Ne.symm hslash, clear⟩

/-- Two paths with a slash between them have the pieces of both. -/
theorem pieces_append_slash (first second : String) :
    pieces (first ++ "/" ++ second) = pieces first ++ pieces second := by
  unfold pieces
  rw [String.toList_append, String.toList_append, List.append_assoc]
  show (splitFrom [] (first.toList ++ '/' :: second.toList)).map String.ofList = _
  rw [splitFrom_append_slash, List.map_append]

theorem pieces_of_notMem (h : '/' ∉ name.toList) : pieces name = [name] := by
  rw [pieces, splitFrom_of_notMem h]
  simp

/-! ## Parts -/

/-- Whether a text is a single name: it names something, and no slash divides it. -/
structure IsName (name : String) : Prop where
  names : names name
  whole : '/' ∉ name.toList

/-- The parts of a path are names. -/
theorem isName_of_mem_parts (h : name ∈ parts path) : IsName name := by
  obtain ⟨hpiece, hnames⟩ := List.mem_filter.mp h
  obtain ⟨chars, hchars, rfl⟩ := List.mem_map.mp hpiece
  refine ⟨hnames, ?_⟩
  rw [String.toList_ofList]
  exact slash_notMem_of_splitFrom List.not_mem_nil hchars

theorem IsName.parts (h : IsName name) : parts name = [name] := by
  rw [Path.parts, pieces_of_notMem h.whole, List.filter_cons_of_pos h.names, List.filter_nil]

theorem parts_append_slash (first second : String) :
    parts (first ++ "/" ++ second) = parts first ++ parts second := by
  rw [parts, pieces_append_slash, List.filter_append, parts, parts]

@[simp] theorem parts_empty : parts "" = [] := rfl

/-- A relative path seen from a directory stands behind a slash that follows the parts of the
directory, unless the directory is the one that relative paths count from. -/
theorem join_cases (base : String) (relative : isAbsolute path = false) :
    (base = "" ∧ join base path = path) ∨
      ∃ front, parts front = parts base ∧ join base path = front ++ "/" ++ path := by
  unfold join
  rw [relative, if_neg Bool.false_ne_true]
  split
  next hplain =>
    simp only [Bool.or_eq_true, decide_eq_true_eq] at hplain
    rcases hplain with rfl | hslash
    · exact .inl ⟨rfl, String.empty_append⟩
    · -- The slash at the end of the directory is the one that divides both.
      obtain ⟨front, hfront⟩ := List.getLast?_eq_some_iff.mp hslash
      have hbase : base = String.ofList front ++ "/" := by
        rw [← String.toList_inj, hfront, String.toList_append, String.toList_ofList]
        rfl
      have hparts := parts_append_slash (String.ofList front) ""
      rw [String.append_empty, parts_empty, List.append_nil, ← hbase] at hparts
      exact .inr ⟨String.ofList front, hparts.symm, by rw [hbase]⟩
  next => exact .inr ⟨base, rfl, rfl⟩

/-- A relative path seen from a directory goes on from the parts of the directory. -/
theorem parts_join (relative : isAbsolute path = false) :
    parts (join base path) = parts base ++ parts path := by
  rcases join_cases base relative with ⟨rfl, hjoin⟩ | ⟨front, hparts, hjoin⟩
  · rw [hjoin, parts_empty, List.nil_append]
  · rw [hjoin, parts_append_slash, hparts]

/-- A name seen from a directory can be that of a file. -/
theorem namesDirectory_join (relative : isAbsolute name = false) (h : IsName name) :
    namesDirectory (join base name) = false := by
  have hlast : (pieces (join base name)).getLast? = some name := by
    rcases join_cases base relative with ⟨_, hjoin⟩ | ⟨front, _, hjoin⟩
    · rw [hjoin, pieces_of_notMem h.whole, List.getLast?_singleton]
    · rw [hjoin, pieces_append_slash, pieces_of_notMem h.whole, List.getLast?_concat]
  rw [namesDirectory, hlast, Option.any_some, h.names]
  rfl

/-- A path that names something below another one is not empty. -/
theorem join_ne_empty (relative : isAbsolute path = false) (h : parts path ≠ []) :
    join base path ≠ "" := by
  intro hempty
  have hparts : parts (join base path) = parts base ++ parts path := parts_join relative
  rw [hempty, parts_empty, eq_comm, List.append_eq_nil_iff] at hparts
  exact h hparts.2

/-- The characters of a directory are among those of a path seen from it. -/
theorem mem_join {c : Char} (relative : isAbsolute path = false) (h : c ∈ base.toList) :
    c ∈ (join base path).toList := by
  unfold join
  rw [relative, if_neg Bool.false_ne_true]
  split
  next =>
    rw [String.toList_append]
    exact List.mem_append_left _ h
  next =>
    rw [String.append_assoc, String.toList_append]
    exact List.mem_append_left _ h

/-- A joined path has no characters but those of its two paths and slashes. -/
theorem of_mem_join {c : Char} (h : c ∈ (join base path).toList) :
    c ∈ base.toList ∨ c = '/' ∨ c ∈ path.toList := by
  unfold join at h
  split at h
  next => exact .inr (.inr h)
  next =>
    split at h
    next =>
      rw [String.toList_append, List.mem_append] at h
      exact h.imp_right .inr
    next =>
      have hslash : "/".toList = ['/'] := rfl
      rwa [String.toList_append, String.toList_append, List.mem_append, List.mem_append, hslash,
        List.mem_singleton, or_assoc] at h

@[simp] theorem ofParts_singleton (name : String) : ofParts [name] = name := by
  rw [← String.toList_inj, ofParts, String.toList_intercalate]
  simp

/-- Names are joined by single slashes. -/
theorem ofParts_cons_cons (name second : String) (names : List String) :
    ofParts (name :: second :: names) = name ++ "/" ++ ofParts (second :: names) := by
  rw [← String.toList_inj]
  simp [ofParts, String.toList_intercalate]

/-- Names joined by slashes are the parts of the path. -/
theorem parts_ofParts {names : List String} (h : ∀ name ∈ names, IsName name) :
    parts (ofParts names) = names := by
  induction names with
  | nil => rfl
  | cons name names ih =>
    have hname := h name List.mem_cons_self
    have hnames := ih fun other hother => h other (List.mem_cons_of_mem name hother)
    cases names with
    | nil => rw [ofParts_singleton, hname.parts]
    | cons second names =>
      rw [ofParts_cons_cons, parts_append_slash, hname.parts, hnames, List.singleton_append]

/-! ## Where paths count from -/

/-- What follows a path does not matter for whether it counts from the root. -/
theorem isAbsolute_append (h : base ≠ "") : isAbsolute (base ++ path) = isAbsolute base := by
  unfold isAbsolute
  rw [String.toList_append]
  have hne : base.toList ≠ [] := fun hnil => h (String.toList_inj.mp hnil)
  rw [List.head?_append_of_ne_nil _ hne]

/-- A relative path seen from a directory counts from where the directory counts. -/
theorem isAbsolute_join (relative : isAbsolute path = false) :
    isAbsolute (join base path) = isAbsolute base := by
  by_cases hempty : base = ""
  · subst hempty
    rw [join, relative, if_neg Bool.false_ne_true, if_pos (by simp), String.empty_append, relative]
    rfl
  · unfold join
    rw [relative, if_neg Bool.false_ne_true]
    split
    next => exact isAbsolute_append hempty
    next => rw [String.append_assoc]; exact isAbsolute_append hempty

/-- A path that begins with a name is relative. -/
theorem IsName.isAbsolute_append (h : IsName name) (path : String) :
    isAbsolute (name ++ path) = false := by
  have hne : name ≠ "" := by
    intro hempty
    have hnames := h.names
    rw [hempty] at hnames
    cases hnames
  rw [Path.isAbsolute_append hne, isAbsolute, decide_eq_false_iff_not]
  exact fun hslash => h.whole (List.mem_of_head? hslash)

/-- Joined names make a relative path. -/
theorem isAbsolute_ofParts {names : List String} (h : ∀ name ∈ names, IsName name) :
    isAbsolute (ofParts names) = false := by
  match names with
  | [] => rfl
  | [name] =>
    rw [ofParts_singleton, ← String.append_empty (s := name)]
    exact (h name List.mem_cons_self).isAbsolute_append ""
  | name :: second :: names =>
    rw [ofParts_cons_cons, String.append_assoc]
    exact (h name List.mem_cons_self).isAbsolute_append _

end CoverageReplay.Path
