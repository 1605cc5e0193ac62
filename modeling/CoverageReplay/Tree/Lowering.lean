import CoverageReplay.Error
import CoverageReplay.Rust.SourceFile
import CoverageReplay.Tree.Identifiers
import CoverageReplay.Tree.LineHole
import CoverageReplay.Tree.LineIndex

/-!
# From source text to trees

`SourceTree.parse?` outlines a source text and turns the outline of each function body into a
`Body`: places become positions with columns from one, tokens become identifiers, spans become
holes.

A literal mentions the names that follow an opening brace in it, since it may be a format string.
-/

namespace CoverageReplay

open Rust

/-! ## Identifiers of tokens -/

/-- Whether a character may begin a captured name. -/
def startsCapture (c : Char) : Bool :=
  c.isAlpha || c = '_'

/-- The names after the opening braces of a text. -/
def captures : List Char → List String
  | [] => []
  | c :: cs =>
    let name := cs.takeWhile fun d => d.isAlphanum || d = '_'
    if c = '\x7b' && name.head?.any startsCapture then String.ofList name :: captures cs
    else captures cs

mutual

/-- The identifiers of a token. -/
def Rust.TokenTree.identifiers : TokenTree → List String
  | .ident name _ => [name]
  | .punct _ _ _ => []
  | .literal text _ => captures text.toList
  | .group _ _ content _ => tokenIdentifiers content

/-- The identifiers of some tokens. -/
def tokenIdentifiers : List TokenTree → List String
  | [] => []
  | t :: rest => t.identifiers ++ tokenIdentifiers rest

end

/-! ## Places -/

/-- A source text as lowering looks at it. The places of the outline are counted in the text after
the first `skipped` bytes. -/
structure Layout where
  bytes : Array UInt8
  skipped : Nat
  index : LineIndex

namespace Layout

/-- The byte at a place. -/
def byte (l : Layout) (p : Place) : Nat :=
  l.skipped + l.index.offset p.line p.column

/-- The bytes between two places. -/
def bytesOf (l : Layout) (s : Span) : Hole :=
  ⟨l.byte s.start, l.byte s.stop⟩

/-- The bytes between two places, widened to whole lines. -/
def holeOf (l : Layout) (s : Span) : Hole :=
  lineHole l.bytes (l.bytesOf s)

end Layout

/-- A number as a line or column; the largest one stands for all that do not fit. -/
def word32 (n : Nat) : UInt32 :=
  UInt32.ofNat (min n 4294967295)

/-- A place as a position, whose columns are counted from one. -/
def Position.ofPlace (p : Place) : Position :=
  ⟨word32 p.line, word32 (p.column + 1)⟩

/-! ## Lowering -/

/-- Marks each `let` of a single identifier that a later statement mentions. -/
def markUsed : List Node → List Node
  | [] => []
  | .mk start hole idents (.binding (some name) _) :: rest =>
    .mk start hole idents (.binding (some name) (Body.nodesMention name rest)) :: markUsed rest
  | n :: rest => n :: markUsed rest

mutual

/-- The body of a block. -/
def lowerBlock (l : Layout) : CodeBlock → Body
  | .mk opening closing statements =>
    .mk (Position.ofPlace opening.start) (l.byte closing.stop)
      (markUsed (lowerStatements l statements)) false

/-- The nodes of some statements. -/
def lowerStatements (l : Layout) : List Statement → List Node
  | [] => []
  | s :: rest => lowerStatement l s :: lowerStatements l rest

/-- The node of a statement. -/
def lowerStatement (l : Layout) : Statement → Node
  | .binding tokens keyword name value =>
    .mk (Position.ofPlace keyword) (l.holeOf (spanOf tokens)) (tokenIdentifiers value)
      (.binding name false)
  | .expression tokens form =>
    let (idents, kind) := lowerForm l tokens form
    .mk (Position.ofPlace (spanOf tokens).start) (l.holeOf (spanOf tokens)) idents kind
  | .other tokens =>
    .mk (Position.ofPlace (spanOf tokens).start) (l.holeOf (spanOf tokens))
      (tokenIdentifiers tokens) .leaf

/-- The identifiers and the kind of an expression with the given tokens. -/
def lowerForm (l : Layout) (own : List TokenTree) : Form → List String × NodeKind
  | .ifThen condition yes none =>
    (tokenIdentifiers condition, .branch (lowerBlock l yes) .absent false)
  | .ifThen condition yes (some no) =>
    let yes := lowerBlock l yes
    (tokenIdentifiers condition, .branch yes (lowerElse l yes.closeEnd no) false)
  | .forLoop head body => (tokenIdentifiers head, .loop (lowerBlock l body) true)
  | .whileLoop condition body => (tokenIdentifiers condition, .loop (lowerBlock l body) true)
  | .loop body => ([], .loop (lowerBlock l body) false)
  | .block labelled body => ([], .block (lowerBlock l body) (!labelled))
  | .unsafeBlock body => ([], .block (lowerBlock l body) true)
  | .matchOn scrutinee arms => (tokenIdentifiers scrutinee, .select (lowerArms l arms) false)
  | .flat _ => (tokenIdentifiers own, .leaf)

/-- The `else` branch after a block that ends at byte `start`. -/
def lowerElse (l : Layout) (start : Nat) : Expression → Otherwise
  | .mk tokens (.block _ body) => .block ⟨start, l.byte (spanOf tokens).stop⟩ (lowerBlock l body)
  | .mk tokens form =>
    let (idents, kind) := lowerForm l tokens form
    .chain ⟨start, l.byte (spanOf tokens).stop⟩
      (.mk (Position.ofPlace (spanOf tokens).start) (l.bytesOf (spanOf tokens)) idents kind)

/-- The arms of a `match`. -/
def lowerArms (l : Layout) : List MatchArm → List Arm
  | [] => []
  | a :: rest => lowerArm l a :: lowerArms l rest

/-- An arm of a `match`. -/
def lowerArm (l : Layout) : MatchArm → Arm
  | .mk tokens head (.mk own (.block false body)) =>
    .block (Position.ofPlace (spanOf own).start) (l.holeOf (spanOf tokens)) (tokenIdentifiers head)
      (lowerBlock l body)
  | .mk tokens head (.mk own _) =>
    .flat (Position.ofPlace (spanOf own).start) (l.holeOf (spanOf tokens))
      (tokenIdentifiers head ++ tokenIdentifiers own)

end

namespace SourceTree

/-- What is wrong with a text that is not Rust. -/
def syntaxFault (p : Place) : String :=
  "syntax error at " ++ toString p.line ++ ":" ++ toString (p.column + 1)

/-- The tree of a source text. A byte-order mark at the front of the text is not part of it for the
parser, but keeps its bytes. -/
def parse? (path source : String) : Except ReplayError SourceTree :=
  let cs := source.toList
  let text := dropMark cs
  match bodies? (String.ofList text) with
  | .error place => .error (.parse path (syntaxFault place))
  | .ok blocks =>
    let l : Layout :=
      { bytes := source.toUTF8.data
        skipped := byteSize cs - byteSize text
        index := .ofText text }
    .ok ⟨path, source, blocks.map (lowerBlock l), []⟩

end SourceTree

end CoverageReplay
