import CoverageReplay.Command.Option
import CoverageReplay.SortedMap

/-!
# Reading the words of a command line

A word with two hyphens names an option and may hold its value after an equals sign. A word with one
hyphen holds the letters of options; the first of them that takes a value takes the rest of the
word. Other words are values of the option before them, or name the command. Nothing may follow two
hyphens on their own.

Values that are words of their own are kept as `pending` and looked at when the next option begins
or the reading ends, so that a fault in them can be told after one that stands behind them.
-/

namespace CoverageReplay

/-- What has been read on one side of the name of the command. -/
structure Given where
  /-- The command, after its name. -/
  scope : Option CommandName
  /-- The values of options by name. -/
  values : SortedMap String (List String)
  /-- The option whose values may follow, with those that have followed. -/
  pending : Option (CommandOption × List String)
  /-- Whether the next word may be a value. -/
  takesMore : Bool
  deriving Inhabited

namespace Given

/-- Nothing read yet. -/
def start (scope : Option CommandName) : Given := ⟨scope, .empty, none, false⟩

/-! ## Options with their values -/

/-- Refuses values that an option may not have. -/
def checkAll (name : String) (kind : ValueKind) (values : List String) : Except UsageError Unit :=
  values.forM fun value => kind.check name value

/-- Takes note of an option with its values. -/
def note (g : Given) (o : CommandOption) (values : List String) : Except UsageError Given :=
  let add := { g with values := g.values.alter o.name fun before => before.getD [] ++ values }
  let once := if g.values.contains o.name then .error (.repeated o.name) else .ok ()
  match o.use with
  | .help => .error (.help g.scope)
  | .version => .error (.version g.scope)
  | .tally => .ok { g with values := g.values.alter o.name fun before => "" :: before.getD [] }
  | .mark => do
    once
    return add
  | .single kind => do
    if values.isEmpty then .error (.missingValue o.name)
    once
    checkAll o.name kind values
    return add
  | .many kind => do
    if values.isEmpty then .error (.missingValue o.name)
    checkAll o.name kind values
    return add

/-- Takes note of the pending option. -/
def settle (g : Given) : Except UsageError Given :=
  match g.pending with
  | none => .ok g
  | some (o, values) => { g with pending := none, takesMore := false }.note o values

/-- Takes note of an option with its values, after the pending one. -/
def apply (g : Given) (o : CommandOption) (values : List String) : Except UsageError Given := do
  (← g.settle).note o values

/-- Begins an option whose values follow. -/
def expect (g : Given) (o : CommandOption) : Except UsageError Given := do
  return { ← g.settle with pending := some (o, []), takesMore := true }

/-! ## Words -/

/-- What stands before the first equals sign of a text, and after it if there is one. -/
def splitValue : List Char → List Char × Option (List Char)
  | [] => ([], none)
  | c :: cs =>
    if c = '=' then ([], some cs)
    else
      let (name, value) := splitValue cs
      (c :: name, value)

/-- Reads a word after its two hyphens. -/
def longWord (g : Given) (body : List Char) : Except UsageError Given :=
  let (name, value?) := splitValue body
  match (CommandOption.after g.scope).find? fun o => o.name = String.ofList name with
  | none => .error (.unknownWord (String.ofList ('-' :: '-' :: name)))
  | some o =>
    match o.use.takesValues, value? with
    | true, none => g.expect o
    | true, some value => g.apply o [String.ofList value]
    | false, none => g.apply o []
    | false, some _ => .error (.extraValue o.name)

/-- Reads the letters of a word after its hyphen. -/
def letters (g : Given) : List Char → Except UsageError Given
  | [] => .ok g
  | c :: rest =>
    match (CommandOption.after g.scope).find? fun o => o.letter = some c with
    | none => .error (.unknownWord (String.ofList ['-', c]))
    | some o =>
      if o.use.takesValues then
        match rest with
        | [] => g.expect o
        | '=' :: value => g.apply o [String.ofList value]
        | value => g.apply o [String.ofList value]
      else do
        letters (← g.apply o []) rest

/-- Reads a word that is no option: a value of the pending one. -/
def plainWord (g : Given) (word : String) : Except UsageError Given :=
  match g.takesMore, g.pending, g.scope with
  | true, some (o, values), _ =>
    let more := match o.use with
      | .many _ => true
      | _ => false
    .ok { g with pending := some (o, values ++ [word]), takesMore := more }
  | _, _, none => .error (.unknownCommand word)
  | _, _, some _ => .error (.unknownWord word)

/-- Reads a word. -/
def word (g : Given) (w : String) : Except UsageError Given :=
  match w.toList with
  | '-' :: '-' :: body => g.longWord body
  | '-' :: c :: rest => g.letters (c :: rest)
  | _ => g.plainWord w

/-- The error for a word after two hyphens on their own. -/
def afterHyphens (g : Given) (w : String) : UsageError :=
  if g.scope.isNone && !(w = "help" || (CommandName.ofText? w).isSome) then .unknownCommand w
  else .unknownWord w

/-- What the words after `help` ask for. -/
def helpOn : List String → UsageError
  | [] => .help none
  | w :: rest =>
    match CommandName.ofText? w, rest with
    | some name, [] => .help (some name)
    | some _, other :: _ => .unknownCommand other
    | none, rest =>
      if w = "help" then
        match rest with
        | [] => .help none
        | other :: _ => .unknownCommand other
      else .unknownCommand w

/-- Reads words up to the name of a command, or all of them. -/
def words (g : Given) : List String → Except UsageError (Given × Option (CommandName × List String))
  | [] => .ok (g, none)
  | w :: rest =>
    let mayName := g.scope.isNone && !g.takesMore
    if mayName && w = "help" then .error (helpOn rest)
    else
      match if mayName then CommandName.ofText? w else none with
      | some name => .ok (g, some (name, rest))
      | none =>
        if w = "--" then
          match rest with
          | [] => .ok (g, none)
          | next :: _ => .error (g.afterHyphens next)
        else do
          words (← g.word w) rest

end Given

end CoverageReplay
