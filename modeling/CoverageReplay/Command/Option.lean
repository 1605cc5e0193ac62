import CoverageReplay.Command.UsageError
import CoverageReplay.Text.Number

/-!
# The options of commands

Each option has a long name, most have a letter. Some options stand before or after the name of a
command; the others belong to commands.
-/

namespace CoverageReplay

/-- What a value of an option may be. -/
inductive ValueKind where
  | text
  /-- A text that is not empty. -/
  | path
  /-- A number of 64 bits. -/
  | count
  /-- One of some words. -/
  | oneOf (words : List String)
  deriving DecidableEq, Repr, Inhabited

/-- What an option means. -/
inductive OptionUse where
  /-- Is given or not. -/
  | mark
  /-- Counts how often it is given. -/
  | tally
  /-- Has one value. -/
  | single (kind : ValueKind)
  /-- Has one value or more each time it is given. -/
  | many (kind : ValueKind)
  | help
  | version
  deriving DecidableEq, Repr, Inhabited

/-- An option. -/
structure CommandOption where
  name : String
  letter : Option Char
  use : OptionUse
  deriving DecidableEq, Repr, Inhabited

/-- The most that a number of 64 bits can be. -/
def greatestCount : Nat := 18446744073709551615

/-- Refuses a value that an option may not have. -/
def ValueKind.check (name value : String) : ValueKind → Except UsageError Unit
  | .text => .ok ()
  | .path => if value = "" then .error (.missingValue name) else .ok ()
  | .count =>
    if (Text.number? greatestCount value.toList).isSome then
      .ok () else .error (.notNumber name value)
  | .oneOf words => if words.contains value then .ok () else .error (.badValue name value)

/-- Whether values of an option stand as words of their own. -/
def OptionUse.takesValues : OptionUse → Bool
  | single _ | many _ => true
  | _ => false

/-! ## Outputs and colors -/

/-- How a command shows its result. -/
inductive OutputFormat where
  | text
  | json
  deriving DecidableEq, Repr, Inhabited

/-- When messages begin with symbols instead of words. -/
inductive ColorChoice where
  /-- On a terminal. -/
  | auto
  | always
  | never
  deriving DecidableEq, Repr, Inhabited

/-- The formats by name. -/
def OutputFormat.names : List (String × OutputFormat) := [("text", .text), ("json", .json)]

/-- The choices by name. -/
def ColorChoice.names : List (String × ColorChoice) :=
  [("auto", .auto), ("always", .always), ("never", .never)]

/-! ## All options -/

namespace CommandOption

/-- The options that any command line may hold, before and after the name of its command. -/
def general : List CommandOption :=
  [⟨"verbose", some 'v', .tally⟩, ⟨"quiet", some 'q', .mark⟩,
    ⟨"color", none, .single (.oneOf (ColorChoice.names.map Prod.fst))⟩,
    ⟨"config", none, .single .path⟩, ⟨"log-json", none, .mark⟩,
    ⟨"help", some 'h', .help⟩, ⟨"version", some 'V', .version⟩]

/-- The options that say which tests are meant and in which order. -/
def ofTests : List CommandOption :=
  [⟨"profiles", none, .single .path⟩, ⟨"package", some 'p', .single .text⟩,
    ⟨"test", some 't', .many .text⟩, ⟨"sort", some 's', .single .text⟩,
    ⟨"format", some 'f', .single (.oneOf (OutputFormat.names.map Prod.fst))⟩]

/-- The options that say where files are. -/
def ofPlaces : List CommandOption :=
  [⟨"root", none, .single .path⟩, ⟨"out", some 'o', .single .path⟩]

/-- The options that may stand after the name of a command, or before it. -/
def after : Option CommandName → List CommandOption
  | none => general
  | some .run => ofTests ++ ofPlaces ++ general
  | some .order => ofTests ++ general
  | some .checkout => ⟨"index", some 'i', .single .count⟩ :: ofPlaces ++ general

end CommandOption

end CoverageReplay
