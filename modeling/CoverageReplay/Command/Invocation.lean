import CoverageReplay.Command.Words
import CoverageReplay.TestOrder.Strategy

/-!
# Invocations

What a command line asks for, with the standard values of the options that it leaves out. Of a
general option that stands before and after the name of the command, the one after it counts.
-/

namespace CoverageReplay

/-- What `run` needs to know. -/
structure RunArguments where
  /-- The directory of the profiles. -/
  profiles : String
  /-- The directory that the file names in profiles count from. -/
  root : String
  package : String
  tests : List String
  /-- The strategy as it was written. -/
  sort : String
  /-- The output directory. -/
  out : String
  format : OutputFormat
  deriving DecidableEq, Repr, Inhabited

/-- What `order` needs to know. -/
structure OrderArguments where
  /-- The directory of the profiles. -/
  profiles : String
  package : String
  tests : List String
  /-- The strategy as it was written. -/
  sort : String
  format : OutputFormat
  deriving DecidableEq, Repr, Inhabited

/-- What `checkout` needs to know. -/
structure CheckoutArguments where
  /-- The output directory of a run. -/
  out : String
  index : Nat
  /-- The directory of the working tree. -/
  root : String
  deriving DecidableEq, Repr, Inhabited

/-- A command with what it needs to know. -/
inductive Command where
  | run (a : RunArguments)
  | order (a : OrderArguments)
  | checkout (a : CheckoutArguments)
  deriving DecidableEq, Repr, Inhabited

/-- What a command line asks for. -/
structure Invocation where
  verbose : Nat
  quiet : Bool
  color : ColorChoice
  /-- The path of a settings file. -/
  config : Option String
  logJson : Bool
  command : Command
  deriving DecidableEq, Repr, Inhabited

namespace RunArguments

/-- The order of the tests. -/
def strategy (a : RunArguments) : SortStrategy := .parseLossy a.sort

/-- Where runs are kept unless told otherwise. -/
def standardOut : String := "target/covreplay"

end RunArguments

/-- The order of the tests. -/
def OrderArguments.strategy (a : OrderArguments) : SortStrategy := .parseLossy a.sort

/-! ## Values of options -/

namespace Given

/-- The values of an option. -/
def all (g : Given) (name : String) : List String := (g.values.get? name).getD []

/-- The value of an option that need not be given. -/
def valueOr (g : Given) (default name : String) : String := (g.all name).head?.getD default

/-- The values of an option that must be given. -/
def needAll (g : Given) (name : String) : Except UsageError (List String) :=
  match g.values.get? name with
  | some values => .ok values
  | none => .error (.missingOption name)

/-- The value of an option that must be given. -/
def need (g : Given) (name : String) : Except UsageError String := do
  match ← g.needAll name with
  | value :: _ => return value
  | [] => .error (.missingValue name)

/-- The value of an option that is one of some words. -/
def choice {α : Type} (g : Given) (name : String) (default : α) (words : List (String × α)) : α :=
  ((g.all name).head?.bind fun value => words.lookup value).getD default

/-! ## Commands -/

/-- What `run` is given. -/
def toRun (g : Given) : Except UsageError RunArguments := do
  return {
    profiles := ← g.need "profiles"
    root := g.valueOr "." "root"
    package := ← g.need "package"
    tests := ← g.needAll "test"
    sort := g.valueOr "hardcoded" "sort"
    out := g.valueOr RunArguments.standardOut "out"
    format := g.choice "format" .text OutputFormat.names }

/-- What `order` is given. -/
def toOrder (g : Given) : Except UsageError OrderArguments := do
  return {
    profiles := ← g.need "profiles"
    package := ← g.need "package"
    tests := ← g.needAll "test"
    sort := g.valueOr "hardcoded" "sort"
    format := g.choice "format" .text OutputFormat.names }

/-- What `checkout` is given. -/
def toCheckout (g : Given) : Except UsageError CheckoutArguments := do
  let index ← g.need "index"
  match Text.number? greatestCount index.toList with
  | none => .error (.notNumber "index" index)
  | some n =>
    return {
      out := g.valueOr RunArguments.standardOut "out"
      index := n
      root := g.valueOr "." "root" }

/-- The command that is given after its name. -/
def toCommand (g : Given) : CommandName → Except UsageError Command
  | .run => g.toRun.map .run
  | .order => g.toOrder.map .order
  | .checkout => g.toCheckout.map .checkout

end Given

namespace Invocation

/-- The most that `-v` counts to. -/
def verboseBound : Nat := 255

/-- A command with the general options before and after its name. -/
def ofGiven (before after : Given) (command : Command) : Invocation :=
  let side := fun name : String => if after.values.contains name then after else before
  { verbose := min verboseBound ((side "verbose").all "verbose").length
    quiet := (side "quiet").values.contains "quiet"
    color := (side "color").choice "color" .auto ColorChoice.names
    config := ((side "config").all "config").head?
    logJson := (side "log-json").values.contains "log-json"
    command }

/-- What some words ask for. Faults after the name of the command are told before one in the value
of the last option in front of it. -/
def parse? (words : List String) : Except UsageError Invocation := do
  match ← (Given.start none).words words with
  | (before, none) =>
    let before ← before.settle
    .error (if before.values.entries.isEmpty then .nothingGiven else .missingCommand)
  | (before, some (name, rest)) =>
    let (after, _) ← (Given.start (some name)).words rest
    let after ← after.settle
    let command ← after.toCommand name
    let before ← before.settle
    return ofGiven before after command

end Invocation

end CoverageReplay
