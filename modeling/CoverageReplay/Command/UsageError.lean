/-!
# Why a command line is refused

One constructor for each cause, `UsageError.message` for the wording. Asking for help or for the
version ends the reading of a command line as well.
-/

namespace CoverageReplay

/-- The commands. -/
inductive CommandName where
  | run
  | order
  | checkout
  deriving DecidableEq, Repr, Inhabited

namespace CommandName

/-- The word that names a command. -/
def text : CommandName → String
  | run => "run"
  | order => "order"
  | checkout => "checkout"

/-- All commands. -/
def all : List CommandName := [run, order, checkout]

/-- The command that a word names. -/
def ofText? (word : String) : Option CommandName :=
  all.find? fun name => name.text = word

end CommandName

/-- Why a command line gives nothing to do. -/
inductive UsageError where
  /-- No such option, or a word that belongs to no option. -/
  | unknownWord (word : String)
  /-- No such command. -/
  | unknownCommand (word : String)
  | missingCommand
  /-- There is neither a command nor an option. -/
  | nothingGiven
  /-- An option that the command needs is not given. -/
  | missingOption (name : String)
  /-- An option stands without its value. -/
  | missingValue (name : String)
  /-- An option that takes no value has one. -/
  | extraValue (name : String)
  /-- A value is not one of those that the option takes. -/
  | badValue (name value : String)
  /-- A value is not a number. -/
  | notNumber (name value : String)
  /-- An option that may be given once is given again. -/
  | repeated (name : String)
  /-- Help is asked for, on a command or in general. -/
  | help (command : Option CommandName)
  /-- The version is asked for. -/
  | version (command : Option CommandName)
  deriving DecidableEq, Repr, Inhabited

namespace UsageError

/-- The text shown for the error. -/
def message : UsageError → String
  | unknownWord word => "unexpected argument " ++ word
  | unknownCommand word => "no such command: " ++ word
  | missingCommand => "a command is needed"
  | nothingGiven => "a command is needed"
  | missingOption name => "--" ++ name ++ " is needed"
  | missingValue name => "--" ++ name ++ " needs a value"
  | extraValue name => "--" ++ name ++ " takes no value"
  | badValue name value => "--" ++ name ++ " cannot be " ++ value
  | notNumber name value => "--" ++ name ++ " must be a number, not " ++ value
  | repeated name => "--" ++ name ++ " is given more than once"
  | help _ => "help"
  | version _ => "version"

end UsageError

end CoverageReplay
