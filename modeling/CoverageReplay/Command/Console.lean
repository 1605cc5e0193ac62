import CoverageReplay.Command.Error
import CoverageReplay.Command.Invocation
import CoverageReplay.Files.Action

/-!
# What commands print

Results go to the standard output, messages to the standard error output. A message begins with a
word, or with a symbol where colors are wanted. Quiet commands print no messages except on failure.
-/

namespace CoverageReplay

/-- The files and what has been printed. -/
structure Console where
  files : FileTree
  out : String
  err : String
  deriving Inhabited

/-- What a command does: it prints, changes files, and may fail. -/
abbrev Session := ExceptT CommandError (StateM Console)

namespace Session

variable {α : Type}

/-- Prints to the standard output. -/
def print (text : String) : Session Unit := modify fun c => { c with out := c.out ++ text }

/-- Prints a line to the standard error output. -/
def printError (line : String) : Session Unit :=
  modify fun c => { c with err := c.err ++ line ++ "\n" }

/-- Looks at the files. -/
def look (f : FileTree → Except CommandError α) : Session α := fun c => (f c.files, c)

/-- Changes the files. -/
def act (a : FileAction CommandError α) : Session α := fun c =>
  let (r, files) := a c.files
  (r, { c with files })

end Session

/-! ## Messages -/

/-- How messages are printed. -/
structure Reporter where
  /-- Whether messages begin with symbols. -/
  symbols : Bool
  quiet : Bool
  /-- Whether every file is named. -/
  verbose : Bool
  deriving DecidableEq, Repr, Inhabited

namespace Reporter

/-- How the messages of an invocation are printed, on a terminal or not. -/
def ofInvocation (terminal : Bool) (i : Invocation) : Reporter where
  symbols := match i.color with
    | .auto => terminal
    | .always => true
    | .never => false
  quiet := i.quiet
  verbose := !i.quiet && 0 < i.verbose

/-- A message with a symbol or a word in front of it. -/
def line (r : Reporter) (symbol word message : String) : String :=
  (if r.symbols then symbol else word) ++ " " ++ message

/-- Prints a message unless the command is quiet. -/
def say (r : Reporter) (message : String) : Session Unit :=
  if r.quiet then pure () else Session.printError message

/-- Tells that a command has succeeded. -/
def success (r : Reporter) (message : String) : Session Unit := r.say (r.line "✓" "OK" message)

/-- Tells what a command is doing. -/
def info (r : Reporter) (message : String) : Session Unit := r.say (r.line "ℹ" "INFO" message)

/-- Tells that a command has failed, even when it is quiet. -/
def failure (r : Reporter) (message : String) : Session Unit :=
  Session.printError (r.line "✗" "FAIL" message)

end Reporter

end CoverageReplay
