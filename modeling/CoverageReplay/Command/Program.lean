import CoverageReplay.Command.Execution

/-!
# The program

A command line and the files give an exit code, what is printed, and the files afterwards. The code
is 0 on success, 1 when a command fails and 2 when the command line is refused.
-/

namespace CoverageReplay.Program

/-- The name of the program. -/
def name : String := "covreplay"

/-- The version of the program. -/
def version : String := "0.4.0"

/-- What the program leaves behind. -/
structure Outcome where
  code : Nat
  out : String
  err : String
  files : FileTree
  deriving Inhabited

/-- The name of the program, followed by that of a command. -/
def fullName : Option CommandName → String
  | none => name
  | some command => name ++ "-" ++ command.text

/-- How an option is written, with its letter if it has one. -/
def optionText (o : CommandOption) : String :=
  "  " ++ (match o.letter with
    | some c => "-" ++ String.ofList [c] ++ ", "
    | none => "    ") ++ "--" ++ o.name ++ (if o.use.takesValues then " VALUE" else "") ++ "\n"

/-- How the program, or one of its commands, is used. -/
def helpText (command : Option CommandName) : String :=
  let usage := match command with
    | none => name ++ " [OPTIONS] COMMAND\n\nCommands:\n" ++
      String.join (CommandName.all.map fun c => "  " ++ c.text ++ "\n")
    | some c => name ++ " " ++ c.text ++ " [OPTIONS]\n"
  "Usage: " ++ usage ++ "\nOptions:\n" ++ String.join ((CommandOption.after command).map optionText)

/-- What a refused command line leaves behind. -/
def refuse (files : FileTree) : UsageError → Outcome
  | .help command => ⟨0, helpText command, "", files⟩
  | .version command => ⟨0, fullName command ++ " " ++ version ++ "\n", "", files⟩
  | e => ⟨2, "", "error: " ++ e.message ++ "\n", files⟩

/-- What an invocation leaves behind. -/
def perform (terminal : Bool) (files : FileTree) (i : Invocation) : Outcome :=
  match (i.execute terminal).run ⟨files, "", ""⟩ with
  | (.ok (), c) => ⟨0, c.out, c.err, c.files⟩
  | (.error e, c) => ⟨1, c.out, c.err ++ "Error: " ++ e.message ++ "\n", c.files⟩

/-- What a command line leaves behind; `terminal` says whether messages go to a terminal. -/
def run (terminal : Bool) (words : List String) (files : FileTree) : Outcome :=
  match Invocation.parse? words with
  | .ok i => perform terminal files i
  | .error e => refuse files e

end CoverageReplay.Program
