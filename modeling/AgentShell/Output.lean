import AgentShell.Tree.Basic

/-!
# Output of commands

What a command answers: lines, each tagged with its role, and effects on the session that take hold
once the command is complete.

## Main definitions

* `OutputLine`: a line by its role, and `OutputLine.plain`, its text without styling
* `Effect`: what a command asks of the session
* `Output`: lines and effects
-/

namespace AgentShell

/-- The text of an entry in a listing: a directory has a slash behind its name. -/
def Entry.label (e : Entry) : String :=
  match e.kind with
  | .directory => e.name ++ "/"
  | .file => e.name

/-- A line of output by its role. -/
inductive OutputLine where
  | text (text : String)
  /-- The title of a section. -/
  | heading (text : String)
  /-- An indented label and what it stands for. -/
  | labeled (label text : String)
  /-- How far a task has come. -/
  | status (text : String)
  /-- The entries of a directory, on one line. -/
  | listing (entries : List Entry)
  | error (text : String)
deriving DecidableEq, Repr

namespace OutputLine

/-- What stands between two entries of a listing. -/
def gap : String :=
  "    "

/-- The text of a line without styling. -/
def plain : OutputLine → String
  | .text s => s
  | .heading s => s
  | .labeled label s => "  " ++ label ++ s
  | .status s => "STATUS: " ++ s
  | .listing entries => gap.intercalate (entries.map Entry.label)
  | .error s => s

/-- The line reports an error. -/
def isError : OutputLine → Bool
  | .error _ => true
  | _ => false

end OutputLine

/-- What a command asks of the session. -/
inductive Effect where
  /-- Erase everything that was drawn before. -/
  | clearScreen
  /-- Make a directory the working directory. -/
  | changeDirectory (path : String)
deriving DecidableEq, Repr

/-- What a command answers. -/
structure Output where
  lines : List OutputLine := []
  effects : List Effect := []
deriving DecidableEq, Repr

namespace Output

/-- The output with one error line and nothing else. -/
def ofError (text : String) : Output :=
  { lines := [.error text] }

/-- The output with one effect and nothing else. -/
def ofEffect (e : Effect) : Output :=
  { effects := [e] }

/-- Some line reports an error. -/
def hasError (o : Output) : Bool :=
  o.lines.any OutputLine.isError

end Output

end AgentShell
