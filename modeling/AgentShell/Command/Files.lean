import AgentShell.Command.Basic

/-!
# Looking at files

The commands that walk the file tree: `ls` lists a directory, `cd` changes the working directory,
and `cat` shows a file. Each resolves its argument against the working directory, and each failure
is one error line that quotes the argument as it was typed.

## Main definitions

* `Command.list`, `Command.changeDirectory`, `Command.showFile`: what the commands answer
* `Command.ls`, `Command.cd`, `Command.cat`: the commands
-/

namespace AgentShell.Command

/-- The entries of a directory on one line; an empty directory is one empty line. -/
def list (w : Workspace) (target : String) : Output :=
  match w.tree.entriesAt (Path.resolve w.cwd target) with
  | .ok [] => { lines := [.text ""] }
  | .ok entries => { lines := [.listing entries] }
  | .error _ => .ofError s!"Error: ls: cannot access '{target}': No such directory"

/-- The change to a directory. -/
def changeDirectory (w : Workspace) (target : String) : Output :=
  let path := Path.resolve w.cwd target
  if w.tree.isDirectory path then .ofEffect (.changeDirectory path)
  else .ofError s!"Error: cd: {target}: Not a directory or does not exist"

/-- The content of a file, a line of output for each of its lines. -/
def showFile (w : Workspace) (target : String) : Output :=
  match w.tree.contentAt (Path.resolve w.cwd target) with
  | .ok content =>
    { lines := (content.toList.splitOn '\n').map fun l => .text (String.ofList l) }
  | .error _ => .ofError s!"Error: cat: {target}: No such file or is a directory"

/-- Lists a directory: the working directory where none is named. -/
def ls : Command where
  name := "ls"
  run c := .done (list c.workspace (c.arguments.head?.getD "."))

/-- Changes the working directory: to the home directory where none is named. -/
def cd : Command where
  name := "cd"
  run c := .done (changeDirectory c.workspace (c.arguments.head?.getD c.workspace.home))

/-- Shows a file. -/
def cat : Command where
  name := "cat"
  run c := .done (match c.arguments.head? with
    | some target => showFile c.workspace target
    | none => .ofError "Error: cat: : No such file or is a directory")

end AgentShell.Command
