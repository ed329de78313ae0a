import AgentShell.Output

/-!
# Workspaces

The part of a session that commands read: the file tree, the working directory and the home
directory. The working directory is always a directory of the tree.

## Main definitions

* `Workspace`: tree, working directory and home
* `Workspace.enter`: the workspace of a session that starts
* `Workspace.apply`: the workspace after an effect
-/

namespace AgentShell

/-- What the commands of a session read. -/
structure Workspace where
  tree : Tree
  /-- The path of the working directory. -/
  cwd : String
  /-- The directory that a bare `cd` goes to. -/
  home : String

namespace Workspace

/-- The workspace of a session that starts: in `home`, as it is written, or in the root if `home`
is no directory of the tree. -/
def enter (tree : Tree) (home : String) : Workspace :=
  ⟨tree, if tree.isDirectory home then home else "/", home⟩

/-- The workspace after an effect. A change to what is no directory is ignored, and the screen is
not the workspace's. -/
def apply (w : Workspace) : Effect → Workspace
  | .clearScreen => w
  | .changeDirectory path => if w.tree.isDirectory path then { w with cwd := path } else w

/-- The workspace after the effects of an output, in order. -/
def applyAll (w : Workspace) (effects : List Effect) : Workspace :=
  effects.foldl apply w

end Workspace

end AgentShell
