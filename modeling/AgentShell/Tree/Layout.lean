import AgentShell.Tree.Basic

/-!
# Trees from layouts

A layout lists the directories and the files of a tree by their paths. Its tree is built by making
the directories one after another and then writing the files one after another, up to the first
failure.

## Main definitions

* `Layout`: directories and files by path
* `Layout.build`: the tree of a layout
* `Layout.initial`: the layout that a shell starts from
-/

namespace AgentShell

/-- The directories and the files of a tree, by path. -/
structure Layout where
  directories : List String := []
  files : List (String × String) := []
deriving Repr

namespace Layout

/-- The tree with each of the directories made in turn. -/
def makeAll (t : Tree) : List String → Except TreeError Tree
  | [] => .ok t
  | path :: rest =>
    match t.createDirectories path with
    | (made, .ok ()) => makeAll made rest
    | (_, .error e) => .error e

/-- The tree with each of the files written in turn. -/
def writeAll (t : Tree) : List (String × String) → Except TreeError Tree
  | [] => .ok t
  | (path, content) :: rest =>
    match t.writeFile path content with
    | (written, .ok ()) => writeAll written rest
    | (_, .error e) => .error e

/-- **The tree of a layout**: its directories, then its files. -/
def build (l : Layout) : Except TreeError Tree :=
  match makeAll Tree.empty l.directories with
  | .ok t => writeAll t l.files
  | .error e => .error e

/-- The layout that a shell starts from. -/
def initial : Layout where
  directories := ["/etc", "/usr", "/home/user/documents", "/home/user/workspace"]
  files :=
    [("/home/user/profile.txt", "Name: GUA-D-CUAG\nRole: Orchestration Engine\nStatus: Online"),
      ("/home/user/documents/report.txt",
        "This is a simulated report document.\nIt contains important findings and data."),
      ("/home/user/documents/notes.md",
        "# Project Notes\n- Initial setup complete\n- Review meeting scheduled"),
      ("/home/user/workspace/project_config.json",
        "\x7b\n  \"project\": \"CUA Engine\",\n  \"version\": \"1.0.0\",\n" ++
          "  \"status\": \"development\"\n\x7d")]

/-- The home directory of the layout that a shell starts from. -/
def initialHome : String :=
  "/home/user"

end Layout

/-- The tree that a shell starts from. -/
def Tree.initial : Tree :=
  Layout.initial.build.toOption.getD Tree.empty

end AgentShell
