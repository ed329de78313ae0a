import AgentShell.Path
import AgentShell.Tree.Node

/-!
# File trees

An owned tree of files and directories below the root `/`. Reading finds a node by the segments of
a path as they are written; writing goes by the normal form of its path. A change that fails leaves
behind what it had done before it failed.

## Main definitions

* `TreeError`: why an operation failed, and `TreeError.message`
* `Tree.lookup`, `Tree.entriesAt`, `Tree.contentAt`: reading
* `Tree.insert`, `Tree.remove`, `Tree.modifyFile`: a change at one place
* `Tree.createDirectories`, `Tree.writeFile`: a change that makes the directories it needs
* `Tree.paths`: every path of the tree
-/

namespace AgentShell

/-- Why an operation on a tree failed. -/
inductive TreeError where
  /-- Nothing has the path: an entry is missing, or the path goes on below a file. -/
  | missing (path : String)
  /-- What has the path is no directory. -/
  | notADirectory (path : String)
  /-- No entry may bear the name. -/
  | badName (name : String)
  /-- Something else has the path already. -/
  | taken (path : String)
  /-- The root cannot be taken out of its tree. -/
  | rootIsFixed
deriving DecidableEq, Repr

/-- The text of an error. -/
def TreeError.message : TreeError → String
  | .missing path => s!"no such path '{path}'"
  | .notADirectory path => s!"not a directory '{path}'"
  | .badName name => s!"invalid entry name '{name}'"
  | .taken path => s!"entry already exists '{path}'"
  | .rootIsFixed => "the root directory cannot be removed"

/-- An entry of a directory, without what is below it. -/
structure Entry where
  name : String
  kind : Node.Kind
deriving DecidableEq, Repr

/-- The names that an entry may bear, and the error of every other name. -/
def checkEntryName (name : String) : Except TreeError Unit :=
  if isEntryName name then .ok () else .error (.badName name)

/-- A tree of files and directories. -/
structure Tree where
  root : Node
deriving DecidableEq

namespace Tree

/-- The tree with nothing but its root. -/
def empty : Tree :=
  ⟨.directory []⟩

instance : Inhabited Tree := ⟨empty⟩

/-- The root is a directory, and the tree is well-formed below it. -/
def WellFormed (t : Tree) : Prop :=
  t.root.isDirectory = true ∧ t.root.WellFormed

/-- The node at a path. -/
def lookup (t : Tree) (path : String) : Except TreeError Node :=
  match t.root.get? (Path.segments path) with
  | some n => .ok n
  | none => .error (.missing path)

/-- Something is at the path. -/
def contains (t : Tree) (path : String) : Bool :=
  (t.lookup path).isOk

/-- A directory is at the path. -/
def isDirectory (t : Tree) (path : String) : Bool :=
  match t.lookup path with
  | .ok n => n.isDirectory
  | .error _ => false

/-- The entries of the directory at a path, in order of their names. -/
def entriesAt (t : Tree) (path : String) : Except TreeError (List Entry) :=
  match t.lookup path with
  | .ok (.directory es) => .ok (es.map fun e => ⟨e.1, e.2.kind⟩)
  | .ok (.file _) => .error (.notADirectory path)
  | .error e => .error e

/-- The content of the file at a path; a directory has none. -/
def contentAt (t : Tree) (path : String) : Except TreeError String :=
  match t.lookup path with
  | .ok (.file c) => .ok c
  | .ok (.directory _) => .error (.missing path)
  | .error e => .error e

/-- The tree with `f` applied to the content of the file at a path. A directory is left alone. -/
def modifyFile (t : Tree) (path : String) (f : String → String) : Except TreeError Tree :=
  match t.lookup path with
  | .ok _ =>
    .ok ⟨t.root.alter
      (fun
        | .file c => .file (f c)
        | .directory es => .directory es)
      (Path.segments path)⟩
  | .error e => .error e

/-- The tree with the node `n` as the entry `name` of the directory at `parent`, and the node that
was there before. -/
def insert (t : Tree) (parent name : String) (n : Node) : Except TreeError (Tree × Option Node) :=
  match checkEntryName name with
  | .error e => .error e
  | .ok () =>
    match t.lookup parent with
    | .error e => .error e
    | .ok (.file _) => .error (.notADirectory parent)
    | .ok (.directory es) =>
      .ok (⟨t.root.alter (fun _ => .directory (NameTable.insert name n es))
        (Path.segments parent)⟩, NameTable.find? name es)

/-- The tree without the node at a path, and that node. -/
def remove (t : Tree) (path : String) : Except TreeError (Tree × Node) :=
  match Path.splitParent path with
  | none => .error .rootIsFixed
  | some (parent, name) =>
    match t.root.get? (Path.segments parent) with
    | some (.directory es) =>
      match NameTable.find? name es with
      | some n =>
        .ok (⟨t.root.alter (fun _ => .directory (NameTable.erase name es))
          (Path.segments parent)⟩, n)
      | none => .error (.missing path)
    | _ => .error (.missing path)

/-- The node with a directory at the end of a list of names, and whether every step succeeded.
`walked` is the path of the node itself. Names are checked one by one, so a list that fails midway
has made the directories in front of the failure. -/
def makeDirectories (walked : String) : Node → List String → Node × Except TreeError Unit
  | .directory es, [] => (.directory es, .ok ())
  | .file c, [] => (.file c, .error (.taken walked))
  | n, s :: ss =>
    match checkEntryName s with
    | .error e => (n, .error e)
    | .ok () =>
      match n with
      | .file c => (.file c, .error (.notADirectory (walked ++ "/" ++ s)))
      | .directory es =>
        let child := (NameTable.find? s es).getD (.directory [])
        let (made, outcome) := makeDirectories (walked ++ "/" ++ s) child ss
        (.directory (NameTable.insert s made es), outcome)
termination_by structural _ ss => ss

/-- The tree with a directory at a path, every missing one above it included. -/
def createDirectories (t : Tree) (path : String) : Tree × Except TreeError Unit :=
  let (root, outcome) := makeDirectories "" t.root (Path.segments path)
  (⟨root⟩, outcome)

/-- **The tree with a file at a path.** The directories above the normal form of the path are made
where they are missing; a directory at the path as it is written is not replaced. -/
def writeFile (t : Tree) (path content : String) : Tree × Except TreeError Unit :=
  match Path.splitParent path with
  | none => (t, .error (.taken "/"))
  | some (parent, name) =>
    match t.createDirectories parent with
    | (made, .error e) => (made, .error e)
    | (made, .ok ()) =>
      if made.isDirectory path then (made, .error (.taken path))
      else match made.insert parent name (.file content) with
        | .ok (written, _) => (written, .ok ())
        | .error e => (made, .error e)

mutual

/-- The paths below a node at the path `above`, parents first, in order of their names. -/
def pathsBelow (above : String) : Node → List String
  | .file _ => []
  | .directory es => pathsOfEntries above es

/-- The paths of the entries of a directory at the path `above` and of all that is below them. -/
def pathsOfEntries (above : String) : List (String × Node) → List String
  | [] => []
  | (name, n) :: es =>
    (above ++ "/" ++ name) :: pathsBelow (above ++ "/" ++ name) n ++ pathsOfEntries above es

end

/-- Every path of the tree: the root first, then depth first in order of the names. -/
def paths (t : Tree) : List String :=
  "/" :: pathsBelow "" t.root

end Tree

end AgentShell
