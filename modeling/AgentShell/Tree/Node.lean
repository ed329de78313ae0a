import AgentShell.NameTable

/-!
# Nodes of a file tree

A node is a file with its content or a directory with its entries, sorted by name. There are no
links, so a node is a finite tree.

## Main definitions

* `Node`: files and directories
* `Node.Kind`: which of the two a node is
* `isEntryName`: the names that an entry may bear
* `Node.get?`: the node that a list of names leads to
* `Node.alter`: a node with a change at the end of a list of names
* `Node.WellFormed`: every directory is sorted and every name is an entry name
-/

namespace AgentShell

/-- A file with its content, or a directory with its entries. -/
inductive Node where
  | file (content : String)
  | directory (entries : List (String × Node))

namespace Node

instance : Inhabited Node := ⟨.directory []⟩

/-- The two kinds of node. -/
inductive Kind where
  | directory
  | file
deriving DecidableEq, Repr

/-- The kind of a node. -/
def kind : Node → Kind
  | .file _ => .file
  | .directory _ => .directory

/-- The node is a directory. -/
def isDirectory (n : Node) : Bool :=
  n.kind == .directory

/-- The entries of a directory; a file has none. -/
def entries? : Node → Option (NameTable Node)
  | .directory es => some es
  | .file _ => none

/-- The content of a file; a directory has none. -/
def content? : Node → Option String
  | .file c => some c
  | .directory _ => none

mutual

/-- Two nodes are the same tree. -/
def same : Node → Node → Bool
  | .file c, .file d => c == d
  | .directory es, .directory fs => sameEntries es fs
  | _, _ => false

/-- Two directories have the same entries in the same order. -/
def sameEntries : List (String × Node) → List (String × Node) → Bool
  | [], [] => true
  | (k, m) :: es, (l, n) :: fs => k == l && same m n && sameEntries es fs
  | _, _ => false

end

mutual

theorem eq_of_same : ∀ {m n : Node}, same m n = true → m = n
  | .file c, .file d, h => by simpa [same] using h
  | .directory es, .directory fs, h => by
    have : es = fs := eq_of_sameEntries (by simpa [same] using h)
    rw [this]
  | .file _, .directory _, h => by simp [same] at h
  | .directory _, .file _, h => by simp [same] at h

theorem eq_of_sameEntries : ∀ {es fs : List (String × Node)}, sameEntries es fs = true → es = fs
  | [], [], _ => rfl
  | (k, m) :: es, (l, n) :: fs, h => by
    simp only [sameEntries, Bool.and_eq_true, beq_iff_eq] at h
    rw [h.1.1, eq_of_same h.1.2, eq_of_sameEntries h.2]
  | [], _ :: _, h => by simp [sameEntries] at h
  | _ :: _, [], h => by simp [sameEntries] at h

end

mutual

theorem same_self : ∀ n : Node, same n n = true
  | .file c => by simp [same]
  | .directory es => by simpa [same] using sameEntries_self es

theorem sameEntries_self : ∀ es : List (String × Node), sameEntries es es = true
  | [] => rfl
  | (k, n) :: es => by simp [sameEntries, same_self n, sameEntries_self es]

end

instance : DecidableEq Node := fun m n =>
  if h : same m n = true then isTrue (eq_of_same h)
  else isFalse fun e => h (e ▸ same_self m)

/-- The node that a list of names leads to; there is none beyond a file or a missing entry. -/
def get? : Node → List String → Option Node
  | n, [] => some n
  | .file _, _ :: _ => none
  | .directory es, s :: ss =>
    match NameTable.find? s es with
    | some child => child.get? ss
    | none => none
termination_by structural _ ss => ss

/-- The node with `f` applied at the end of a list of names; the same node where the names lead
nowhere. -/
def alter (f : Node → Node) : Node → List String → Node
  | n, [] => f n
  | .file c, _ :: _ => .file c
  | .directory es, s :: ss =>
    match NameTable.find? s es with
    | some child => .directory (NameTable.insert s (alter f child ss) es)
    | none => .directory es
termination_by structural _ ss => ss

end Node

/-- The names that an entry may bear: not empty, without a slash, and neither `.` nor `..`. -/
def isEntryName (name : String) : Bool :=
  name ≠ "" && name ≠ "." && name ≠ ".." && !name.toList.contains '/'

/-- **Well-formed nodes**: below a well-formed node every directory is sorted strictly by name and
every name is an entry name. -/
inductive Node.WellFormed : Node → Prop where
  | file (content : String) : WellFormed (.file content)
  | directory {entries : NameTable Node} (sorted : entries.Sorted)
      (named : ∀ e ∈ entries, isEntryName e.1 = true) (nested : ∀ e ∈ entries, WellFormed e.2) :
      WellFormed (.directory entries)

end AgentShell
