import AgentShell.Toml.Value

/-!
# Tables under construction

While a document is read, its tables remember how they came to be, since that decides what may
still be added. A table with a header is defined by it once. A table implied by a longer header may
get a header of its own later. A table made by a dotted key belongs to the section it is in, and
only dotted keys add to it.

## Main definitions

* `Toml.Origin`: how a table came to be
* `Toml.Item`, `Toml.Draft`: what stands under a key of a table under construction
* `Toml.Draft.change`: a change to the table that a path leads to
* `Toml.Draft.define`, `Toml.Draft.openTable`, `Toml.Draft.openElement`: the three changes
* `Toml.Draft.toTable`: the table when all is read
-/

namespace AgentShell.Toml

/-- How a table came to be. -/
inductive Origin where
  /-- By a header of its own. -/
  | header
  /-- As a part of a longer header. -/
  | implied
  /-- As a part of a dotted key. -/
  | dotted
deriving DecidableEq, Repr

/-- What stands under a key while a document is read. -/
inductive Item where
  | value (v : Value)
  | table (origin : Origin) (entries : List (String × Item))
  /-- An array of tables, the one that is open last in front. -/
  | elements (latest : List (String × Item)) (earlier : List (List (String × Item)))

/-- A table under construction. -/
abbrev Draft := NameTable Item

namespace Draft

/-- **A change to the table that a path leads to**, seen from a table that came to be by `origin`.
Missing tables are made; the last table of an array stands for the array; a value leads nowhere. A
path of a dotted key, for which `made` is `dotted`, does not lead into a table with a header. -/
def change (made : Origin) (f : Origin → Draft → Option Draft) (origin : Origin) (t : Draft) :
    List String → Option Draft
  | [] => f origin t
  | k :: ks =>
    match NameTable.find? k t with
    | none => do
      let inner ← change made f made [] ks
      some (NameTable.insert k (.table made inner) t)
    | some (.table o es) =>
      if made = .dotted ∧ o = .header then none
      else do
        let inner ← change made f o es ks
        some (NameTable.insert k (.table o inner) t)
    | some (.elements latest earlier) => do
      let inner ← change made f .header latest ks
      some (NameTable.insert k (.elements inner earlier) t)
    | some (.value _) => none

/-- A value under a new key. A dotted key adds to tables made by dotted keys only. -/
def put (isDotted : Bool) (k : String) (v : Value) (origin : Origin) (t : Draft) : Option Draft :=
  if (origin == .dotted) != isDotted then none
  else match NameTable.find? k t with
    | none => some (NameTable.insert k (.value v) t)
    | some _ => none

/-- **The draft with a value** under a key of a section, seen from the table of the section. -/
def define (keys : List String) (k : String) (v : Value) (origin : Origin) (t : Draft) :
    Option Draft :=
  change .dotted (put (!keys.isEmpty) k v) origin t keys

/-- The draft with a header for the table under a key: a new table, or one that was only implied. -/
def openTable (k : String) (t : Draft) : Option Draft :=
  match NameTable.find? k t with
  | none => some (NameTable.insert k (.table .header []) t)
  | some (.table .implied es) => some (NameTable.insert k (.table .header es) t)
  | some _ => none

/-- The draft with another table in the array under a key. -/
def openElement (k : String) (t : Draft) : Option Draft :=
  match NameTable.find? k t with
  | none => some (NameTable.insert k (.elements [] []) t)
  | some (.elements latest earlier) =>
    some (NameTable.insert k (.elements [] (latest :: earlier)) t)
  | some _ => none

end Draft

mutual

/-- The value of an item when all is read. -/
def Item.toValue : Item → Value
  | .value v => v
  | .table _ es => .table (entriesToValues es)
  | .elements latest earlier =>
    .array ((elementsToValues earlier).reverse ++ [.table (entriesToValues latest)])

/-- The values of the entries of a table. -/
def entriesToValues : List (String × Item) → List (String × Value)
  | [] => []
  | (k, i) :: es => (k, i.toValue) :: entriesToValues es

/-- The values of the tables of an array. -/
def elementsToValues : List (List (String × Item)) → List Value
  | [] => []
  | es :: ess => .table (entriesToValues es) :: elementsToValues ess

end

/-- The table when all is read. -/
def Draft.toTable (t : Draft) : Table :=
  entriesToValues t

end AgentShell.Toml
