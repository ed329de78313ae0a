/-!
# Tables sorted by name

Finite maps from names to values as lists of pairs in strictly ascending order of their names, the
order of their code points. The order is part of the data: what lists a table lists it sorted,
whatever the order in which its entries arrived.

## Main definitions

* `NameTable.find?`: the value under a name
* `NameTable.insert`: a value put under a name, in place of the one that was there
* `NameTable.erase`: a table without a name
* `NameTable.Sorted`: the names ascend strictly
-/

namespace AgentShell

/-- A table from names to values. -/
abbrev NameTable (α : Type) := List (String × α)

namespace NameTable

variable {α : Type}

/-- The names of a table, in order. -/
def names (t : NameTable α) : List String :=
  t.map Prod.fst

/-- The value under a name. -/
def find? (name : String) : NameTable α → Option α
  | [] => none
  | (k, v) :: t => if k = name then some v else find? name t

/-- The table with a value put under a name: in place of the value that was there, and else in
front of the first greater name. -/
def insert (name : String) (value : α) : NameTable α → NameTable α
  | [] => [(name, value)]
  | (k, v) :: t =>
    if k = name then (name, value) :: t
    else if name < k then (name, value) :: (k, v) :: t
    else (k, v) :: insert name value t

/-- The table without a name. -/
def erase (name : String) (t : NameTable α) : NameTable α :=
  t.filter fun e => e.1 ≠ name

/-- The names ascend strictly, so none occurs twice. -/
def Sorted (t : NameTable α) : Prop :=
  t.names.Pairwise (· < ·)

@[simp] theorem find?_nil (name : String) : find? name ([] : NameTable α) = none := rfl

@[simp] theorem names_nil : names ([] : NameTable α) = [] := rfl

@[simp] theorem names_cons (e : String × α) (t : NameTable α) :
    names (e :: t) = e.1 :: names t := rfl

end NameTable

end AgentShell
