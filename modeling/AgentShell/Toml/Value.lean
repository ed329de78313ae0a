import AgentShell.NameTable

/-!
# TOML values

## Main definitions

* `Toml.Value`: the values of a document
* `Toml.Table`: a table of values by key
-/

namespace AgentShell.Toml

/-- A value of a document. Floating-point numbers and points in time are kept as they are
written. -/
inductive Value where
  | string (text : String)
  | integer (n : Int)
  | float (written : String)
  | boolean (b : Bool)
  | moment (written : String)
  | array (items : List Value)
  | table (entries : List (String × Value))

/-- A table of values by key. -/
abbrev Table := NameTable Value

end AgentShell.Toml
