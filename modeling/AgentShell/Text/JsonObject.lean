import AgentShell.Text.JsonString

/-!
# JSON objects of texts

The written form of an object whose members are texts, laid out for readers: each member stands on a
line of its own, indented by two spaces, and the braces stand on the lines around them.

## Main definitions

* `JsonObject.member`: a member on its line
* `JsonObject.print`: the object
-/

namespace AgentShell.Text.JsonObject

/-- A member on its line, by its key and its text. -/
def member (m : String × String) : String :=
  "  " ++ JsonString.quote m.1 ++ ": " ++ JsonString.quote m.2

/-- **The written form of an object of texts.** An object without members has no lines inside. -/
def print : List (String × String) → String
  | [] => "\x7b\x7d"
  | members => "\x7b\n" ++ ",\n".intercalate (members.map member) ++ "\n\x7d"

end AgentShell.Text.JsonObject
