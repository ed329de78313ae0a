import AgentShell.Generator
import AgentShell.Instructions
import AgentShell.Workspace

/-!
# Commands

A command is a name and a rule that says what a line under that name does. Most lines are answered
at once. A line that hands a task to an agent asks the generator one question, and its output is
made when the reply is in.

## Main definitions

* `Execution`: what running a line has come to
* `Command.Context`: what a command gets to see
* `Command`: a name and a rule
* `Registry`: commands by the lower-case forms of their names
-/

namespace AgentShell

/-- What running a line has come to before any reply is in. -/
inductive Execution where
  /-- The line is answered. -/
  | done (output : Output)
  /-- The line is a task that waits for the reply to a prompt. -/
  | asks (prompt : Prompt)
deriving DecidableEq, Repr

/-- What a command gets to see of a line and its surroundings. -/
structure Command.Context where
  /-- The words of the line behind the verb. -/
  arguments : List String
  /-- The line as it was typed. -/
  line : String
  workspace : Workspace
  instructions : Instructions
  agents : AgentRegistry

/-- A name, and the rule for the lines under that name. -/
structure Command where
  name : String
  run : Command.Context → Execution

/-- Commands by the lower-case forms of their names. -/
structure Registry where
  table : NameTable Command := []

namespace Registry

/-- The registry without commands. -/
def empty : Registry := {}

/-- The registry with a command put under the lower-case form of its name. -/
def register (r : Registry) (c : Command) : Registry :=
  ⟨r.table.insert (Text.lowercase c.name) c⟩

/-- The command that a verb means, whatever the case of its letters. -/
def find? (r : Registry) (verb : String) : Option Command :=
  r.table.find? (Text.lowercase verb)

/-- A verb means a command. -/
def contains (r : Registry) (verb : String) : Bool :=
  (r.find? verb).isSome

/-- The verbs, in lower case and in order. -/
def names (r : Registry) : List String :=
  r.table.names

end Registry

end AgentShell
