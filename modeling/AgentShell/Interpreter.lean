import AgentShell.Command.Builtin

/-!
# Running a line

The first word of a line is its verb and the others are its arguments. The verb picks a command
whatever the case of its letters; every failure ends up as output.

## Main definitions

* `Interpreter`: the commands, agents, instructions and time limit of a shell
* `Interpreter.start`: what a line comes to before any reply is in
* `Interpreter.execute`: the output of a line when its generator is not disturbed
-/

namespace AgentShell

/-- What decides the meaning of a line, apart from the workspace. -/
structure Interpreter where
  registry : Registry := .builtin
  agents : AgentRegistry := Roster.family
  instructions : Instructions := {}
  /-- How many milliseconds a task waits for its reply. -/
  limit : Option Nat := none

namespace Interpreter

/-- **What a line comes to** before any reply is in. A blank line does nothing. -/
def start (i : Interpreter) (line : String) (w : Workspace) : Execution :=
  match Text.words line with
  | [] => .done {}
  | verb :: arguments =>
    match i.registry.find? verb with
    | none => .done (.ofError s!"Command not found: {verb}")
    | some command => command.run ⟨arguments, line, w, i.instructions, i.agents⟩

/-- The output of a line whose task, if it is one, waits for its reply as long as it may. There is
none if the reply never comes. -/
def execute (i : Interpreter) (generator : Generator) (line : String) (w : Workspace) :
    Option Output :=
  match i.start line w with
  | .done output => some output
  | .asks prompt => ((generator prompt).within i.limit).map (Task.output prompt)

/-- The prompts that a line gives to the generator: one if it is a task for a known agent, and
otherwise none. -/
def prompts (i : Interpreter) (line : String) (w : Workspace) : List Prompt :=
  match i.start line w with
  | .done _ => []
  | .asks prompt => [prompt]

end Interpreter

end AgentShell
