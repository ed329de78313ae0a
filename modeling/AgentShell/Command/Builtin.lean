import AgentShell.Command.Files
import AgentShell.Command.Session
import AgentShell.Command.Task

/-!
# The built-in commands

## Main definitions

* `Registry.builtin`: the registry of the seven built-in commands
-/

namespace AgentShell

/-- The built-in commands. -/
def Command.builtin : List Command :=
  [.help, .clear, .ls, .cd, .cat, .status, .task]

/-- The registry with a list of commands added in turn. -/
def Registry.registerAll (r : Registry) (commands : List Command) : Registry :=
  commands.foldl register r

/-- The registry of the built-in commands. -/
def Registry.builtin : Registry :=
  Registry.empty.registerAll Command.builtin

end AgentShell
