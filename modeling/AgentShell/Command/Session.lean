import AgentShell.Command.Basic

/-!
# Commands about the session

The commands that need no file and no agent: `help` lists the commands, `status` shows the custom
instructions, and `clear` erases the screen.

## Main definitions

* `Command.help`, `Command.status`, `Command.clear`
-/

namespace AgentShell.Command

/-- The forms of the commands and what they do. -/
def usage : List (String × String) :=
  [("task <agent> \"<prompt>\"", "Assign a task to an agent."),
    ("status", "View active Custom Instructions."),
    ("clear", "Clear the terminal screen."),
    ("ls [path]", "List directory contents."),
    ("cat <file>", "Display file content."),
    ("cd <directory>", "Change directory."),
    ("help", "Show this command summary.")]

/-- A text filled up with spaces to a width. -/
def padEnd (width : Nat) (s : String) : String :=
  s ++ String.ofList (List.replicate (width - s.length) ' ')

/-- Lists the commands. -/
def help : Command where
  name := "help"
  run _ := .done
    { lines := .heading "CUA Ecosystem Commands:" ::
        usage.map fun (form, purpose) => .labeled (padEnd 28 form) ("- " ++ purpose) }

/-- What stands for a custom instruction that is not set. -/
def orDefault (text : String) : String :=
  if text = "" then "Default" else text

/-- Shows the custom instructions. -/
def status : Command where
  name := "status"
  run c := .done
    { lines := [.heading "Active Custom Instruction Nuances:",
        .labeled "SYSTEM:" (" " ++ orDefault c.instructions.system),
        .labeled "AI:" ("     " ++ orDefault c.instructions.behavior),
        .labeled "USER:" ("   " ++ orDefault c.instructions.user)] }

/-- Erases the screen. -/
def clear : Command where
  name := "clear"
  run _ := .done (.ofEffect .clearScreen)

end AgentShell.Command
