import AgentShell.Text.Words

/-!
# Custom instructions

Three free texts of the host that colour the answers of the agents, and the preamble that a
generator is given with every prompt.

## Main definitions

* `Instructions`: the three texts
* `Instructions.preamble`: what a generator sees of them
-/

namespace AgentShell

/-- The free texts that a host sets. -/
structure Instructions where
  system : String := ""
  behavior : String := ""
  user : String := ""
deriving DecidableEq, Repr

/-- The preamble of a prompt: a line for each text that is not empty, trimmed as a whole. -/
def Instructions.preamble (i : Instructions) : String :=
  let part (text before after : String) : String :=
    if text = "" then "" else before ++ text ++ after
  Text.trim (part i.system "SYSTEM Persona: " "\n" ++ part i.behavior "AI Behavior: " "\n" ++
    part i.user "USER Context: " "")

end AgentShell
