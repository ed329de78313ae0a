import AgentShell.Text.Lowercase

/-!
# Agents

An agent is a persona that a task can be handed to. A roster holds agents in the order in which
they arrived; one that arrives under the name of another takes its place at the end. A task only
looks its agent up by name, in a roster or elsewhere.

## Main definitions

* `Agent`: a persona
* `AgentRegistry`: where a task looks up its agent
* `Roster`: the agents that tasks can name
* `Roster.register`: a roster with an agent added
* `Roster.find?`: the first agent that a name means
* `Roster.family`: the agents that a shell knows from the start
-/

namespace AgentShell

/-- A persona, with the line of philosophy that its answers are based on. -/
structure Agent where
  name : String
  role : String := ""
  philosophy : String := ""
  focus : List String := []
deriving DecidableEq, Repr

/-- Where a task looks up the agent that it names. -/
structure AgentRegistry where
  find? : String → Option Agent

/-- The agents that tasks can name. -/
structure Roster where
  agents : List Agent := []
deriving DecidableEq, Repr

namespace Roster

/-- The roster with an agent at its end, in place of every agent whose name differs from its name
at most in the case of the letters A to Z. -/
def register (r : Roster) (a : Agent) : Roster :=
  ⟨r.agents.filter (fun b => Text.lowercaseAscii b.name ≠ Text.lowercaseAscii a.name) ++ [a]⟩

/-- The first agent whose name has the lower-case form of `name`. -/
def find? (r : Roster) (name : String) : Option Agent :=
  r.agents.find? fun a => Text.lowercase a.name == Text.lowercase name

/-- A roster as a place to look agents up. -/
instance : Coe Roster AgentRegistry :=
  ⟨fun r => ⟨r.find?⟩⟩

/-- The names of the agents, in order. -/
def names (r : Roster) : List String :=
  r.agents.map Agent.name

/-- The agents that a shell knows from the start. -/
def family : Roster where
  agents :=
    [⟨"LYRA", "The Architect", "Clarity through structure.",
        ["Design patterns implementation", "Code maintainability", "Dependency management"]⟩,
      ⟨"KARA", "The Builder", "Efficiency in execution.",
        ["Performance optimization", "Code quality and best practices"]⟩,
      ⟨"SOPHIA", "The Guardian", "Resilience by design.",
        ["Security considerations", "Testing coverage", "Error handling"]⟩,
      ⟨"CECILIA", "The Documentarian", "Knowledge must be shared.", ["Documentation quality"]⟩,
      ⟨"DAN", "The Analyst", "Data-driven decisions.",
        ["Edge cases consideration", "Performance optimization"]⟩,
      ⟨"STAN", "The Traditionalist", "Proven patterns prevail.",
        ["Code quality and best practices", "Design patterns"]⟩,
      ⟨"DUDE", "The User Advocate", "The experience is everything.",
        ["Code maintainability", "UI/UX"]⟩,
      ⟨"KARL", "The Innovator", "Challenge the status quo.",
        ["Performance optimization", "Dependency management"]⟩,
      ⟨"MISTRESS", "The Orchestrator", "Harmony in complexity.",
        ["Dependency management", "Workflow Automation"]⟩]

end Roster

end AgentShell
