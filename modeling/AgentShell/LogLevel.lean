import AgentShell.Text.Lowercase

/-!
# Log levels

## Main definitions

* `LogLevel`: how much is logged
* `LogLevel.usual`: the level where the environment asks for none
-/

namespace AgentShell

/-- How much is logged. -/
inductive LogLevel where
  | debug
  | warn
deriving DecidableEq, Repr

namespace LogLevel

/-- The name of a level. -/
def name : LogLevel → String
  | .debug => "DEBUG"
  | .warn => "WARN"

/-- The directive that lets messages of a level and above pass. -/
def directive (l : LogLevel) : String :=
  Text.lowercase l.name

/-- The level where the environment asks for none. -/
def usual (verbose : Bool) : LogLevel :=
  if verbose then .debug else .warn

end LogLevel

end AgentShell
