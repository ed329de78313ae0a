import AgentShell.Generator
import AgentShell.Instructions
import AgentShell.Tree.Layout

/-!
# Settings

What a host can set about a shell. Settings are valid if the home directory is an absolute path and
the label of the prompt is not blank.

## Main definitions

* `Settings`: what can be set, and what it is where nothing is set
* `SettingsError`: why there are no settings, and `SettingsError.message`
* `Settings.validate`: the check
-/

namespace AgentShell

/-- What can be set about a shell. -/
structure Settings where
  /-- The directory that a session starts in and that a bare `cd` goes to. -/
  home : String := Layout.initialHome
  /-- The text at the start of the prompt. -/
  label : String := "CUAG"
  color : Bool := true
  /-- How many milliseconds a task waits for its reply. -/
  limit : Option Nat := none
  /-- How many milliseconds the generator takes to reply. -/
  delay : Nat := Generator.usualDelay
  instructions : Instructions := {}
deriving DecidableEq, Repr

/-- Why there are no settings. -/
inductive SettingsError where
  /-- The file at a path cannot be read. -/
  | unreadable (path cause : String)
  /-- The text is no document, or a value in it is not of its kind. -/
  | malformed
  | relativeHome (home : String)
  | blankLabel
deriving DecidableEq, Repr

/-- The text of an error. -/
def SettingsError.message : SettingsError → String
  | .unreadable path cause => s!"cannot read config file '{path}': {cause}"
  | .malformed => "invalid config"
  | .relativeHome home => s!"invalid config: home must be an absolute path, got '{home}'"
  | .blankLabel => "invalid config: prompt_label must not be empty"

/-- **The settings themselves, if they are valid.** The home directory is checked first. -/
def Settings.validate (s : Settings) : Except SettingsError Settings :=
  if !Path.isAbsolute s.home then .error (.relativeHome s.home)
  else if Text.isBlankText s.label then .error .blankLabel
  else .ok s

end AgentShell
