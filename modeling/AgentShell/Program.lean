import AgentShell.Keys.Stream
import AgentShell.Options
import AgentShell.Settings.Document
import AgentShell.Shell.Timed

/-!
# The program

The program starts a shell with the settings of a file and of its arguments. It runs the lines that
the arguments name, or else the input, as if it were typed. All that it writes is a function of its
arguments, the settings file and the input.

## Main definitions

* `Options.settings`: the settings that options stand for
* `Settings.shell`: the shell with given settings
* `Program.script`, `Program.dialogue`: what a shell writes for lines and for an input
* `Program.run`: the result of the program
-/

namespace AgentShell

/-- Settings with those of the options in place of their own. -/
def Options.apply (o : Options) (s : Settings) : Settings :=
  { s with
    home := o.home.getD s.home
    color := s.color && !o.plain
    instructions :=
      { system := o.system.getD s.instructions.system
        behavior := o.behavior.getD s.instructions.behavior
        user := o.user.getD s.instructions.user } }

/-- **The settings that options stand for**, if they are valid. `load` gives the content of the file
at a path, or the reason why it cannot be read. -/
def Options.settings (load : String → Except String ByteArray) (o : Options) :
    Except SettingsError Settings := do
  let own ← match o.config with
    | some path => Settings.ofFile path (load path)
    | none => .ok {}
  (o.apply own).validate

namespace Settings

/-- The generator of a shell with given settings. -/
def generator (s : Settings) : Generator :=
  .persona s.delay

/-- **The shell with given settings**, in a tree. -/
def shell (s : Settings) (tree : Tree) : Shell :=
  .fresh (.enter tree s.home) s.label ⟨s.color⟩ true
    { instructions := s.instructions, limit := s.limit }

end Settings

namespace Program

/-- What is left of a program when it has ended. -/
structure Result where
  code : Nat
  output : String := ""
  /-- The line about what went wrong. -/
  error : String := ""
deriving DecidableEq, Repr

/-- The calls that draw the outputs of lines, each run by itself. -/
def script (generator : Generator) (s : Shell) : List String → List DisplayCall
  | [] => []
  | line :: lines =>
    match s.runLine generator line with
    | some (s, _, calls) => calls ++ script generator s lines
    | none => []

/-- **The calls that draw a dialogue**: the keys of an input, then all that runs on after them, and
a last line end. -/
def dialogue (generator : Generator) (s : Shell) (keys : List Key) : List DisplayCall :=
  let typed := TimedShell.run { shell := s, generator } (keys.map .key)
  Shell.calls (s.opening ++ typed.2 ++ typed.1.drain.2) ++ [.line ""]

/-- The name and the version of the program. -/
def version : String :=
  "cuag-shell 0.1.0\n"

/-- How the program is used. -/
def help : String :=
  "\n".intercalate
    ["CUAG agent terminal over an in-memory filesystem", "",
      "Usage: cuag-shell [OPTIONS]", "",
      "Options:",
      "      --config <CONFIG>  Shell configuration file (TOML)",
      "      --home <HOME>      Starting directory and target of a bare `cd`",
      "      --no-color         Disable ANSI colours",
      "      --system <SYSTEM>  System persona instruction",
      "      --ai <AI>          AI behaviour instruction",
      "      --user <USER>      User context instruction",
      "  -c <COMMANDS>          Run a command line and exit (may be repeated)",
      "  -v, --verbose          Log debug output to stderr",
      "  -h, --help             Print help",
      "  -V, --version          Print version", ""]

/-- **The result of the program.** -/
def run (load : String → Except String ByteArray) (args : List String) (input : List UInt8) :
    Result :=
  match Options.parse args with
  | .error .misuse => { code := 2 }
  | .error .version => { code := 0, output := version }
  | .error .help => { code := 0, output := help }
  | .ok options =>
    match options.settings load with
    | .error e => { code := 1, error := s!"Error: {e.message}" }
    | .ok s =>
      let shell := s.shell .initial
      let calls :=
        if options.lines.isEmpty then
          dialogue s.generator shell (keysOfStream [.octets input])
        else script s.generator shell options.lines
      { code := 0, output := terminalText calls }

end Program

end AgentShell
