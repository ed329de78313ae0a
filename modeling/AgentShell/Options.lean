/-!
# Command line options

The arguments of the program are options with a value, flags, or clusters of flags of one letter.
They are read from left to right, and the first that is wrong, or that asks for the version or the
help, decides.

## Main definitions

* `Options`: what the arguments set
* `Options.Stop`: why the arguments start no shell
* `Options.parse`: the options that arguments stand for
-/

namespace AgentShell

/-- What the arguments of the program set. -/
structure Options where
  /-- The path of a settings file. -/
  config : Option String := none
  home : Option String := none
  /-- No colours. -/
  plain : Bool := false
  system : Option String := none
  behavior : Option String := none
  user : Option String := none
  /-- The lines to run in place of the input. -/
  lines : List String := []
  verbose : Bool := false
deriving DecidableEq, Repr

namespace Options

/-- Why arguments start no shell. -/
inductive Stop where
  /-- They are wrong. -/
  | misuse
  | version
  | help
deriving DecidableEq, Repr

/-- An option that takes a value. -/
inductive Setting where
  | config
  | home
  | system
  | behavior
  | user
  | line
deriving DecidableEq, Repr

/-- An option that takes none. -/
inductive Flag where
  | plain
  | verbose
  | version
  | help
deriving DecidableEq, Repr

/-- An option. -/
inductive Switch where
  | setting (s : Setting)
  | flag (f : Flag)
deriving DecidableEq, Repr

/-- The options behind two dashes. -/
def longName? : String → Option Switch
  | "config" => some (.setting .config)
  | "home" => some (.setting .home)
  | "system" => some (.setting .system)
  | "ai" => some (.setting .behavior)
  | "user" => some (.setting .user)
  | "no-color" => some (.flag .plain)
  | "verbose" => some (.flag .verbose)
  | "version" => some (.flag .version)
  | "help" => some (.flag .help)
  | _ => none

/-- The options behind one dash. -/
def shortName? : Char → Option Switch
  | 'c' => some (.setting .line)
  | 'v' => some (.flag .verbose)
  | 'V' => some (.flag .version)
  | 'h' => some (.flag .help)
  | _ => none

/-- A value that may be given once. -/
def once (old : Option String) (value : String) : Except Stop (Option String) :=
  if old.isSome then .error .misuse else .ok (some value)

/-- The options with a value. Only lines may be given more than once, and the path of the settings
file may not be empty. -/
def set (o : Options) (value : String) : Setting → Except Stop Options
  | .config => do
    let config ← once o.config value
    if value = "" then .error .misuse else .ok { o with config }
  | .home => do .ok { o with home := ← once o.home value }
  | .system => do .ok { o with system := ← once o.system value }
  | .behavior => do .ok { o with behavior := ← once o.behavior value }
  | .user => do .ok { o with user := ← once o.user value }
  | .line => .ok { o with lines := o.lines ++ [value] }

/-- The options with a flag, which may be given once. -/
def raise (o : Options) : Flag → Except Stop Options
  | .plain => if o.plain then .error .misuse else .ok { o with plain := true }
  | .verbose => if o.verbose then .error .misuse else .ok { o with verbose := true }
  | .version => .error .version
  | .help => .error .help

/-- An option behind two dashes, and the setting whose value is the next argument. -/
def long (o : Options) (body : List Char) : Except Stop (Options × Option Setting) :=
  let name := String.ofList (body.takeWhile (· != '='))
  match longName? name, body.dropWhile (· != '=') with
  | some (.setting s), [] => .ok (o, some s)
  | some (.setting s), _ :: value => do .ok (← o.set (String.ofList value) s, none)
  | some (.flag f), [] => do .ok (← o.raise f, none)
  | _, _ => .error .misuse

/-- The options behind one dash, and the setting whose value is the next argument. What follows a
setting is its value, with or without a sign in between. -/
def short (o : Options) : List Char → Except Stop (Options × Option Setting)
  | [] => .ok (o, none)
  | c :: cs =>
    match shortName? c with
    | some (.flag f) => do short (← o.raise f) cs
    | some (.setting s) =>
      match cs with
      | [] => .ok (o, some s)
      | '=' :: value => do .ok (← o.set (String.ofList value) s, none)
      | value => do .ok (← o.set (String.ofList value) s, none)
    | none => .error .misuse

/-- One argument, and the setting whose value is the next. -/
def argument (o : Options) (arg : String) : Except Stop (Options × Option Setting) :=
  match arg.toList with
  | '-' :: '-' :: body => o.long body
  | '-' :: c :: cs => o.short (c :: cs)
  | _ => .error .misuse

/-- An argument that may be the value of the option in front of it. -/
def isValue (arg : String) : Bool :=
  arg = "-" || arg.toList.head? != some '-'

/-- The options with arguments. Two dashes end the options, and nothing may follow them. -/
def parseFrom (o : Options) : List String → Except Stop Options
  | [] => .ok o
  | arg :: args =>
    if arg = "--" then if args.isEmpty then .ok o else .error .misuse
    else
      match o.argument arg, args with
      | .error stop, _ => .error stop
      | .ok (o, none), args => parseFrom o args
      | .ok (_, some _), [] => .error .misuse
      | .ok (o, some s), value :: rest =>
        if isValue value then
          match o.set value s with
          | .ok o => parseFrom o rest
          | .error stop => .error stop
        else .error .misuse

/-- **The options that arguments stand for.** -/
def parse (args : List String) : Except Stop Options :=
  parseFrom {} args

end Options

end AgentShell
