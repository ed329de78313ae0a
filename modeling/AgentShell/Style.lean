import AgentShell.Output

/-!
# Styles

How the lines of an output and the prompt are drawn: plain, or with colours that tell the roles
apart. A colour is switched on and off again by escape sequences around the coloured text.

## Main definitions

* `Color`, `Color.paint`: the colours, and a text in a colour
* `Style.prompt`: the prompt of a working directory
* `Style.line`: a line of output
-/

namespace AgentShell

/-- The colours of the shell. -/
inductive Color where
  | red
  | green
  | yellow
  | blue
  | cyan
deriving DecidableEq, Repr

/-- The parameter that switches the colour on. -/
def Color.code : Color → String
  | .red => "31"
  | .green => "32"
  | .yellow => "33"
  | .blue => "34"
  | .cyan => "36"

/-- A text between the sequences that switch the colour on and off. -/
def Color.paint (c : Color) (text : String) : String :=
  "\x1b[" ++ c.code ++ "m" ++ text ++ "\x1b[39m"

/-- How a session is drawn. -/
structure Style where
  color : Bool := true
deriving DecidableEq, Repr

namespace Style

/-- A text in a colour, if the style has colours. -/
def paint (s : Style) (c : Color) (text : String) : String :=
  if s.color then c.paint text else text

/-- **The prompt**: the label, the working directory, and a sign that input is awaited. -/
def prompt (s : Style) (label cwd : String) : String :=
  s.paint .cyan (label ++ ":" ++ cwd ++ "> ")

/-- The colour of an entry in a listing. -/
def entryColor (e : Entry) : Color :=
  match e.kind with
  | .directory => .blue
  | .file => .green

/-- A line of output with its role in colour. -/
def colored : OutputLine → String
  | .text s => s
  | .heading s => Color.yellow.paint s
  | .labeled label s => "  " ++ Color.green.paint label ++ s
  | .status s => Color.yellow.paint "STATUS:" ++ " " ++ s
  | .listing entries =>
    OutputLine.gap.intercalate (entries.map fun e => (entryColor e).paint e.label)
  | .error s => Color.red.paint s

/-- **A line of output** as the style draws it. -/
def line (s : Style) (l : OutputLine) : String :=
  if s.color then colored l else l.plain

end Style

end AgentShell
