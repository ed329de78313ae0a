import AgentShell.Text.Words

/-!
# Displays

A session draws by calls: it writes a line, writes text, or clears. What a call means depends on
the display. A screen keeps the visible text and carries out backspaces; a terminal is sent
characters.

## Main definitions

* `DisplayCall`: the calls
* `Screen.draw`: what a call does to the visible text
* `DisplayCall.terminal`: what a call sends to a terminal
* `eraseChar`: the text that erases one character in front of the cursor
-/

namespace AgentShell

/-- What a session asks of a display. -/
inductive DisplayCall where
  /-- Write a text and end the line. -/
  | line (text : String)
  /-- Write a text and stay on the line. -/
  | write (text : String)
  /-- Erase everything written so far. -/
  | clear
deriving DecidableEq, Repr

/-- The text that erases one character in front of the cursor: step back, blank it, step back. -/
def eraseChar : String :=
  "\x08 \x08"

/-- A text a number of times over. -/
def repeatText (n : Nat) (s : String) : String :=
  String.join (List.replicate n s)

/-- The visible text since the last clearing. -/
structure Screen where
  text : String := ""
deriving DecidableEq, Repr

namespace Screen

/-- The screen after one character. A backspace takes back the last character of the line and stops
at the start of the line. -/
def putChar (s : Screen) (c : Char) : Screen :=
  if c = '\x08' then
    if s.text.toList.getLast? = some '\n' then s else ⟨Text.init s.text⟩
  else ⟨s.text.push c⟩

/-- The screen after the characters of a text. -/
def put (s : Screen) (text : String) : Screen :=
  text.toList.foldl putChar s

/-- **The screen after a call.** -/
def draw (s : Screen) : DisplayCall → Screen
  | .line text => ⟨(s.put text).text.push '\n'⟩
  | .write text => s.put text
  | .clear => {}

/-- The screen after calls in turn. -/
def drawAll (s : Screen) (calls : List DisplayCall) : Screen :=
  calls.foldl draw s

end Screen

/-- What a call sends to a terminal that leaves line ends alone: a line ends with a carriage return
and a line feed, and clearing takes the cursor to the upper left corner. -/
def DisplayCall.terminal : DisplayCall → String
  | .line text => text ++ "\r\n"
  | .write text => text
  | .clear => "\x1b[2J\x1b[1;1H"

/-- What calls in turn send to a terminal. -/
def terminalText (calls : List DisplayCall) : String :=
  String.join (calls.map DisplayCall.terminal)

end AgentShell
