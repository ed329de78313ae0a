import AgentShell.Keys.Basic
import AgentShell.Text.Class

/-!
# Keys of a line

A line of text stands for the keys that type it on a terminal, with Enter at the end. Backspace and
delete erase, the escape sequences of the arrow keys recall the history, and every other escape
sequence and control character is dropped. The decoder is a machine over single characters.

## Main definitions

* `LineMode`: where in an escape sequence a character stands
* `LineMode.step`: one character
* `keysOfLine`: the keys of a line
-/

namespace AgentShell

/-- Where a character stands: outside every sequence, behind an escape character, or inside a
sequence that runs up to its final character. -/
inductive LineMode where
  | ground
  | escape
  | sequence
deriving DecidableEq, Repr

namespace LineMode

/-- A character that ends an escape sequence. -/
def isFinal (c : Char) : Bool :=
  '@' ≤ c && c ≤ '~'

/-- The key of a sequence with the given final character. -/
def finalKey (c : Char) : List Key :=
  if c = 'A' then [.up] else if c = 'B' then [.down] else []

/-- One character outside every sequence. -/
def plainStep (c : Char) : LineMode × List Key :=
  if c = '\x7f' ∨ c = '\x08' then (.ground, [.backspace])
  else if c = '\x1b' then (.escape, [])
  else if Text.isControl c then (.ground, [])
  else (.ground, [.char c])

/-- **One character**: the mode after it, and the keys that it completes. An escape character that
opens no sequence is dropped alone. -/
def step : LineMode → Char → LineMode × List Key
  | .ground, c => plainStep c
  | .escape, c => if c = '[' ∨ c = 'O' then (.sequence, []) else plainStep c
  | .sequence, c => if isFinal c then (.ground, finalKey c) else (.sequence, [])

/-- The keys of the characters after a mode. -/
def keys (m : LineMode) : List Char → List Key
  | [] => []
  | c :: cs => (m.step c).2 ++ (m.step c).1.keys cs

end LineMode

/-- **The keys of a line**, with Enter at the end. -/
def keysOfLine (line : List Char) : List Key :=
  LineMode.ground.keys line ++ [.enter]

end AgentShell
