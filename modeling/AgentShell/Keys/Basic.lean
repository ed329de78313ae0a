/-!
# Keys

The keys that line editing tells apart, and what the key presses of a terminal mean for it.

## Main definitions

* `Key`: the keys of line editing
* `KeyPress`: a key press as a terminal reports it
* `KeyPress.meaning`: the key that a press stands for, the end of input, or nothing
-/

namespace AgentShell

/-- A key of line editing. -/
inductive Key where
  | char (c : Char)
  | enter
  | backspace
  | up
  | down
deriving DecidableEq, Repr

/-- The keys of a keyboard. -/
inductive KeyCode where
  | char (c : Char)
  | function (n : Nat)
  | enter
  | backspace
  | up
  | down
  | left
  | right
  | tab
  | backTab
  | delete
  | insert
  | lineHome
  | lineEnd
  | pageUp
  | pageDown
  | escape
  | null
deriving DecidableEq, Repr

/-- Whether a key goes down, stays down or comes up. -/
inductive KeyPhase where
  | press
  | again
  | release
deriving DecidableEq, Repr

/-- A key press as a terminal reports it. Of the modifiers only one matters. -/
structure KeyPress where
  code : KeyCode
  control : Bool := false
  phase : KeyPhase := .press
deriving DecidableEq, Repr

/-- What a key press means for line editing. -/
inductive KeyMeaning where
  | key (k : Key)
  /-- The end of the input. -/
  | quit
  | ignore
deriving DecidableEq, Repr

/-- **The meaning of a key press.** A key that comes up means nothing; with the control key, `c`
and `d` end the input and every other key means nothing. -/
def KeyPress.meaning (p : KeyPress) : KeyMeaning :=
  if p.phase = .release then .ignore
  else if p.control then
    if p.code = .char 'c' ∨ p.code = .char 'd' then .quit else .ignore
  else match p.code with
    | .char c => .key (.char c)
    | .enter => .key .enter
    | .backspace => .key .backspace
    | .up => .key .up
    | .down => .key .down
    | _ => .ignore

end AgentShell
