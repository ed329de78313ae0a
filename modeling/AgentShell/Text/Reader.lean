/-!
# Readers

A reader takes a value from the front of a text or fails. What comes behind a failure is read from
the same place, so an alternative starts where the failed reader started.

## Main definitions

* `Text.Reader`: readers
* `Text.Reader.satisfying`, `Text.Reader.literal`, `Text.Reader.spanOf`: pieces of the text
* `Text.Reader.many`, `Text.Reader.separated`: repetition
* `Text.Reader.written`: the text that a reader takes
* `Text.hexDigits`: a number of hexadecimal digits
-/

namespace AgentShell.Text

/-- A reader takes a value from the front of a text or fails. -/
abbrev Reader := StateT (List Char) Option

namespace Reader

variable {α : Type}

/-- A character that satisfies a condition. -/
def satisfying (p : Char → Bool) : Reader Char
  | [] => none
  | c :: cs => if p c then some (c, cs) else none

/-- The given characters. -/
def literal : List Char → Reader Unit
  | [], input => some ((), input)
  | _ :: _, [] => none
  | c :: cs, d :: input => if c = d then literal cs input else none

/-- The given character. -/
def char (c : Char) : Reader Unit :=
  literal [c]

/-- The longest run of characters that satisfy a condition. -/
def spanOf (p : Char → Bool) : Reader (List Char) :=
  fun input => some (input.takeWhile p, input.dropWhile p)

/-- The longest run of at least one character that satisfies a condition. -/
def spanOf1 (p : Char → Bool) : Reader (List Char) := do
  let run ← spanOf p
  guard (!run.isEmpty)
  pure run

/-- The end of the text. -/
def atEnd : Reader Unit
  | [] => some ((), [])
  | _ :: _ => none

/-- Succeeds without taking anything if the next character satisfies a condition. -/
def ahead (p : Char → Bool) : Reader Unit
  | [] => none
  | c :: cs => if p c then some ((), c :: cs) else none

/-- As often as the reader succeeds, but at most `n` times. -/
def upTo (r : Reader α) : Nat → Reader (List α)
  | 0 => pure []
  | n + 1 => (do
      let a ← r
      let as ← upTo r n
      pure (a :: as))
    <|> pure []

/-- **As often as the reader succeeds.** A reader that takes at least a character succeeds no more
often than the text has characters. -/
def many (r : Reader α) : Reader (List α) :=
  fun input => upTo r input.length input

/-- At least once, and as often as the reader succeeds. -/
def many1 (r : Reader α) : Reader (List α) := do
  let a ← r
  let as ← many r
  pure (a :: as)

/-- At least one value, with separators in between. -/
def separated (r : Reader α) (separator : Reader Unit) : Reader (List α) := do
  let a ← r
  let as ← many (do
    separator
    r)
  pure (a :: as)

/-- The text that a reader takes. -/
def written (r : Reader α) : Reader (List Char) :=
  fun input => (r input).map fun (_, rest) => (input.take (input.length - rest.length), rest)

/-- All that a reader makes of a text that it takes to the end. -/
def readAll (r : Reader α) (text : List Char) : Option α :=
  match r text with
  | some (a, []) => some a
  | _ => none

end Reader

open Reader

/-- The value of a hexadecimal digit. -/
def hexDigit? (c : Char) : Option Nat :=
  if '0' ≤ c ∧ c ≤ '9' then some (c.toNat - '0'.toNat)
  else if 'a' ≤ c ∧ c ≤ 'f' then some (c.toNat - 'a'.toNat + 10)
  else if 'A' ≤ c ∧ c ≤ 'F' then some (c.toNat - 'A'.toNat + 10)
  else none

/-- A number of hexadecimal digits. -/
def hexDigits : Nat → Nat → Reader Nat
  | 0, value => pure value
  | n + 1, value => do
    let c ← satisfying fun c => (hexDigit? c).isSome
    hexDigits n (16 * value + (hexDigit? c).getD 0)

end AgentShell.Text
