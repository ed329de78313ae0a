import AgentShell.Text.Reader

/-!
# Numbers

Integers are decimal with an optional sign, or hexadecimal, octal or binary without one, and have
64 bits. A float has a fraction or an exponent. An underscore may stand between two digits.

## Main definitions

* `Toml.integer`: an integer
* `Toml.float`: a float, as it is written
-/

namespace AgentShell.Toml

open Text (Reader)
open Text.Reader

/-- The value of a digit, by its place among `0` to `9` and `a` to `f`. -/
def digitValue (c : Char) : Nat :=
  if c.isDigit then c.toNat - '0'.toNat else c.toLower.toNat - 'a'.toNat + 10

/-- The number with the given digits. -/
def ofDigits (base : Nat) (digits : List Char) : Nat :=
  digits.foldl (fun n c => base * n + digitValue c) 0

/-- A digit to a base. -/
def isDigitOf (base : Nat) (c : Char) : Bool :=
  (c.isDigit || 'a' ≤ c.toLower && c.toLower ≤ 'f') && digitValue c < base

/-- Digits to a base, with underscores between them that do not count. -/
def digits (base : Nat) : Reader (List Char) := do
  let first ← satisfying (isDigitOf base)
  let more ← many ((do
      let _ ← optional (char '_')
      satisfying (isDigitOf base)))
  pure (first :: more)

/-- Decimal digits that do not start with a zero, unless there is only one. -/
def plainDigits : Reader (List Char) :=
  (do
    ahead fun c => c.isDigit && c != '0'
    digits 10)
  <|> (do
    char '0'
    pure ['0'])

/-- A sign, and whether it is a minus. -/
def sign : Reader Bool := do
  let c ← optional (satisfying fun c => c == '+' || c == '-')
  pure (c == some '-')

/-- A number that fits into 64 bits with a sign. -/
def fits (n : Int) : Bool :=
  -9223372036854775808 ≤ n && n ≤ 9223372036854775807

/-- An integer with a base of its own. -/
def basedInteger : Reader Int := do
  char '0'
  let c ← satisfying fun _ => true
  let base ← match c with
    | 'x' => pure 16
    | 'o' => pure 8
    | 'b' => pure 2
    | _ => failure
  let ds ← digits base
  pure (ofDigits base ds)

/-- A decimal integer. -/
def decimalInteger : Reader Int := do
  let negative ← sign
  let n := ofDigits 10 (← plainDigits)
  pure (if negative then -n else n)

/-- **An integer.** -/
def integer : Reader Int := do
  let n ← basedInteger <|> decimalInteger
  guard (fits n)
  pure n

/-- The exponent of a float. -/
def exponent : Reader Int := do
  let _ ← satisfying fun c => c == 'e' || c == 'E'
  let negative ← sign
  let n := ofDigits 10 (← digits 10)
  pure (if negative then -n else n)

/-- A float without its sign: the digits of the whole part, those of the fraction, and the
exponent. -/
structure Magnitude where
  whole : List Char
  fraction : List Char
  exponent : Int

/-- A fraction, with its point. -/
def fraction : Reader (List Char) := do
  char '.'
  digits 10

/-- A float without its sign. -/
def magnitude : Reader Magnitude := do
  let whole ← plainDigits
  (do
      let e ← exponent
      pure ⟨whole, [], e⟩)
    <|> (do
      let f ← fraction
      let e ← optional exponent
      pure ⟨whole, f, e.getD 0⟩)

/-- The least number that is nearer to two to the power of 1024 than to the greatest finite number
of 53 binary digits, or as near. -/
def overflowThreshold : Nat :=
  Nat.pow 2 1024 - Nat.pow 2 970

/-- The number is too great for 64 bits of floating point. The comparison is made in whole numbers;
one of more than 309 digits is too great and one of less is not. -/
def Magnitude.overflows (m : Magnitude) : Bool :=
  let ds := (m.whole ++ m.fraction).dropWhile (· == '0')
  let places : Int := ds.length - m.fraction.length + m.exponent
  if ds.isEmpty || places < 309 then false
  else if 309 < places then true
  else
    overflowThreshold * Nat.pow 10 (ds.length - 309) ≤ ofDigits 10 ds * Nat.pow 10 (309 - ds.length)

/-- **A float.** One that is too great is refused, unless it is negative. -/
def float : Reader Unit := do
  let negative ← sign
  (do
      let m ← magnitude
      guard (negative || !m.overflows))
    <|> literal ['i', 'n', 'f'] <|> literal ['n', 'a', 'n']

end AgentShell.Toml
