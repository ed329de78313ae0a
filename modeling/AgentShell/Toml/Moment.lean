import AgentShell.Text.Reader

/-!
# Points in time

A date, a time of day, or both with an optional offset. Every part has its range, and a day has to
be one of its month.

## Main definitions

* `Toml.daysOf`: how many days a month has
* `Toml.moment`: a date, a time of day, or both
-/

namespace AgentShell.Toml

open Text (Reader)
open Text.Reader

/-- A number of decimal digits as a number. -/
def fixedDigits : Nat → Nat → Reader Nat
  | 0, value => pure value
  | n + 1, value => do
    let c ← satisfying Char.isDigit
    fixedDigits n (10 * value + (c.toNat - '0'.toNat))

/-- Two digits with a value from `low` to `high`. -/
def twoDigits (low high : Nat) : Reader Nat := do
  let n ← fixedDigits 2 0
  guard (low ≤ n && n ≤ high)
  pure n

/-- Every fourth year is a leap year, of the centuries only every fourth. -/
def isLeapYear (year : Nat) : Bool :=
  year % 4 == 0 && (year % 100 != 0 || year % 400 == 0)

/-- How many days a month has. -/
def daysOf (year month : Nat) : Nat :=
  if month = 2 then if isLeapYear year then 29 else 28
  else if month = 4 ∨ month = 6 ∨ month = 9 ∨ month = 11 then 30
  else 31

/-- A date. -/
def date : Reader Unit := do
  let year ← fixedDigits 4 0
  char '-'
  let month ← twoDigits 1 12
  char '-'
  let _ ← twoDigits 1 (daysOf year month)

/-- A time of day; a minute may have a leap second. -/
def timeOfDay : Reader Unit := do
  let _ ← twoDigits 0 23
  char ':'
  let _ ← twoDigits 0 59
  char ':'
  let _ ← twoDigits 0 60
  let _ ← optional (do
    char '.'
    spanOf1 Char.isDigit)

/-- What a time differs by from universal time. -/
def timeOffset : Reader Unit :=
  (do
    let _ ← satisfying fun c => c == 'Z' || c == 'z')
  <|> (do
    let _ ← satisfying fun c => c == '+' || c == '-'
    let _ ← twoDigits 0 23
    char ':'
    let _ ← twoDigits 0 59)

/-- **A point in time**: a date that a time of day may follow, or a time of day. -/
def moment : Reader Unit :=
  (do
    date
    let _ ← optional (do
      let _ ← satisfying fun c => c == 'T' || c == 't' || c == ' '
      timeOfDay
      optional timeOffset))
  <|> timeOfDay

end AgentShell.Toml
