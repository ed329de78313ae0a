import AgentShell.Keys.Line
import AgentShell.Text.Utf8

/-!
# Keys of a stream

Piped input arrives as octets in arbitrary pieces. Each line of it, once it is complete, stands for
the keys that type it. Octets that are no text become replacement characters, line ends are dropped
whatever their form, and a last line without a line end counts unless the input broke off.

## Main definitions

* `Arrival`: what reading the input gives
* `keysOfOctets`: the keys of one line of octets
* `keysOfStream`: the keys of an input
-/

namespace AgentShell

/-- What one attempt to read the input gives. -/
inductive Arrival where
  | octets (bs : List UInt8)
  /-- The attempt was interrupted; nothing is lost. -/
  | interrupted
  /-- The input broke off. -/
  | failed
deriving DecidableEq, Repr

/-- The line feed, which ends a line. -/
def lineFeed : UInt8 := 10

/-- The text without the line feeds and carriage returns at its end. -/
def trimLineEnd (line : List Char) : List Char :=
  (line.reverse.dropWhile fun c => c == '\n' || c == '\r').reverse

/-- The keys of one line of octets. -/
def keysOfOctets (line : List UInt8) : List Key :=
  keysOfLine (trimLineEnd (Text.Utf8.decode line))

/-- Octets read on: the keys of the lines that they complete, and the octets of the line that is
not complete. `line` holds the octets of the line so far. -/
def readOctets (line : List UInt8) : List UInt8 → List Key × List UInt8
  | [] => ([], line)
  | b :: bs =>
    if b = lineFeed then
      let (keys, rest) := readOctets [] bs
      (keysOfOctets (line ++ [b]) ++ keys, rest)
    else readOctets (line ++ [b]) bs

/-- The keys of an input behind the octets `line` of a line that is not complete. -/
def keysOfArrivals (line : List UInt8) : List Arrival → List Key
  | [] => if line = [] then [] else keysOfOctets line
  | .octets bs :: rest => (readOctets line bs).1 ++ keysOfArrivals (readOctets line bs).2 rest
  | .interrupted :: rest => keysOfArrivals line rest
  | .failed :: _ => []

/-- **The keys of an input.** -/
def keysOfStream (arrivals : List Arrival) : List Key :=
  keysOfArrivals [] arrivals

end AgentShell
