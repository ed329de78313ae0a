import AgentShell.Text.Reader

/-!
# JSON documents

What a text means as a JSON document, if it is one. A document is a value with white space around
it. Objects keep their members in the order in which they are written, and numbers stay as they are
written. Characters in a text stand for themselves or are written with a backslash; those beyond the
first 65536 are written in two halves, and a half alone is no character.

## Main definitions

* `Json`: the values of documents
* `JsonReader.character`, `JsonReader.text`: the characters of a text, and the text in its quotes
* `JsonReader.value`: a value, by how deep it may be nested
* `Json.decode?`: the value of a document
-/

namespace AgentShell

/-- The values of documents. -/
inductive Json where
  | null
  | boolean (b : Bool)
  | number (written : String)
  | string (text : String)
  | array (items : List Json)
  | object (members : List (String × Json))

namespace JsonReader

open Text (Reader hexDigits)
open Text.Reader

/-- White space between the parts of a document. -/
def isBlank (c : Char) : Bool :=
  c == ' ' || c == '\t' || c == '\n' || c == '\r'

/-- White space, if there is some. -/
def blanks : Reader Unit := do
  let _ ← spanOf isBlank

/-- The given character, and white space in front of it. -/
def mark (c : Char) : Reader Unit := do
  blanks
  char c

/-- A character that stands for itself inside a text: no control character below the space, no quote
and no backslash. -/
def isPlain (c : Char) : Bool :=
  0x20 ≤ c.toNat && c != '"' && c != '\\'

/-- The character of a code of four hexadecimal digits, or of the two halves of one. -/
def coded : Reader Char := do
  let code ← hexDigits 4 0
  if 0xD800 ≤ code ∧ code < 0xDC00 then do
    literal ['\\', 'u']
    let low ← hexDigits 4 0
    guard (0xDC00 ≤ low ∧ low < 0xE000)
    pure (Char.ofNat (0x10000 + 0x400 * (code - 0xD800) + (low - 0xDC00)))
  else do
    guard code.isValidChar
    pure (Char.ofNat code)

/-- The character that is written with a backslash. -/
def escaped : Reader Char := do
  char '\\'
  let c ← satisfying fun _ => true
  match c with
  | '"' => pure '"'
  | '\\' => pure '\\'
  | '/' => pure '/'
  | 'b' => pure '\x08'
  | 'f' => pure '\x0c'
  | 'n' => pure '\n'
  | 'r' => pure '\r'
  | 't' => pure '\t'
  | 'u' => coded
  | _ => failure

/-- **A character inside a text.** -/
def character : Reader Char :=
  satisfying isPlain <|> escaped

/-- **A text in quotes.** -/
def text : Reader String := do
  char '"'
  let cs ← many character
  char '"'
  pure (String.ofList cs)

/-- The digits of a number. -/
def digits : Reader (List Char) :=
  spanOf1 Char.isDigit

/-- A number: a whole part without a zero in front, and a fraction and an exponent if there are. -/
def number : Reader String := do
  let cs ← written (do
    let _ ← optional (char '-')
    char '0' <|> (do
      ahead (· != '0')
      let _ ← digits)
    let _ ← optional (do
      char '.'
      digits)
    let _ ← optional (do
      let _ ← satisfying fun c => c == 'e' || c == 'E'
      let _ ← optional (satisfying fun c => c == '+' || c == '-')
      digits))
  pure (String.ofList cs)

/-- A value without others in it. -/
def scalar : Reader Json :=
  (do
    let s ← text
    pure (.string s))
  <|> (do
    let n ← number
    pure (.number n))
  <|> (do
    literal ['t', 'r', 'u', 'e']
    pure (.boolean true))
  <|> (do
    literal ['f', 'a', 'l', 's', 'e']
    pure (.boolean false))
  <|> (do
    literal ['n', 'u', 'l', 'l']
    pure .null)

/-- Whatever is read, any number of times, between two characters, with commas in between. -/
def enclosed {α : Type} (opening closing : Char) (r : Reader α) : Reader (List α) := do
  char opening
  (do
    mark closing
    pure [])
  <|> (do
    let as ← separated r (mark ',')
    mark closing
    pure as)

/-- A member of an object: its key, and its value by a reader for values. -/
def member (r : Reader Json) : Reader (String × Json) := do
  blanks
  let key ← text
  mark ':'
  let v ← r
  pure (key, v)

/-- **A value** with at most the given number of arrays and objects around any other. -/
def value : Nat → Reader Json
  | 0 => do
    blanks
    scalar
  | depth + 1 => do
    blanks
    scalar
      <|> (do
        let items ← enclosed '[' ']' (value depth)
        pure (.array items))
      <|> (do
        let members ← enclosed '\x7b' '\x7d' (member (value depth))
        pure (.object members))

/-- A document, by how deep its value may be nested. -/
def document (depth : Nat) : Reader Json := do
  let v ← value depth
  blanks
  pure v

end JsonReader

/-- **The value of a document**, none if the text is no document. No value is nested deeper than its
text is long. -/
def Json.decode? (text : String) : Option Json :=
  Text.Reader.readAll (JsonReader.document text.length) text.toList

end AgentShell
