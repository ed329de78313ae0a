import AgentShell.Toml.Trivia

/-!
# Strings and keys

A string stands between quotes or apostrophes. Between quotes a backslash introduces an escape;
between apostrophes every character stands for itself. Three quotes or apostrophes enclose a string
of several lines. A key is a bare word or a string of one line.

## Main definitions

* `Toml.escaped`: the character of an escape
* `Toml.basicString`, `Toml.literalString`: strings of one line
* `Toml.multilineBasic`, `Toml.multilineLiteral`: strings of several lines
* `Toml.text`: any string
* `Toml.path`: keys with dots in between
-/

namespace AgentShell.Toml

open Text (Reader hexDigits)
open Text.Reader

/-- The character with the code point of a number of hexadecimal digits; surrogates and numbers
beyond the last code point are no characters. -/
def codePoint (digits : Nat) : Reader Char := do
  let n ← hexDigits digits 0
  guard n.isValidChar
  pure (Char.ofNat n)

/-- **The character of an escape.** -/
def escaped : Reader Char := do
  char '\\'
  let c ← satisfying fun _ => true
  match c with
  | 'b' => pure '\x08'
  | 't' => pure '\t'
  | 'n' => pure '\n'
  | 'f' => pure '\x0c'
  | 'r' => pure '\r'
  | '"' => pure '"'
  | '\\' => pure '\\'
  | 'u' => codePoint 4
  | 'U' => codePoint 8
  | _ => failure

/-- A character that stands for itself between quotes. -/
def isBasicChar (c : Char) : Bool :=
  isCommentChar c && c != '"' && c != '\\'

/-- A character that stands for itself between apostrophes. -/
def isLiteralChar (c : Char) : Bool :=
  isCommentChar c && c != '\''

/-- A string of one line between quotes. -/
def basicString : Reader String := do
  char '"'
  let pieces ← many (spanOf1 isBasicChar <|> (do
    let c ← escaped
    pure [c]))
  char '"'
  pure (String.ofList pieces.flatten)

/-- A string of one line between apostrophes. -/
def literalString : Reader String := do
  char '\''
  let content ← spanOf isLiteralChar
  char '\''
  pure (String.ofList content)

/-- A backslash at the end of a line, and the white space that it takes with it. -/
def lineJoin : Reader Unit := do
  char '\\'
  blanks
  newline
  let _ ← many ((do
      let _ ← spanOf1 isBlank)
    <|> newline)

/-- A line end inside a string; whatever its form it stands for a line feed. -/
def lineBreak : Reader (List Char) := do
  newline
  pure ['\n']

/-- One or two of the characters that enclose a string, as part of its content: more of its content
follows them. -/
def innerQuotes (quote : Char) : Reader (List Char) :=
  (do
    literal [quote, quote]
    ahead (· != quote)
    pure [quote, quote])
  <|> (do
    char quote
    ahead (· != quote)
    pure [quote])

/-- One or two of the characters that enclose a string, in front of the three that end it. -/
def lastQuotes (quote : Char) : Reader (List Char) :=
  (do
    literal [quote, quote, quote, quote, quote]
    pure [quote, quote])
  <|> (do
    literal [quote, quote, quote, quote]
    pure [quote])
  <|> (do
    literal [quote, quote, quote]
    pure [])

/-- **A string of several lines**: three of the enclosing characters, a line end that does not
count, the content, and three of the enclosing characters. -/
def multiline (quote : Char) (content : Reader (List Char)) : Reader String := do
  literal [quote, quote, quote]
  let _ ← optional newline
  let start ← many content
  let more ← many (do
    let quotes ← innerQuotes quote
    let pieces ← many1 content
    pure (quotes ++ pieces.flatten))
  let quotes ← lastQuotes quote
  pure (String.ofList (start.flatten ++ more.flatten ++ quotes))

/-- A string of several lines between quotes. -/
def multilineBasic : Reader String :=
  multiline '"' (spanOf1 isBasicChar
    <|> (do
      lineJoin
      pure [])
    <|> (do
      let c ← escaped
      pure [c])
    <|> lineBreak)

/-- A string of several lines between apostrophes. -/
def multilineLiteral : Reader String :=
  multiline '\'' (spanOf1 isLiteralChar <|> lineBreak)

/-- **A string.** -/
def text : Reader String :=
  multilineBasic <|> basicString <|> multilineLiteral <|> literalString

/-- A character of a bare key. -/
def isBareChar (c : Char) : Bool :=
  c.isAlphanum || c == '_' || c == '-'

/-- A single key. -/
def key : Reader String :=
  basicString <|> literalString <|> (do
    let run ← spanOf1 isBareChar
    pure (String.ofList run))

/-- How many keys a path may have, and how deep values may be nested, less one. -/
def depthLimit : Nat := 80

/-- **A path**: keys with dots in between, and blanks around each. -/
def path : Reader (List String) := do
  let keys ← separated (do
      blanks
      let k ← key
      blanks
      pure k) (char '.')
  guard (keys.length < depthLimit)
  pure keys

end AgentShell.Toml
