import AgentShell.Text.Reader

/-!
# Space between the parts of a document

## Main definitions

* `Toml.blanks`, `Toml.newline`, `Toml.comment`: spaces, line ends and comments
* `Toml.restOfLine`: what may follow at the end of a line
* `Toml.blankLines`: what may stand between the items of an array
-/

namespace AgentShell.Toml

open Text (Reader)
open Text.Reader

/-- A space or a tab. -/
def isBlank (c : Char) : Bool :=
  c == ' ' || c == '\t'

/-- A character outside ASCII; every such character may stand in comments and strings. -/
def isForeign (c : Char) : Bool :=
  0x80 ≤ c.toNat

/-- A character that may stand in a comment: any but the control characters, of which only the tab
may. -/
def isCommentChar (c : Char) : Bool :=
  c == '\t' || ' ' ≤ c && c ≤ '~' || isForeign c

/-- Spaces and tabs. -/
def blanks : Reader Unit := do
  let _ ← spanOf isBlank

/-- The end of a line. -/
def newline : Reader Unit :=
  char '\n' <|> literal ['\r', '\n']

/-- The end of a line or of the text. -/
def lineEnd : Reader Unit :=
  newline <|> atEnd

/-- A comment, up to the end of its line. -/
def comment : Reader Unit := do
  char '#'
  let _ ← spanOf isCommentChar

/-- What may follow on a line behind a statement. -/
def restOfLine : Reader Unit := do
  blanks
  let _ ← optional comment
  lineEnd

/-- Blanks, line ends and comments. -/
def blankLines : Reader Unit := do
  let _ ← many ((do
      let _ ← spanOf1 isBlank)
    <|> newline <|> comment)

end AgentShell.Toml
