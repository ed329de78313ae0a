import AgentShell.Toml.Draft
import AgentShell.Toml.Moment
import AgentShell.Toml.Number
import AgentShell.Toml.Text

/-!
# Documents

A document is a list of statements: a value for a key, or a header that opens a section. The
statements are read first and carried out on a draft then.

## Main definitions

* `Toml.value`: any value
* `Toml.Statement`: the statements
* `Toml.statements`: the statements of a document
* `Toml.parse`: the table of a document
-/

namespace AgentShell.Toml

open Text (Reader)
open Text.Reader

/-- A key of an entry with its value; the keys in front of the last one lead to its table. -/
structure Assignment where
  keys : List String
  key : String
  value : Value

/-- A path split at its last key. -/
def splitLast (keys : List String) : Option (List String × String) :=
  keys.getLast?.map fun k => (keys.dropLast, k)

/-- An entry: a path, and a value that the given reader reads. -/
def assignment (value : Reader Value) : Reader Assignment := do
  let keys ← path
  let (keys, k) ← splitLast keys
  char '='
  blanks
  let v ← value
  pure ⟨keys, k, v⟩

/-- The table of the entries of an inline table. -/
def inlineTable (entries : List Assignment) : Option Table :=
  (entries.foldlM (fun t a => Draft.define a.keys a.key a.value .header t) []).map Draft.toTable

/-- A value that is not nested, with what it is written as. -/
def scalar : Reader Value :=
  (do
    let s ← text
    pure (.string s))
  <|> (do
    literal "true".toList
    pure (.boolean true))
  <|> (do
    literal "false".toList
    pure (.boolean false))
  <|> (do
    let cs ← written moment
    pure (.moment (String.ofList cs)))
  <|> (do
    let cs ← written float
    pure (.float (String.ofList cs)))
  <|> (do
    let n ← integer
    pure (.integer n))

/-- A value with at most the given number of arrays and inline tables around any other. -/
def nested : Nat → Reader Value
  | 0 => scalar
  | depth + 1 =>
    scalar
    <|> (do
      char '['
      let items ← (do
          let items ← separated (do
              blankLines
              let v ← nested depth
              blankLines
              pure v) (char ',')
          let _ ← optional (char ',')
          pure items)
        <|> pure []
      blankLines
      char ']'
      pure (.array items))
    <|> (do
      char '\x7b'
      let entries ← separated (do
          let a ← assignment (nested depth)
          blanks
          pure a) (char ',')
        <|> pure []
      blanks
      char '\x7d'
      let t ← inlineTable entries
      pure (.table t))

/-- **A value.** -/
def value : Reader Value :=
  nested (depthLimit - 1)

/-- A statement of a document. -/
inductive Statement where
  /-- A value in the section that is open. -/
  | assign (a : Assignment)
  /-- The header of a table. -/
  | table (keys : List String)
  /-- The header of another table in an array. -/
  | element (keys : List String)
  /-- A line with nothing but blanks or a comment. -/
  | blank

/-- A statement with the end of its line. -/
def statement : Reader Statement :=
  (do
    let _ ← optional comment
    newline
    pure .blank)
  <|> (do
    literal ['[', '[']
    let keys ← path
    literal [']', ']']
    restOfLine
    pure (.element keys))
  <|> (do
    char '['
    let keys ← path
    char ']'
    restOfLine
    pure (.table keys))
  <|> (do
    let a ← assignment value
    restOfLine
    pure (.assign a))

/-- The statements of a document. A byte order mark in front of it does not count, and its last line
may lack a line end. -/
def statements : Reader (List Statement) := do
  let _ ← optional (char '\uFEFF')
  blanks
  let all ← many (do
    let s ← statement
    blanks
    pure s)
  let _ ← optional comment
  atEnd
  pure all

/-- A document of which some statements are carried out: its draft, and the path of the section that
is open. -/
structure Progress where
  draft : Draft := []
  opened : List String := []

/-- **One statement carried out.** -/
def Progress.next (p : Progress) : Statement → Option Progress
  | .blank => some p
  | .assign a => do
    let draft ← p.draft.change .implied (Draft.define a.keys a.key a.value) .header p.opened
    some { p with draft }
  | .table keys => do
    let (above, k) ← splitLast keys
    let draft ← p.draft.change .implied (fun _ => Draft.openTable k) .header above
    some ⟨draft, keys⟩
  | .element keys => do
    let (above, k) ← splitLast keys
    let draft ← p.draft.change .implied (fun _ => Draft.openElement k) .header above
    some ⟨draft, keys⟩

/-- **The table of a document**; there is none if the text is no document, or if one statement does
not go with another. -/
def parse (document : String) : Option Table := do
  let all ← readAll statements document.toList
  let p ← all.foldlM Progress.next {}
  some p.draft.toTable

end AgentShell.Toml
