import AgentShell.Text.Class
import AgentShell.Text.Lowercase.Table
import AgentShell.Text.Lowercase.Context

/-!
# Lower case

The lower-case form of a text. Each character maps on its own, with two exceptions: a capital I
with a dot becomes two characters, and a capital sigma becomes the final sigma where it ends a
word. A sigma ends a word when the characters around it, those that a word boundary ignores left
out, start with a letter that has case on its left and do not on its right.

## Main definitions

* `lowercaseChar`: the form of a character on its own
* `lowercase`: the form of a text
* `lowercaseAscii`: the form that changes the letters A to Z only
-/

namespace AgentShell.Text

/-- The capital sigma, whose lower-case form depends on its place. -/
def capitalSigma : Char := 'Σ'

/-- A letter that has a case. -/
def isCased (c : Char) : Bool :=
  inRanges casedRanges c.toNat

/-- A character that a word boundary looks through. -/
def isCaseIgnorable (c : Char) : Bool :=
  inRanges caseIgnorableRanges c.toNat

/-- The lower-case form of a character on its own. -/
def lowercaseChar (c : Char) : List Char :=
  if c = 'İ' then ['i', '\u0307']
  else match lowercaseRows.find? (·.covers c.toNat) with
    | some row => [Char.ofNat (row.apply c.toNat)]
    | none => [c]

/-- The characters start, after those that a word boundary looks through, with a cased letter. -/
def meetsCased (cs : List Char) : Bool :=
  match cs.dropWhile isCaseIgnorable with
  | c :: _ => isCased c
  | [] => false

/-- The lower-case forms of the characters `cs`, where `before` holds those in front of them, the
nearest first. -/
def lowercaseAfter (before : List Char) : List Char → List Char
  | [] => []
  | c :: cs =>
    (if c = capitalSigma then
        if meetsCased before && !meetsCased cs then ['ς'] else ['σ']
      else lowercaseChar c) ++ lowercaseAfter (c :: before) cs

/-- **The lower-case form of a text.** -/
def lowercase (s : String) : String :=
  String.ofList (lowercaseAfter [] s.toList)

/-- The text with the letters A to Z in lower case and every other character as it is. -/
def lowercaseAscii (s : String) : String :=
  s.map Char.toLower

end AgentShell.Text
