/-!
# JSON strings

The written form of a text inside a JSON document: a quote, a backslash and the control characters
below the space are escaped, everything else stands for itself. Five control characters have a
letter of their own; the others are written with four hexadecimal digits in lower case.

## Main definitions

* `JsonString.escape`: the written form of one character
* `JsonString.quote`: the written form of a text, in quotes
-/

namespace AgentShell.Text.JsonString

/-- A hexadecimal digit in lower case. -/
def hexDigit (n : Nat) : Char :=
  if n < 10 then Char.ofNat (0x30 + n) else Char.ofNat (0x57 + n)

/-- The written form of one character. -/
def escape (c : Char) : List Char :=
  if c = '"' then ['\\', '"']
  else if c = '\\' then ['\\', '\\']
  else if c = '\x08' then ['\\', 'b']
  else if c = '\x0c' then ['\\', 'f']
  else if c = '\n' then ['\\', 'n']
  else if c = '\r' then ['\\', 'r']
  else if c = '\t' then ['\\', 't']
  else if c.toNat < 0x20 then
    ['\\', 'u', '0', '0', hexDigit (c.toNat / 16), hexDigit (c.toNat % 16)]
  else [c]

/-- The written form of a text, in quotes. -/
def quote (s : String) : String :=
  String.ofList ('"' :: s.toList.flatMap escape ++ ['"'])

end AgentShell.Text.JsonString
