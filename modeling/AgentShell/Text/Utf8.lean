/-!
# Octets as text

A decoder for UTF-8 that never fails: every maximal run of octets that starts a character but
cannot end it, and every octet that starts none, becomes one replacement character. The decoder is
a machine over single octets, so decoding a stream in pieces is decoding the whole.

## Main definitions

* `Utf8.Partial`: a character begun and not yet ended
* `Utf8.step`: one octet
* `Utf8.flush`: the end of the octets
* `Utf8.decode`: the text of a list of octets
-/

namespace AgentShell.Text.Utf8

/-- The character that stands for octets that are no text. -/
def replacement : Char := '\uFFFD'

/-- A character begun: the octets still owed, the bounds of the next one, and the bits so far. -/
structure Partial where
  owed : Nat
  low : Nat
  high : Nat
  bits : Nat
deriving DecidableEq, Repr

/-- The first octet of a character: the character if it is whole, and what is begun if not. -/
def first (b : UInt8) : List Char × Option Partial :=
  let n := b.toNat
  if n ≤ 0x7F then ([Char.ofNat n], none)
  else if 0xC2 ≤ n ∧ n ≤ 0xDF then ([], some ⟨1, 0x80, 0xBF, n - 0xC0⟩)
  else if n = 0xE0 then ([], some ⟨2, 0xA0, 0xBF, 0⟩)
  else if n = 0xED then ([], some ⟨2, 0x80, 0x9F, 0xD⟩)
  else if 0xE1 ≤ n ∧ n ≤ 0xEF then ([], some ⟨2, 0x80, 0xBF, n - 0xE0⟩)
  else if n = 0xF0 then ([], some ⟨3, 0x90, 0xBF, 0⟩)
  else if n = 0xF4 then ([], some ⟨3, 0x80, 0x8F, 4⟩)
  else if 0xF1 ≤ n ∧ n ≤ 0xF3 then ([], some ⟨3, 0x80, 0xBF, n - 0xF0⟩)
  else ([replacement], none)

/-- **One octet**: the characters it completes, and what is begun after it. An octet that cannot go
on with the character begun ends it as a replacement character and starts afresh. -/
def step : Option Partial → UInt8 → List Char × Option Partial
  | none, b => first b
  | some p, b =>
    if p.low ≤ b.toNat ∧ b.toNat ≤ p.high then
      let bits := p.bits * 64 + b.toNat % 64
      if p.owed ≤ 1 then ([Char.ofNat bits], none)
      else ([], some ⟨p.owed - 1, 0x80, 0xBF, bits⟩)
    else
      (replacement :: (first b).1, (first b).2)

/-- What the end of the octets adds: a character begun stays a replacement character. -/
def flush : Option Partial → List Char
  | none => []
  | some _ => [replacement]

/-- The characters of the octets after the state `p`. -/
def decodeFrom (p : Option Partial) : List UInt8 → List Char
  | [] => flush p
  | b :: bs => (step p b).1 ++ decodeFrom (step p b).2 bs

/-- The text of a list of octets. -/
def decode (bs : List UInt8) : List Char :=
  decodeFrom none bs

end AgentShell.Text.Utf8
