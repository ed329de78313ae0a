/-!
# Character classes

White space and control characters as Unicode defines them. Both classes are small and fixed: no
version of the standard has changed them in years, and neither is the ASCII class of its name.

## Main definitions

* `inRanges`: membership in a list of closed ranges of code points
* `isBlank`: the property White_Space, 25 characters
* `isControl`: the general category Cc, 65 characters
-/

namespace AgentShell.Text

/-- The code point `n` lies in one of the closed ranges. -/
def inRanges (ranges : List (Nat × Nat)) (n : Nat) : Bool :=
  ranges.any fun r => r.1 ≤ n && n ≤ r.2

/-- The characters with the property White_Space. -/
def blankRanges : List (Nat × Nat) :=
  [(0x09, 0x0D), (0x20, 0x20), (0x85, 0x85), (0xA0, 0xA0), (0x1680, 0x1680), (0x2000, 0x200A),
    (0x2028, 0x2029), (0x202F, 0x202F), (0x205F, 0x205F), (0x3000, 0x3000)]

/-- White space: a character that separates words. -/
def isBlank (c : Char) : Bool :=
  inRanges blankRanges c.toNat

/-- A control character: the first 32 code points, delete, and the 32 that follow it. -/
def isControl (c : Char) : Bool :=
  c.toNat < 0x20 || (0x7F ≤ c.toNat && c.toNat ≤ 0x9F)

end AgentShell.Text
