/-!
# The lines of a text

## Main definitions

* `dropReturn`: a line without the carriage return that belongs to its end
* `cutLines`: the lines of a text, in order
-/

namespace AgentShell.Text

/-- A line without the carriage return that belongs to its end. -/
def dropReturn (line : List Char) : List Char :=
  if line.getLast? = some '\r' then line.dropLast else line

/-- **The lines of a text.** A line ends at a line feed, and a carriage return in front of it
belongs to the end. What stands behind the last line end is a line too, unless nothing stands there.
-/
def cutLines (s : String) : List String :=
  let pieces := s.toList.splitOn '\n'
  let last := pieces.getLastD []
  (pieces.dropLast.map dropReturn ++ if last.isEmpty then [] else [last]).map String.ofList

end AgentShell.Text
