import AgentShell.Program

/-!
# The executable

Reads the settings file and the input, and writes the result of the program.
-/

namespace AgentShell

/-- The reason why a file cannot be read, as the system words it. -/
def faultText : IO.Error → String
  | .noFileOrDirectory _ code details => s!"{details} (os error {code})"
  | .permissionDenied _ code details => s!"{details} (os error {code})"
  | .inappropriateType _ code details => s!"{details} (os error {code})"
  | .invalidArgument _ code details => s!"{details} (os error {code})"
  | e => toString e

/-- The content of the file at a path, or the reason why it cannot be read. -/
def loadFile (path : String) : IO (Except String ByteArray) := do
  try
    return .ok (← IO.FS.readBinFile path)
  catch e =>
    return .error (faultText e)

/-- All that is left of a stream. -/
partial def readAll (stream : IO.FS.Stream) (before : ByteArray) : IO ByteArray := do
  let piece ← stream.read 65536
  if piece.isEmpty then return before else readAll stream (before ++ piece)

end AgentShell

open AgentShell in
/-- The program on its arguments and the standard streams. -/
def main (args : List String) : IO UInt32 := do
  let options := (Options.parse args).toOption
  let content ← match options.bind Options.config with
    | some path => loadFile path
    | none => pure (.error "")
  let input ← if options.any fun o => o.lines.isEmpty then
      readAll (← IO.getStdin) .empty
    else pure .empty
  let result := Program.run (fun _ => content) args input.toList
  IO.print result.output
  if result.error ≠ "" then IO.eprintln result.error
  return result.code.toUInt32
