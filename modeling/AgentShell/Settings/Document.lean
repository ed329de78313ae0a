import AgentShell.Settings.Basic
import AgentShell.Toml.Document

/-!
# Settings from a document

Settings are read from the table of a TOML document. A key that is missing leaves the default, a key
that means nothing here is passed over, and a value of another kind than its key asks for spoils the
document.

## Main definitions

* `Instructions.ofValue?`: the custom instructions that a value stands for
* `Settings.ofTable?`: the settings that a table stands for
* `Settings.ofDocument`: the settings that a text stands for
* `Settings.ofFile`: the settings in a file
-/

namespace AgentShell

open Toml (Value Table)

/-- What a table has under a key: the default if nothing is there. -/
def Toml.Table.read {α : Type} (t : Table) (key : String) (default : α)
    (ofValue? : Value → Option α) : Option α :=
  match NameTable.find? key t with
  | none => some default
  | some v => ofValue? v

namespace Toml.Value

/-- A text. -/
def text? : Value → Option String
  | .string s => some s
  | _ => none

/-- A truth value. -/
def bool? : Value → Option Bool
  | .boolean b => some b
  | _ => none

/-- A whole number that is not negative. -/
def nat? : Value → Option Nat
  | .integer (.ofNat n) => some n
  | _ => none

end Toml.Value

namespace Instructions

/-- The instructions under the keys of a table. -/
def ofTable? (t : Table) : Option Instructions := do
  let system ← t.read "system" "" Value.text?
  let behavior ← t.read "ai_behavior" "" Value.text?
  let user ← t.read "user_context" "" Value.text?
  some ⟨system, behavior, user⟩

/-- The instructions listed in order: the first three items count, and missing ones are empty. -/
def ofItems? (items : List Value) : Option Instructions := do
  let system ← items[0]?.elim (some "") Value.text?
  let behavior ← items[1]?.elim (some "") Value.text?
  let user ← items[2]?.elim (some "") Value.text?
  some ⟨system, behavior, user⟩

/-- **The instructions that a value stands for**: a table or a list. A point in time counts as a
table with other keys. -/
def ofValue? : Value → Option Instructions
  | .table t => ofTable? t
  | .array items => ofItems? items
  | .moment _ => some {}
  | _ => none

end Instructions

namespace Settings

/-- **The settings that a table stands for.** -/
def ofTable? (t : Table) : Option Settings := do
  let usual : Settings := {}
  let home ← t.read "home" usual.home Value.text?
  let label ← t.read "prompt_label" usual.label Value.text?
  let color ← t.read "color" usual.color Value.bool?
  let limit ← t.read "task_timeout_ms" usual.limit fun v => v.nat?.map some
  let delay ← t.read "generator_delay_ms" usual.delay Value.nat?
  let instructions ← t.read "instructions" usual.instructions Instructions.ofValue?
  some { home, label, color, limit, delay, instructions }

/-- The settings that a text stands for, if they are valid. -/
def ofDocument (text : String) : Except SettingsError Settings :=
  match (Toml.parse text).bind ofTable? with
  | some s => s.validate
  | none => .error .malformed

/-- **The settings in a file**, from its path and its content or the reason why it cannot be read. A
file that is not UTF-8 cannot be read. -/
def ofFile (path : String) : Except String ByteArray → Except SettingsError Settings
  | .error cause => .error (.unreadable path cause)
  | .ok content =>
    match String.fromUTF8? content with
    | some text => ofDocument text
    | none => .error (.unreadable path "stream did not contain valid UTF-8")

end Settings

end AgentShell
