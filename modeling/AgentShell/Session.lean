import AgentShell.Display
import AgentShell.Editor
import AgentShell.Style
import AgentShell.Workspace

/-!
# Sessions

A session turns keys into lines and draws what happens. It never runs a line: it hands a line out,
is busy until the output of the line is reported back, and then prompts again. Keys that come in
while it is busy go to the editor unseen.

## Main definitions

* `Session`: workspace, editor and the way of drawing
* `Session.fresh`: a session that starts
* `Session.Reaction`: what a key or an output leads to
* `Session.start`: the banner and the first prompt
* `Session.press`: a key
* `Session.present`, `Session.finish`: the output of a line

## Main results

* `Session.press_session`, `Session.press_dispatch`: a key while no line is out
* `Session.press_enter_of_blank`, `Session.press_enter_of_not_blank`: Enter while no line is out
* `Session.finish_of_queue_nil`, `Session.finish_of_queue_cons`: the output of a line, by the lines
  that wait
* `Session.finish_session`, `Session.finish_dispatch`: the line that an output hands out
-/

namespace AgentShell

/-- The state of a session. -/
structure Session where
  workspace : Workspace
  editor : Editor := {}
  /-- A line was handed out whose output is not in. -/
  busy : Bool := false
  /-- The text at the start of the prompt. -/
  label : String := "CUAG"
  style : Style := {}
  /-- Draw what is typed; a terminal may do that by itself. -/
  echo : Bool := true

/-- What a key or an output leads to. -/
structure Session.Reaction where
  session : Session
  calls : List DisplayCall := []
  /-- A line handed out to be run. -/
  dispatch : Option String := none

namespace Session

/-- A session that starts: nothing is typed, and no line was handed out. -/
def fresh (w : Workspace) (label : String) (style : Style) (echo : Bool) : Session :=
  { workspace := w, label, style, echo }

/-- What a session greets with. -/
def banner : String :=
  "Welcome to the CUAG Agent CLI. Type help for commands."

/-- The call that draws the prompt. -/
def prompt (s : Session) : DisplayCall :=
  .write (s.style.prompt s.label s.workspace.cwd)

/-- Calls that only a session with echo makes. -/
def echoed (s : Session) (calls : List DisplayCall) : List DisplayCall :=
  if s.echo then calls else []

/-- The banner and the first prompt. -/
def start (s : Session) : List DisplayCall :=
  [.line banner, s.prompt]

/-- A recalled line in place of the typed one: the typed line is erased character by character. -/
def redraw (s : Session) : Option Editor → Reaction
  | none => { session := s }
  | some e =>
    { session := { s with editor := e }
      calls := s.echoed
        [.write (repeatText s.editor.buffer.length eraseChar), .write e.buffer] }

/-- **A key.** A busy session only edits. Otherwise each change of the line is drawn, and Enter
hands the line out, or prompts again if it is blank. -/
def press (s : Session) (k : Key) : Reaction :=
  if s.busy then { session := { s with editor := (s.editor.pressBusy k).1 } }
  else match k with
    | .char c =>
      { session := { s with editor := s.editor.type c }
        calls := s.echoed [.write (String.singleton c)] }
    | .backspace =>
      match s.editor.erase? with
      | some e => { session := { s with editor := e }, calls := s.echoed [.write eraseChar] }
      | none => { session := s }
    | .up => s.redraw s.editor.previous?
    | .down => s.redraw s.editor.next?
    | .enter =>
      match s.editor.submit with
      | (e, some line) =>
        { session := { s with editor := e, busy := true }
          calls := s.echoed [.line ""]
          dispatch := some line }
      | (e, none) =>
        { session := { s with editor := e }, calls := s.echoed [.line ""] ++ [s.prompt] }

/-- The call that an effect makes. -/
def effectCalls : Effect → List DisplayCall
  | .clearScreen => [.clear]
  | .changeDirectory _ => []

/-- The calls that draw an output: those of its effects in order, and then its lines. -/
def outputCalls (style : Style) (o : Output) : List DisplayCall :=
  o.effects.flatMap effectCalls ++ o.lines.map fun l => .line (style.line l)

/-- **An output**: its effects take hold in order, and then its lines are drawn. -/
def present (s : Session) (o : Output) : Session × List DisplayCall :=
  ({ s with workspace := s.workspace.applyAll o.effects }, outputCalls s.style o)

/-- **The output of the line that was handed out.** The session prompts again. If lines wait, the
oldest is echoed behind the prompt and handed out; otherwise what was typed meanwhile is drawn. -/
def finish (s : Session) (o : Output) : Reaction :=
  let (s, calls) := s.present o
  match s.editor.dequeue with
  | (e, some line) =>
    { session := { s with editor := e, busy := true }
      calls := calls ++ s.prompt :: s.echoed [.line line]
      dispatch := some line }
  | (e, none) =>
    { session := { s with editor := e, busy := false }
      calls := calls ++ s.prompt ::
        s.echoed (if e.buffer = "" then [] else [.write e.buffer]) }

/-- **A key while no line is out** changes the editor as the editor has it, and a line that it
submits is handed out. -/
theorem press_session {s : Session} (h : s.busy = false) (k : Key) :
    (s.press k).session =
      { s with editor := (s.editor.press k).1, busy := (s.editor.press k).2.isSome } := by
  rcases s with ⟨w, e, busy, label, style, echo⟩
  obtain rfl : busy = false := h
  cases k with
  | char c => rfl
  | backspace => cases he : e.erase? <;> simp [press, Editor.press, Editor.edit, he]
  | up => cases he : e.previous? <;> simp [press, Editor.press, redraw, he]
  | down => cases he : e.next? <;> simp [press, Editor.press, redraw, he]
  | enter =>
    rcases he : e.submit with ⟨e', - | line⟩ <;> simp [press, Editor.press, Editor.edit, he]

theorem press_dispatch {s : Session} (h : s.busy = false) (k : Key) :
    (s.press k).dispatch = (s.editor.press k).2 := by
  cases k with
  | char c => simp [press, h, Editor.press, Editor.edit]
  | backspace =>
    cases he : s.editor.erase? <;> simp [press, h, Editor.press, Editor.edit, he]
  | up => cases he : s.editor.previous? <;> simp [press, h, Editor.press, redraw, he]
  | down => cases he : s.editor.next? <;> simp [press, h, Editor.press, redraw, he]
  | enter =>
    rcases he : s.editor.submit with ⟨e, - | line⟩ <;>
      simp [press, h, Editor.press, Editor.edit, he]

/-- **Enter with a blank line** only prompts again. -/
theorem press_enter_of_blank {s : Session} (hb : s.busy = false)
    (h : Text.isBlankText s.editor.buffer = true) :
    s.press .enter =
      { session := { s with editor := s.editor.submit.1 }
        calls := s.echoed [.line ""] ++ [s.prompt] } := by
  simp [press, hb, Editor.submit, h]

/-- **Enter with any other line** hands it out. -/
theorem press_enter_of_not_blank {s : Session} (hb : s.busy = false)
    (h : Text.isBlankText s.editor.buffer = false) :
    s.press .enter =
      { session := { s with editor := s.editor.submit.1, busy := true }
        calls := s.echoed [.line ""]
        dispatch := some s.editor.buffer } := by
  simp [press, hb, Editor.submit, h]

/-- The calls behind the prompt of a session without lines that wait. -/
def typedCalls (s : Session) : List DisplayCall :=
  s.echoed (if s.editor.buffer = "" then [] else [.write s.editor.buffer])

/-- **An output where no line waits**: the session prompts and is free again. -/
theorem finish_of_queue_nil {s : Session} (h : s.editor.queue = []) (o : Output) :
    s.finish o =
      { session := { (s.present o).1 with busy := false }
        calls := (s.present o).2 ++ (s.present o).1.prompt :: s.typedCalls } := by
  rcases s with ⟨w, ⟨buffer, history, cursor, draft, queue⟩, busy, label, style, echo⟩
  obtain rfl : queue = [] := h
  rfl

/-- **An output where lines wait**: the session prompts, and the oldest of them is handed out. -/
theorem finish_of_queue_cons {s : Session} {line : String} {rest : List String}
    (h : s.editor.queue = line :: rest) (o : Output) :
    s.finish o =
      { session :=
          { (s.present o).1 with editor := { s.editor with queue := rest }, busy := true }
        calls := (s.present o).2 ++ (s.present o).1.prompt :: s.echoed [.line line]
        dispatch := some line } := by
  rcases s with ⟨w, ⟨buffer, history, cursor, draft, queue⟩, busy, label, style, echo⟩
  obtain rfl : queue = line :: rest := h
  rfl

/-- **An output** takes the oldest line that waits out of the queue, if there is one, and hands it
out. -/
theorem finish_session (s : Session) (o : Output) :
    (s.finish o).session =
      { (s.present o).1 with
        editor := { s.editor with queue := s.editor.queue.tail }
        busy := s.editor.queue.head?.isSome } := by
  rcases s with ⟨w, ⟨buffer, history, cursor, draft, queue⟩, busy, label, style, echo⟩
  cases queue <;> rfl

theorem finish_dispatch (s : Session) (o : Output) :
    (s.finish o).dispatch = s.editor.queue.head? := by
  cases hq : s.editor.queue with
  | nil => simp [finish_of_queue_nil hq]
  | cons line rest => simp [finish_of_queue_cons hq]

end Session

end AgentShell
