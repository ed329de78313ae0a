import AgentShell.Proofs.Session.Canvas

/-!
# What does not depend on the look

A session has a look: its label, its style, and whether it draws what is typed. What it decides by
is its core: workspace, editor, and whether a line is out. The core goes its own way. What a key or
an output makes of it, and which line is handed out then, can be told without the look, and what is
drawn goes to the display and never comes back. So sessions that differ in their looks only, each on
a display of its own, take the same course.

## Main definitions

* `Session.Look`, `Session.dress`: a look, and a session with another look
* `Session.Core`, `Session.Core.react`: what a session decides by, and its way without a display
* `Session.runOn`, `Session.course`: inputs in turn on a display, and what becomes of the core and
  which lines are handed out meanwhile

## Main results

* `Session.core_react`, `Session.look_react`: a reaction, by core and look
* `Session.course_eq`: a session takes the course of its core
* `Session.calls_press_of_quiet`: what is drawn for a key where typed keys are not
* `Session.course_independent_of_look`: both, for two sessions and two displays
-/

namespace AgentShell.Session

/-- How a session is drawn. -/
structure Look where
  label : String
  style : Style
  echo : Bool
deriving DecidableEq, Repr

/-- What a session decides by. -/
structure Core where
  workspace : Workspace
  editor : Editor
  busy : Bool

/-- The look of a session. -/
def look (s : Session) : Look :=
  ⟨s.label, s.style, s.echo⟩

/-- The session with another look. -/
def dress (s : Session) (l : Look) : Session :=
  { s with label := l.label, style := l.style, echo := l.echo }

/-- The core of a session. -/
def core (s : Session) : Core :=
  ⟨s.workspace, s.editor, s.busy⟩

@[simp] theorem core_dress (s : Session) (l : Look) : (s.dress l).core = s.core := rfl

@[simp] theorem look_dress (s : Session) (l : Look) : (s.dress l).look = l := rfl

namespace Core

/-- **The way of a core**, and the line that is handed out: a key changes the editor, and an output
the workspace; a line that was submitted, or the oldest of those that wait, is out from then on. -/
def react (c : Core) : Input → Core × Option String
  | .key k =>
    if c.busy then ({ c with editor := (c.editor.pressBusy k).1 }, none)
    else ({ c with editor := (c.editor.press k).1, busy := (c.editor.press k).2.isSome },
      (c.editor.press k).2)
  | .output o =>
    ({ workspace := c.workspace.applyAll o.effects
       editor := { c.editor with queue := c.editor.queue.tail }
       busy := c.editor.queue.head?.isSome },
      c.editor.queue.head?)

/-- What becomes of a core under inputs in turn, step by step. -/
def course (c : Core) : List Input → List (Core × Option String)
  | [] => []
  | i :: inputs => c.react i :: (c.react i).1.course inputs

end Core

section Reaction

variable {s : Session}

/-- **A reaction leads where the core leads**, and hands out the line that the core hands out. -/
theorem core_react (s : Session) (i : Input) :
    ((s.react i).session.core, (s.react i).dispatch) = s.core.react i := by
  cases i with
  | output o =>
    simp only [react, Core.react, core, finish_session, finish_dispatch]
    rfl
  | key k =>
    cases hb : s.busy with
    | true => simp [react, Core.react, core, press, hb]
    | false =>
      simp only [react, Core.react, core, press_session hb, press_dispatch hb]
      simp [hb]

@[simp] theorem look_react (s : Session) (i : Input) : (s.react i).session.look = s.look := by
  cases i with
  | output o =>
    simp only [react, look, finish_session]
    rfl
  | key k =>
    cases hb : s.busy with
    | true => simp [react, look, press, hb]
    | false => simp [react, look, press_session hb]

/-- **Where typed keys are not drawn**, only Enter draws, with a blank line where no line is out,
and then it draws the prompt. -/
theorem calls_press_of_quiet (he : s.echo = false) (k : Key) :
    (s.press k).calls =
      if s.busy = false ∧ k = .enter ∧ Text.isBlankText s.editor.buffer = true then [s.prompt]
      else [] := by
  obtain ⟨echo, hc⟩ := s.exists_react_calls (.key k)
  have hq : s.echoed echo = [] := by simp [echoed, he]
  rw [hq, List.append_nil] at hc
  by_cases h : s.busy = false ∧ k = .enter ∧ Text.isBlankText s.editor.buffer = true
  · obtain ⟨hb, rfl, ht⟩ := h
    rw [if_pos ⟨hb, rfl, ht⟩, press_enter_of_blank hb ht]
    simp [echoed, he]
  · have hn : s.callsToPrompt? (.key k) = none := by simpa [callsToPrompt?, and_assoc] using h
    rw [if_neg h, ← show (s.react (.key k)).calls = (s.press k).calls from rfl, hc, hn,
      Option.getD_none]

end Reaction

section Display

variable {δ ε : Type}

/-- Inputs in turn, for a session and a display that changes by `draw` with every call. -/
def runOn (draw : δ → DisplayCall → δ) (s : Session) (shown : δ) : List Input → Session × δ
  | [] => (s, shown)
  | i :: inputs => runOn draw (s.react i).session ((s.react i).calls.foldl draw shown) inputs

/-- **The course of a session on a display**: its core after each input, and the line that was
handed out for the input. -/
def course (draw : δ → DisplayCall → δ) (s : Session) (shown : δ) :
    List Input → List (Core × Option String)
  | [] => []
  | i :: inputs =>
    ((s.react i).session.core, (s.react i).dispatch) ::
      course draw (s.react i).session ((s.react i).calls.foldl draw shown) inputs

/-- **A session takes the course of its core**, whatever it is drawn on. -/
theorem course_eq (draw : δ → DisplayCall → δ) (s : Session) (shown : δ) (inputs : List Input) :
    s.course draw shown inputs = s.core.course inputs := by
  induction inputs generalizing s shown with
  | nil => rfl
  | cons i inputs ih =>
    have hc := core_react s i
    rw [course, Core.course, ih, ← hc]

@[simp] theorem look_runOn (draw : δ → DisplayCall → δ) (s : Session) (shown : δ)
    (inputs : List Input) : (s.runOn draw shown inputs).1.look = s.look := by
  induction inputs generalizing s shown with
  | nil => rfl
  | cons i inputs ih => rw [runOn, ih, look_react]

/-- **The look decides nothing.** Two sessions that differ only in label, style and echo, each on a
display of its own, take the same course under the same keys and outputs: after every step they have
the same workspace, the same editor and the same line to hand out, and a line is out of both or of
neither.

A session without echo draws nothing for a key, wherever its course has led it, but for an Enter
with a blank line while no line is out: that draws the prompt, with the label and in the style of
the session. -/
theorem course_independent_of_look (s : Session) (look look' : Look)
    (draw : δ → DisplayCall → δ) (draw' : ε → DisplayCall → ε) (shown : δ) (shown' : ε)
    (inputs : List Input) :
    (s.dress look).course draw shown inputs = (s.dress look').course draw' shown' inputs ∧
      let quiet := ((s.dress { look with echo := false }).runOn draw shown inputs).1
      ∀ k, (quiet.press k).calls =
        if quiet.busy = false ∧ k = .enter ∧ Text.isBlankText quiet.editor.buffer = true then
          [.write (look.style.prompt look.label quiet.workspace.cwd)]
        else [] := by
  refine ⟨?_, ?_⟩
  · rw [course_eq, course_eq, core_dress, core_dress]
  · intro quiet k
    have hl : quiet.look = { look with echo := false } := by simp [quiet]
    obtain ⟨hlabel, hstyle, hecho⟩ :
        quiet.label = look.label ∧ quiet.style = look.style ∧ quiet.echo = false := by
      simpa [Session.look] using hl
    rw [calls_press_of_quiet hecho, prompt, hlabel, hstyle]

end Display

end AgentShell.Session
