import AgentShell.Keys.Basic
import AgentShell.Text.Words

/-!
# The line editor

The editor holds the line that is being typed, the lines submitted so far, the place in them that
recall has reached, and the lines that wait until a running command is done. Recall starts behind
the last line; leaving that place keeps the typed line as a draft, and coming back restores it.

## Main definitions

* `Editor`: the state of line editing
* `Editor.type`, `Editor.erase?`, `Editor.submit`: editing
* `Editor.previous?`, `Editor.next?`: recall
* `Editor.enqueue`, `Editor.dequeue`: lines that wait
* `Editor.edit`, `Editor.press`: a key without recall, and with it
* `Editor.pressBusy`: a key while a command runs

## Main results

* `Editor.edit_snd`: what submits a line
* `Editor.edit_history`, `Editor.press_history`: the history is what was submitted
* `Editor.pressBusy_fst`: a key while a command runs edits as ever
-/

namespace AgentShell

/-- The state of line editing. -/
structure Editor where
  /-- The line that is being typed. -/
  buffer : String := ""
  /-- The submitted lines, oldest first. -/
  history : List String := []
  /-- The place that recall has reached; the length of the history is the place behind it. -/
  cursor : Nat := 0
  /-- What was being typed when recall left the place behind the history. -/
  draft : String := ""
  /-- The lines that wait, oldest first. -/
  queue : List String := []
deriving DecidableEq, Repr

namespace Editor

/-- A character typed. -/
def type (e : Editor) (c : Char) : Editor :=
  { e with buffer := e.buffer.push c }

/-- The last character taken back; there is none in an empty line. -/
def erase? (e : Editor) : Option Editor :=
  if e.buffer = "" then none else some { e with buffer := Text.init e.buffer }

/-- **The line submitted.** A blank line is thrown away; any other is added to the history. Recall
starts anew. -/
def submit (e : Editor) : Editor × Option String :=
  if Text.isBlankText e.buffer then
    ({ e with buffer := "", draft := "", cursor := e.history.length }, none)
  else
    ({ e with
        buffer := "", draft := "", cursor := e.history.length + 1,
        history := e.history ++ [e.buffer] },
      some e.buffer)

/-- A line put behind those that wait. -/
def enqueue (e : Editor) (line : String) : Editor :=
  { e with queue := e.queue ++ [line] }

/-- The oldest line that waits, taken out of the queue. -/
def dequeue (e : Editor) : Editor × Option String :=
  ({ e with queue := e.queue.tail }, e.queue.head?)

/-- The line before the one that recall has reached; there is none before the oldest. -/
def previous? (e : Editor) : Option Editor :=
  if e.cursor = 0 then none
  else some { e with
    draft := if e.cursor = e.history.length then e.buffer else e.draft
    cursor := e.cursor - 1
    buffer := e.history[e.cursor - 1]?.getD "" }

/-- The line behind the one that recall has reached, the draft behind the last; there is none
behind the draft. -/
def next? (e : Editor) : Option Editor :=
  if e.history.length ≤ e.cursor then none
  else if e.cursor + 1 = e.history.length then
    some { e with cursor := e.cursor + 1, buffer := e.draft, draft := "" }
  else some { e with
    cursor := e.cursor + 1
    buffer := e.history[e.cursor + 1]?.getD "" }

/-- A key of editing, and the line that it submits. Recall rests. -/
def edit (e : Editor) : Key → Editor × Option String
  | .char c => (e.type c, none)
  | .backspace => (e.erase?.getD e, none)
  | .enter => e.submit
  | .up => (e, none)
  | .down => (e, none)

/-- **A key while a command runs**: editing goes on unseen, and a submitted line is put behind those
that wait. Also whether a line was put there. -/
def pressBusy (e : Editor) (k : Key) : Editor × Bool :=
  match e.edit k with
  | (e', some line) => (e'.enqueue line, true)
  | (e', none) => (e', false)

/-- A key while no command runs, and the line that it submits. -/
def press (e : Editor) : Key → Editor × Option String
  | .up => (e.previous?.getD e, none)
  | .down => (e.next?.getD e, none)
  | .char c => e.edit (.char c)
  | .backspace => e.edit .backspace
  | .enter => e.edit .enter

theorem submit_snd (e : Editor) :
    e.submit.2 = if Text.isBlankText e.buffer then none else some e.buffer := by
  unfold submit
  split <;> rfl

/-- A submitted line is the last of the history. -/
theorem submit_history (e : Editor) : e.submit.1.history = e.history ++ e.submit.2.toList := by
  unfold submit
  split <;> simp

@[simp] theorem submit_buffer (e : Editor) : e.submit.1.buffer = "" := by
  unfold submit
  split <;> rfl

@[simp] theorem submit_queue (e : Editor) : e.submit.1.queue = e.queue := by
  unfold submit
  split <;> rfl

/-- Taking a character back changes the buffer only. -/
theorem getD_erase? (e : Editor) : e.erase?.getD e = { e with buffer := Text.init e.buffer } := by
  unfold erase?
  split
  · rename_i h
    have hi : Text.init e.buffer = e.buffer := by rw [h]; rfl
    rw [hi, Option.getD_none]
  · rfl

@[simp] theorem getD_previous?_history (e : Editor) :
    (e.previous?.getD e).history = e.history := by
  unfold previous?
  split <;> rfl

@[simp] theorem getD_previous?_queue (e : Editor) : (e.previous?.getD e).queue = e.queue := by
  unfold previous?
  split <;> rfl

@[simp] theorem getD_next?_history (e : Editor) : (e.next?.getD e).history = e.history := by
  unfold next?
  split
  · rfl
  · split <;> rfl

@[simp] theorem getD_next?_queue (e : Editor) : (e.next?.getD e).queue = e.queue := by
  unfold next?
  split
  · rfl
  · split <;> rfl

/-- Only Enter submits, and only a line that is not blank. -/
theorem edit_snd (e : Editor) (k : Key) :
    (e.edit k).2 = if k = .enter ∧ ¬ Text.isBlankText e.buffer then some e.buffer else none := by
  cases k with
  | enter => cases h : Text.isBlankText e.buffer <;> simp [edit, submit_snd, h]
  | char | backspace | up | down => simp [edit]

theorem edit_history (e : Editor) (k : Key) :
    (e.edit k).1.history = e.history ++ (e.edit k).2.toList := by
  cases k <;> simp [edit, type, getD_erase?, submit_history]

@[simp] theorem edit_queue (e : Editor) (k : Key) : (e.edit k).1.queue = e.queue := by
  cases k <;> simp [edit, type, getD_erase?]

/-- Where no line is recalled, a key edits. -/
theorem press_of_ne (e : Editor) {k : Key} (hu : k ≠ .up) (hd : k ≠ .down) :
    e.press k = e.edit k := by
  cases k with
  | up => exact absurd rfl hu
  | down => exact absurd rfl hd
  | char | backspace | enter => rfl

/-- Recall submits nothing. -/
theorem press_snd (e : Editor) (k : Key) : (e.press k).2 = (e.edit k).2 := by
  cases k <;> rfl

theorem press_history (e : Editor) (k : Key) :
    (e.press k).1.history = e.history ++ (e.press k).2.toList := by
  cases k <;> simp [press, edit_history]

@[simp] theorem press_queue (e : Editor) (k : Key) : (e.press k).1.queue = e.queue := by
  cases k <;> simp [press]

/-- **While a command runs** a key edits as ever, and what it submits waits. -/
theorem pressBusy_fst (e : Editor) (k : Key) :
    (e.pressBusy k).1 =
      { (e.edit k).1 with queue := e.queue ++ (e.edit k).2.toList } := by
  have hq : (e.edit k).1.queue = e.queue := edit_queue e k
  unfold pressBusy
  split <;> rename_i h <;> rw [h] at hq ⊢ <;> simp_all [enqueue]
  rw [← hq]

end Editor

end AgentShell
