import AgentShell.Proofs.Editor
import AgentShell.Session

/-!
# What stands behind the prompt

A session with echo keeps the typed line on the screen, behind the prompt. Keys that come in while a
line is out are not drawn, and an output draws the line anew behind the next prompt. So whatever the
keys and the outputs were, a session that is free shows its last prompt as it was drawn and the
typed line behind it.

## Main definitions

* `Session.Input`, `Session.react`: what comes in from outside
* `Session.callsToPrompt?`: the calls of a reaction up to the prompt, if it draws one
* `Canvas`: a session, its screen, and the screen as the last prompt left it
* `Canvas.InStep`: the typed line stands behind the prompt

## Main results

* `Session.exists_react_calls`, `Session.getLast?_callsToPrompt?`: behind the prompt a reaction
  draws echo only
* `Session.drawAll_press`: the echo of a key is the change of the typed line
* `Canvas.InStep.step`, `Canvas.InStep.run`: the screen stays in step
* `Canvas.text_eq_prompted_append_buffer`: a free session shows prompt and typed line
-/

namespace AgentShell

/-! ## What a session answers with -/

namespace Session

/-- What comes in from outside. -/
inductive Input where
  | key (k : Key)
  /-- The output of the line that was handed out. -/
  | output (o : Output)

/-- An input that types no control character. -/
def Input.Printable : Input → Prop
  | .key k => k.Printable
  | .output _ => True

instance (i : Input) : Decidable i.Printable :=
  match i with
  | .key k => inferInstanceAs (Decidable k.Printable)
  | .output _ => inferInstanceAs (Decidable True)

/-- What an input leads to. -/
def react (s : Session) : Input → Reaction
  | .key k => s.press k
  | .output o => s.finish o

/-- The calls of a reaction up to the prompt and with it. An output always prompts; of the keys only
Enter does, where the session is free and the typed line is blank. -/
def callsToPrompt? (s : Session) : Input → Option (List DisplayCall)
  | .key k =>
    if !s.busy && k == .enter && Text.isBlankText s.editor.buffer then some (s.press k).calls
    else none
  | .output o => some ((s.present o).2 ++ [(s.present o).1.prompt])

theorem exists_redraw_calls (s : Session) (e : Option Editor) :
    ∃ echo, (s.redraw e).calls = s.echoed echo := by
  cases e with
  | none => exact ⟨[], by simp [redraw, echoed]⟩
  | some e => exact ⟨_, rfl⟩

/-- A reaction draws its prompt, if it has one, and behind it only what a session with echo
draws. -/
theorem exists_react_calls (s : Session) (i : Input) :
    ∃ echo, (s.react i).calls = (s.callsToPrompt? i).getD [] ++ s.echoed echo := by
  cases i with
  | output o =>
    cases hq : s.editor.queue with
    | nil =>
      refine ⟨if s.editor.buffer = "" then [] else [.write s.editor.buffer], ?_⟩
      simp [react, callsToPrompt?, finish_of_queue_nil hq, typedCalls]
    | cons line rest =>
      refine ⟨[.line line], ?_⟩
      simp [react, callsToPrompt?, finish_of_queue_cons hq]
  | key k =>
    cases hb : s.busy with
    | true => exact ⟨[], by simp [react, callsToPrompt?, press, hb, echoed]⟩
    | false =>
      cases k with
      | char c => exact ⟨[.write (String.singleton c)], by simp [react, callsToPrompt?, press, hb]⟩
      | backspace =>
        cases he : s.editor.erase? with
        | none => exact ⟨[], by simp [react, callsToPrompt?, press, hb, he, echoed]⟩
        | some e => exact ⟨[.write eraseChar], by simp [react, callsToPrompt?, press, hb, he]⟩
      | up => simpa [react, callsToPrompt?, press, hb] using exists_redraw_calls s _
      | down => simpa [react, callsToPrompt?, press, hb] using exists_redraw_calls s _
      | enter =>
        cases ht : Text.isBlankText s.editor.buffer with
        | true => exact ⟨[], by simp [react, callsToPrompt?, hb, ht, echoed]⟩
        | false =>
          refine ⟨[.line ""], ?_⟩
          simp [react, callsToPrompt?, hb, ht, press_enter_of_not_blank hb ht]

theorem getLast?_callsToPrompt? {s : Session} {i : Input} {calls : List DisplayCall}
    (h : s.callsToPrompt? i = some calls) :
    calls.getLast? = some (s.react i).session.prompt := by
  cases i with
  | output o =>
    obtain rfl : _ = calls := Option.some.inj h
    cases hq : s.editor.queue with
    | nil => simp [react, finish_of_queue_nil hq, prompt, present]
    | cons line rest => simp [react, finish_of_queue_cons hq, prompt, present]
  | key k =>
    simp only [callsToPrompt?] at h
    split at h
    · rename_i hc
      simp only [Bool.and_eq_true, Bool.not_eq_true', beq_iff_eq] at hc
      obtain ⟨⟨hb, rfl⟩, ht⟩ := hc
      obtain rfl : _ = calls := Option.some.inj h
      simp [react, press_enter_of_blank hb ht, prompt]
    · cases h

/-! ## What echo draws -/

section Echo

variable {s : Session}

@[simp] theorem echoed_of_echo (he : s.echo = true) (calls : List DisplayCall) :
    s.echoed calls = calls :=
  if_pos he

theorem drawAll_redraw (he : s.echo = true) (hp : s.editor.Printable) {e : Option Editor}
    (hr : (e.getD s.editor).Printable) (t : String) :
    Screen.drawAll ⟨t ++ s.editor.buffer⟩ (s.redraw e).calls =
      ⟨t ++ (s.redraw e).session.editor.buffer⟩ := by
  cases e with
  | none => rfl
  | some e =>
    have hb : Text.Printable e.buffer := hr.buffer
    simp only [redraw, echoed_of_echo he, Screen.drawAll_cons, Screen.drawAll_nil, Screen.draw]
    rw [Screen.put_repeatText_eraseChar t hp.buffer, Screen.put_printable _ hb]

/-- **The echo of a key** is the change of the typed line, whatever stands in front of it. -/
theorem drawAll_press (hb : s.busy = false) (he : s.echo = true) (hp : s.editor.Printable) {k : Key}
    (hk : k.Printable) (hne : k ≠ .enter) (t : String) :
    Screen.drawAll ⟨t ++ s.editor.buffer⟩ (s.press k).calls =
      ⟨t ++ (s.press k).session.editor.buffer⟩ := by
  cases k with
  | char c =>
    have hc : c ≠ '\x08' := Text.ne_backspace_of_not_control hk
    simp [press, hb, he, Screen.draw, Screen.put, Editor.type, Screen.putChar_of_ne _ hc,
      Text.append_push]
  | backspace =>
    -- an empty line is not erased, so what stands in front of it stays
    by_cases hn : s.editor.buffer = ""
    · simp [press, hb, Editor.erase?, hn]
    · obtain ⟨c, hc⟩ := Text.exists_eq_push hn
      have hl : c ≠ '\n' := by
        refine Text.ne_newline_of_not_control (hp.buffer c ?_)
        rw [hc]
        simp
      simp only [press, hb, Editor.erase?, if_neg hn, echoed_of_echo he, Screen.drawAll_cons,
        Screen.drawAll_nil, Screen.draw, Bool.false_eq_true, if_false]
      rw [hc, Text.append_push, Screen.put_eraseChar _ hl, Text.init_push]
  | up => simpa [press, hb] using drawAll_redraw he hp hp.previous? t
  | down => simpa [press, hb] using drawAll_redraw he hp hp.next? t
  | enter => exact absurd rfl hne

/-- **An output where no line waits** leaves the typed line behind the prompt. -/
theorem drawAll_finish_of_queue_nil (hq : s.editor.queue = []) (he : s.echo = true)
    (hp : s.editor.Printable) (screen : Screen) (o : Output) :
    screen.drawAll (s.finish o).calls =
      ⟨(screen.drawAll ((s.present o).2 ++ [(s.present o).1.prompt])).text ++ s.editor.buffer⟩ := by
  rw [finish_of_queue_nil hq, Screen.drawAll_append, Screen.drawAll_append, Screen.drawAll_cons,
    Screen.drawAll_cons, Screen.drawAll_nil, typedCalls, echoed_of_echo he]
  split
  · rename_i hn
    simp [hn]
  · simp only [Screen.drawAll_cons, Screen.drawAll_nil, Screen.draw]
    rw [Screen.put_printable _ hp.buffer]

end Echo

end Session

/-! ## A session and its screen -/

/-- A session, its screen, and the screen as the prompt that was drawn last left it. -/
structure Canvas where
  session : Session
  screen : Screen
  prompted : Screen

namespace Canvas

open Session (Input)

/-- A session that greets on a screen. -/
def start (s : Session) (screen : Screen) : Canvas :=
  ⟨s, screen.drawAll s.start, screen.drawAll s.start⟩

/-- An input: what it leads to is drawn. -/
def step (c : Canvas) (i : Input) : Canvas where
  session := (c.session.react i).session
  screen := c.screen.drawAll (c.session.react i).calls
  prompted := (c.session.callsToPrompt? i).elim c.prompted c.screen.drawAll

/-- Inputs in turn. -/
def run (c : Canvas) (inputs : List Input) : Canvas :=
  inputs.foldl step c

/-! ## The screen in step with the line -/

/-- **The typed line stands behind the prompt** where the session is free. -/
structure InStep (c : Canvas) : Prop where
  echo : c.session.echo = true
  printable : c.session.editor.Printable
  text : c.session.busy = false → c.screen.text = c.prompted.text ++ c.session.editor.buffer

namespace InStep

variable {c : Canvas}

theorem start (w : Workspace) (label : String) (style : Style) (screen : Screen) :
    (Canvas.start (.fresh w label style true) screen).InStep where
  echo := rfl
  printable := .empty
  text _ := String.append_empty.symm

/-- **A key while a line is out** is not drawn. -/
theorem key_busy (h : c.InStep) (hb : c.session.busy = true) {k : Key} (hk : k.Printable) :
    (c.step (.key k)).InStep := by
  have hp : c.session.press k =
      { session := { c.session with editor := (c.session.editor.pressBusy k).1 } } := by
    simp [Session.press, hb]
  constructor
  case echo => simpa [step, Session.react, hp] using h.echo
  case printable => simpa [step, Session.react, hp] using h.printable.pressBusy hk
  case text => simp [step, Session.react, hp, hb]

/-- **A key while no line is out**: Enter ends with a prompt or with a line that is out, and any
other key draws what it does to the typed line. -/
theorem key_free (h : c.InStep) (hb : c.session.busy = false) {k : Key} (hk : k.Printable) :
    (c.step (.key k)).InStep := by
  have hs := Session.press_session hb k
  constructor
  case echo => simpa [step, Session.react, hs] using h.echo
  case printable => simpa [step, Session.react, hs] using h.printable.press hk
  case text =>
    intro hf
    by_cases he : k = .enter
    · subst he
      cases ht : Text.isBlankText c.session.editor.buffer with
      | true =>
        simp [step, Session.react, hs, Session.callsToPrompt?, hb, ht, Editor.press, Editor.edit]
      | false => simp [step, Session.react, Session.press_enter_of_not_blank hb ht] at hf
    · have hc : c.screen = ⟨c.prompted.text ++ c.session.editor.buffer⟩ :=
        congrArg Screen.mk (h.text hb)
      have hd := Session.drawAll_press hb h.echo h.printable hk he c.prompted.text
      simp [step, Session.react, Session.callsToPrompt?, he, hc, hd]

/-- **An output** ends with a prompt, and where the session is free, with the typed line. -/
theorem output (h : c.InStep) (o : Output) : (c.step (.output o)).InStep := by
  cases hq : c.session.editor.queue with
  | nil =>
    have hs := Session.finish_of_queue_nil hq o
    constructor
    case echo => simpa [step, Session.react, hs, Session.present] using h.echo
    case printable => simpa [step, Session.react, hs, Session.present] using h.printable
    case text =>
      intro _
      have hd := Session.drawAll_finish_of_queue_nil hq h.echo h.printable c.screen o
      simp [step, Session.react, Session.callsToPrompt?, hd]
      simp [hs, Session.present]
  | cons line rest =>
    have hs := Session.finish_of_queue_cons hq o
    constructor
    case echo => simpa [step, Session.react, hs, Session.present] using h.echo
    case printable => simpa [step, Session.react, hs] using h.printable.of_queue_cons hq
    case text => simp [step, Session.react, hs]

theorem step (h : c.InStep) {i : Input} (hi : i.Printable) : (c.step i).InStep := by
  cases i with
  | key k =>
    cases hb : c.session.busy with
    | true => exact h.key_busy hb hi
    | false => exact h.key_free hb hi
  | output o => exact h.output o

theorem run (h : c.InStep) {inputs : List Input} (hi : ∀ i ∈ inputs, i.Printable) :
    (c.run inputs).InStep := by
  induction inputs generalizing c with
  | nil => exact h
  | cons i inputs ih =>
    exact ih (h.step (hi i (List.mem_cons_self ..))) fun j hj => hi j (List.mem_cons_of_mem _ hj)

end InStep

/-- **A free session shows its last prompt and the typed line behind it**, whatever keys came, at
whatever times outputs came in, and whatever the outputs drew. -/
theorem text_eq_prompted_append_buffer (w : Workspace) (label : String) (style : Style)
    (screen : Screen) (inputs : List Input) (hi : ∀ i ∈ inputs, i.Printable) :
    let c := (start (.fresh w label style true) screen).run inputs
    c.session.busy = false → c.screen.text = c.prompted.text ++ c.session.editor.buffer :=
  ((InStep.start w label style screen).run hi).text

/-- A line is handed out, a character is typed unseen, the output clears the screen, and then the
line is recalled and its last character taken back. -/
theorem text_eq_prompted_of_recall :
    let inputs : List Input :=
      [.key (.char 'l'), .key (.char 's'), .key .enter, .key (.char 'x'),
        .output { lines := [.text "a"], effects := [.clearScreen] }, .key .up, .key .backspace]
    let c := (start (.fresh ⟨.empty, "/", "/"⟩ "CUAG" ⟨false⟩ true) {}).run inputs
    (∀ i ∈ inputs, i.Printable) ∧ c.session.busy = false ∧
      c.screen.text = c.prompted.text ++ "l" := by
  refine ⟨by decide, by decide, ?_⟩
  exact (text_eq_prompted_append_buffer _ _ _ _ _ (by decide) (by decide)).trans
    (congrArg _ (by decide))

end Canvas

end AgentShell
