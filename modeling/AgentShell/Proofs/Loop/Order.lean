import AgentShell.Proofs.Loop.Trace
import AgentShell.Proofs.Shell.Reach

/-!
# The order of lines

Whatever keys come and whenever the line that runs is complete, the lines that have begun and those
that wait are the submitted lines, in the order in which they were submitted. Lines come in while no
line runs, and while one does; they leave when they are handed out, and when an output is in. The
invariant is kept by each of these.

## Main definitions

* `Loop.submitted`: the lines that the keys among events submit
* `Loop.InOrder`: the invariant of a loop and its trace

## Main results

* `Loop.InOrder.step`, `Loop.InOrder.run`: the invariant is kept by a step, and by a run
* `Loop.InOrder.history_run`: the history grows by what is submitted
* `Loop.run_in_submission_order`: lines run one at a time and in the order of submission
-/

namespace AgentShell.Loop

open Shell

/-! ## Lines that are submitted -/

/-- The lines that an event submits: an Enter that reaches the session submits a line that is not
blank. -/
def submits (l : Loop) : Event → List String
  | .key .enter =>
    if l.isOpen && !Text.isBlankText l.session.editor.buffer then [l.session.editor.buffer] else []
  | _ => []

/-- The lines that events submit in turn. -/
def submitted (l : Loop) : List Event → List String
  | [] => []
  | e :: es => l.submits e ++ submitted (l.step e).1 es

/-- **The invariant of a run**, about a loop and all that it did since the start. -/
structure InOrder (style : Style) (label : String) (l : Loop) (actions : List Action) : Prop where
  style_eq : l.session.style = style
  label_eq : l.session.label = label
  busy : l.session.busy = l.running.isSome
  queue_eq_nil : l.running = none → l.session.editor.queue = []
  history : launched actions ++ l.session.editor.queue = l.session.editor.history
  words : ∀ line ∈ l.session.editor.history, Text.words line ≠ []
  orderly : Orderly style label l.running actions

variable {style : Style} {label : String} {l : Loop} {actions : List Action}

theorem InOrder.start (w : Workspace) (label : String) (style : Style) (echo : Bool) :
    InOrder style label { session := .fresh w label style echo } [] where
  style_eq := rfl
  label_eq := rfl
  busy := rfl
  queue_eq_nil _ := rfl
  history := rfl
  words line h := by cases h
  orderly := .nil

/-- A line that an edit submits has words. -/
theorem words_ne_nil_of_edit {e : Editor} {k : Key} {line : String}
    (h : line ∈ (e.edit k).2.toList) : Text.words line ≠ [] := by
  rw [Editor.edit_snd] at h
  split at h
  · rename_i hk
    obtain rfl : line = e.buffer := by simpa using h
    rw [Ne, Text.words_eq_nil_iff]
    exact hk.2
  · cases h

theorem submits_key (l : Loop) (k : Key) :
    l.submits (.key k) = if l.isOpen then (l.session.editor.edit k).2.toList else [] := by
  cases k with
  | enter =>
    cases ho : l.isOpen <;> cases hb : Text.isBlankText l.session.editor.buffer <;>
      simp [submits, Editor.edit_snd, ho, hb]
  | char | backspace | up | down => simp [submits, Editor.edit_snd]

/-! ## One step -/

theorem InOrder.free (h : InOrder style label l actions) (hr : l.running = none) :
    l.session.busy = false := by
  rw [h.busy, hr, Option.isSome_none]

/-- **A key while no line runs**: the line that it submits begins. -/
theorem InOrder.press_idle (h : InOrder style label l actions) (hr : l.running = none) (k : Key) :
    InOrder style label (l.follow (l.session.press k)).1
      (actions ++ (l.follow (l.session.press k)).2) := by
  have hb := h.free hr
  have hq : l.session.editor.queue = [] := h.queue_eq_nil hr
  have ho := h.orderly
  rw [hr] at ho
  constructor
  case style_eq => simp [follow, Session.press_session hb, h.style_eq]
  case label_eq => simp [follow, Session.press_session hb, h.label_eq]
  case busy => simp [follow, Session.press_session hb, Session.press_dispatch hb]
  case queue_eq_nil => simp [follow, Session.press_session hb, hq]
  case history =>
    have hh := h.history
    rw [hq, List.append_nil] at hh
    simp [follow, Session.press_session hb, Session.press_dispatch hb, Editor.press_history, hq, hh]
  case words =>
    intro line hl
    simp only [follow, Session.press_session hb, Editor.press_history, Editor.press_snd,
      List.mem_append] at hl
    exact hl.elim (h.words line) words_ne_nil_of_edit
  case orderly => exact ho.append_draws _ _

/-- **A key while a line runs**: the line that it submits waits. -/
theorem InOrder.press_busy (h : InOrder style label l actions) {line : String}
    (hr : l.running = some line) (k : Key) :
    InOrder style label
      { l with session := { l.session with editor := (l.session.editor.pressBusy k).1 } }
      actions := by
  constructor
  case style_eq => exact h.style_eq
  case label_eq => exact h.label_eq
  case busy => exact h.busy
  case queue_eq_nil => exact fun hn => absurd (hr.symm.trans hn) (by simp)
  case history =>
    simp only [Editor.pressBusy_fst, Editor.edit_history, ← h.history, List.append_assoc]
  case words =>
    intro line hl
    simp only [Editor.pressBusy_fst, Editor.edit_history, List.mem_append] at hl
    exact hl.elim (h.words line) words_ne_nil_of_edit
  case orderly => exact h.orderly

/-- **An output**: the oldest line that waits begins. -/
theorem InOrder.complete (h : InOrder style label l actions) (o : Output) :
    InOrder style label (l.complete o).1 (actions ++ (l.complete o).2) := by
  cases hr : l.running with
  | none => simpa [Loop.complete, hr] using h
  | some line =>
    have ho := h.orderly
    rw [hr] at ho
    have hs : (l.session.present o).1.prompt =
        .write (style.prompt label (l.session.workspace.applyAll o.effects).cwd) := by
      rw [← h.style_eq, ← h.label_eq]; rfl
    have hp : (l.session.present o).2 = Session.outputCalls style o := by rw [← h.style_eq]; rfl
    cases hq : l.session.editor.queue with
    | nil =>
      rw [complete_of_running hr]
      simp only [follow, Session.finish_of_queue_nil hq, hs, hp]
      refine ⟨h.style_eq, h.label_eq, rfl, fun _ => hq, ?_, h.words, ho.append_output o _ _ none⟩
      simpa [hq, Session.present] using h.history
    | cons next rest =>
      rw [complete_of_running hr]
      simp only [follow, Session.finish_of_queue_cons hq, hs, hp]
      refine ⟨h.style_eq, h.label_eq, rfl, ?_, ?_, h.words, ho.append_output o _ _ (some next)⟩
      · intro hn
        cases hn
      · simpa [hq] using h.history

theorem InOrder.step (h : InOrder style label l actions) (e : Event) :
    InOrder style label (l.step e).1 (actions ++ (l.step e).2) := by
  cases e with
  | key k =>
    rw [Loop.step]
    cases ho : l.isOpen with
    | false => simpa [press, ho] using h
    | true =>
      cases hr : l.running with
      | none =>
        rw [press_of_idle ho hr]
        exact h.press_idle hr k
      | some line =>
        rw [press_of_running ho hr, List.append_nil]
        exact h.press_busy hr k
  | output o => exact h.complete o
  | close =>
    rw [Loop.step, List.append_nil]
    exact ⟨h.style_eq, h.label_eq, h.busy, h.queue_eq_nil, h.history, h.words, h.orderly⟩

/-! ## Whole runs -/

theorem InOrder.run (h : InOrder style label l actions) (es : List Event) :
    InOrder style label (l.run es).1 (actions ++ (l.run es).2) := by
  -- Induction on the events: what was done before grows with each step.
  induction es generalizing l actions with
  | nil => simpa [Loop.run] using h
  | cons e es ih => simpa [Loop.run] using ih (h.step e)

theorem InOrder.history_step (h : InOrder style label l actions) (e : Event) :
    (l.step e).1.session.editor.history = l.session.editor.history ++ l.submits e := by
  cases e with
  | key k =>
    rw [submits_key, Loop.step]
    cases ho : l.isOpen with
    | false => simp [press, ho]
    | true =>
      cases hr : l.running with
      | none =>
        rw [press_of_idle ho hr]
        simp [follow, Session.press_session (h.free hr), Editor.press_history, Editor.press_snd]
      | some line =>
        rw [press_of_running ho hr]
        simp [Editor.pressBusy_fst, Editor.edit_history]
  | output o =>
    cases hr : l.running with
    | none => simp [Loop.step, Loop.complete, submits, hr]
    | some line =>
      rw [Loop.step, complete_of_running hr]
      simp [submits, follow, Session.finish_session]
  | close => simp [Loop.step, close, submits]

/-- **The history grows by what is submitted**, and by nothing else. -/
theorem InOrder.history_run (h : InOrder style label l actions) (es : List Event) :
    (l.run es).1.session.editor.history = l.session.editor.history ++ l.submitted es := by
  induction es generalizing l actions with
  | nil => simp [Loop.run, submitted]
  | cons e es ih =>
    rw [Loop.run, ih (h.step e), h.history_step, submitted, List.append_assoc]

/-- A loop that was told of an output for each line that began runs none. -/
theorem InOrder.running_eq_none (h : InOrder style label l actions)
    (hc : (outputs actions).length = (launched actions).length) : l.running = none := by
  have := length_launched h.orderly.inFlight
  cases hr : l.running with
  | none => rfl
  | some line =>
    simp only [hr, Option.toList_none, Option.toList_some, List.length_nil,
      List.length_singleton] at this
    omega

/-- **Lines run one at a time, in the order in which they were submitted**, whatever the keys are,
whenever the line that runs is complete and whatever it answers, and wherever the keys end. At every
point of a run:

* the lines that have begun, and behind them those that wait, are the history, and the history is
  what the keys submitted;
* at most one line that has begun is not complete, also in the midst of a step;
* every line that has begun has words;
* every line but the first began behind the output of the line before it and the next prompt.

Once no key can come and each line that has begun is complete, the run is over: the session is free,
no line waits, and the lines that have run are those that were submitted.

A shell, which decides by an interpreter what its lines answer, runs no other way. -/
theorem run_in_submission_order (w : Workspace) (label : String) (style : Style) (echo : Bool) :
    let start : Loop := { session := .fresh w label style echo }
    (∀ es : List Event,
      let l := (start.run es).1
      let actions := (start.run es).2
      launched actions ++ l.session.editor.queue = l.session.editor.history ∧
      l.session.editor.history = start.submitted es ∧
      (∀ before, before <+: actions →
        (outputs before).length ≤ (launched before).length ∧
          (launched before).length ≤ (outputs before).length + 1) ∧
      (∀ line ∈ launched actions, Text.words line ≠ []) ∧
      (∀ before line after, actions = before ++ .launch line :: after → launched before ≠ [] →
        Prompted style label before) ∧
      (l.isOpen = false → (outputs actions).length = (launched actions).length →
        l.ended ∧ l.session.busy = false ∧ l.session.editor.queue = [] ∧
          launched actions = start.submitted es)) ∧
    ∀ (i : Interpreter) (es : List Shell.Event), ∃ es', keys es' = received es ∧
      start.run es' = (((Shell.fresh w label style echo i).run es).1.toLoop,
        loopActions ((Shell.fresh w label style echo i).run es).2) := by
  intro start
  constructor
  · intro es l actions
    have h₀ := InOrder.start w label style echo
    have h : InOrder style label l actions := h₀.run es
    have hs : l.session.editor.history = start.submitted es := h₀.history_run es
    refine ⟨h.history, hs, fun _ hp => length_launched_of_prefix h.orderly.inFlight hp, ?_,
      h.orderly.order, ?_⟩
    · intro line hl
      exact h.words line (h.history ▸ List.mem_append_left _ hl)
    · intro ho hc
      have hr := h.running_eq_none hc
      have hq := h.queue_eq_nil hr
      refine ⟨by simp [ended, ho, hr], h.free hr, hq, ?_⟩
      rw [← hs, ← h.history, hq, List.append_nil]
  · intro i es
    have ho : (Shell.fresh w label style echo i).isOpen = true := rfl
    exact exists_run_loop ho es

/-- Two lines are typed, the second while the first runs, and the keys end before any output. -/
theorem run_in_submission_order_of_typeahead :
    let start : Loop := { session := .fresh ⟨.empty, "/", "/"⟩ "CUAG" ⟨false⟩ true }
    let es : List Event :=
      [.key (.char 'a'), .key .enter, .key (.char 'b'), .key .enter, .close, .output {}, .output {}]
    (start.run es).1.ended ∧ launched (start.run es).2 = ["a", "b"] := by
  obtain ⟨-, -, -, -, -, hend⟩ := (run_in_submission_order ⟨.empty, "/", "/"⟩ "CUAG" ⟨false⟩ true).1
    [.key (.char 'a'), .key .enter, .key (.char 'b'), .key .enter, .close, .output {}, .output {}]
  obtain ⟨he, -, -, hl⟩ := hend (by decide) (by decide)
  exact ⟨he, hl.trans (by decide)⟩

end AgentShell.Loop
