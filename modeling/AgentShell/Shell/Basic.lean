import AgentShell.Shell.Loop

/-!
# Shells

A shell is a loop with an interpreter that decides what its lines do. A line that is answered at
once is complete before the next key is looked at. A task puts its prompt to the generator, and the
shell takes keys until the reply is in; lines submitted meanwhile wait in the editor. Time plays no
part here: a shell is moved by keys and by replies, in whatever order they arrive.

## Main definitions

* `Shell`: a loop, and the meaning of its lines
* `Shell.fresh`: a shell that starts
* `Shell.waiting`: the prompt whose reply is awaited
* `Shell.settle`: the lines that are answered at once
* `Shell.step`, `Shell.run`: one event, and events in turn
* `Shell.runLine`: a line by itself, without prompt and echo

## Main results

* `Shell.outstanding_settle_le`, `Shell.outstanding_receive_lt`: a reply leaves one line less
-/

namespace AgentShell

/-- A loop, and the meaning of its lines. -/
structure Shell extends Loop where
  interpreter : Interpreter := {}

namespace Shell

/-- A shell that starts. -/
def fresh (w : Workspace) (label : String) (style : Style) (echo : Bool)
    (i : Interpreter) : Shell :=
  { session := .fresh w label style echo, interpreter := i }

/-- What moves a shell. -/
inductive Event where
  | key (k : Key)
  /-- The reply to the prompt that was asked. -/
  | reply (r : Reply)
  /-- The channel of the keys closes. -/
  | close

/-- The prompt whose reply the running line waits for. -/
def waiting (s : Shell) : Option Prompt :=
  s.running.bind fun line =>
    match s.interpreter.start line s.session.workspace with
    | .asks prompt => some prompt
    | .done _ => none

/-- **The lines that are answered at once** are complete one after another, up to the first that
puts a prompt to the generator. -/
def settle (s : Shell) : Shell × List Action :=
  match _h : s.running with
  | none => (s, [])
  | some line =>
    match s.interpreter.start line s.session.workspace with
    | .asks prompt => (s, [.ask prompt])
    | .done output =>
      let t := s.toLoop.complete output
      let last := settle { s with toLoop := t.1 }
      (last.1, t.2 ++ last.2)
termination_by s.outstanding
decreasing_by exact Loop.outstanding_complete_lt _h output

/-- A step of the loop, and the lines that are answered at once behind it. -/
def advance (s : Shell) (t : Loop × List Action) : Shell × List Action :=
  let last := settle { s with toLoop := t.1 }
  (last.1, t.2 ++ last.2)

/-- A key. While a line runs it only reaches the editor. -/
def press (s : Shell) (k : Key) : Shell × List Action :=
  match s.running with
  | none => s.advance (s.toLoop.press k)
  | some _ => ({ s with toLoop := (s.toLoop.press k).1 }, [])

/-- **The reply to the prompt that was asked**: the line is complete, and the next may begin. A
reply that no prompt waits for is dropped. -/
def receive (s : Shell) (r : Reply) : Shell × List Action :=
  match s.waiting with
  | none => (s, [])
  | some prompt => s.advance (s.toLoop.complete (Task.output prompt r))

/-- **One event.** -/
def step (s : Shell) : Event → Shell × List Action
  | .key k => s.press k
  | .reply r => s.receive r
  | .close => ({ s with toLoop := s.toLoop.close }, [])

/-- Events in turn. -/
def run (s : Shell) : List Event → Shell × List Action
  | [] => (s, [])
  | e :: es =>
    let t := s.step e
    let last := t.1.run es
    (last.1, t.2 ++ last.2)

/-- What a shell draws before the first key: the banner and the prompt. -/
def opening (s : Shell) : List Action :=
  s.session.start.map .draw

/-- The output of a line run by itself, without prompt and echo, and the calls that draw it. There
is none if its reply never comes. -/
def runLine (s : Shell) (generator : Generator) (line : String) :
    Option (Shell × Output × List DisplayCall) :=
  (s.interpreter.execute generator line s.session.workspace).map fun output =>
    let drawn := s.session.present output
    ({ s with session := drawn.1 }, output, drawn.2)

/-- Settling leaves no more lines than before. -/
theorem outstanding_settle_le (s : Shell) : s.settle.1.outstanding ≤ s.outstanding := by
  -- Induction on the lines that are answered at once: each is one less.
  fun_induction settle s with
  | case1 s h => exact Nat.le_refl _
  | case2 s line h prompt hs => exact Nat.le_refl _
  | case3 s line h output hs t last ih =>
    exact Nat.le_trans ih (Nat.le_of_lt (Loop.outstanding_complete_lt h output))

theorem settle_of_running_eq_none {s : Shell} (h : s.running = none) : s.settle = (s, []) := by
  rw [settle]
  split
  · rfl
  · rename_i hr
    exact absurd (h.symm.trans hr) (by simp)

/-- A line that is left by settling waits for a reply. -/
theorem running_settle_of_waiting {s : Shell} (h : s.settle.1.waiting = none) :
    s.settle.1.running = none := by
  fun_induction settle s with
  | case1 s hr => exact hr
  | case2 s line hr prompt hs => simp [waiting, hr, hs] at h
  | case3 s line hr output hs t last ih => exact ih h

/-- A line that a key leaves waits for a reply. -/
theorem running_press_of_waiting {s : Shell} {k : Key} (hr : s.running = none)
    (hw : (s.press k).1.waiting = none) : (s.press k).1.running = none := by
  simp only [press, hr, advance] at hw ⊢
  exact running_settle_of_waiting hw

/-- A line that waits for a reply runs. -/
theorem exists_running_of_waiting {s : Shell} {prompt : Prompt} (h : s.waiting = some prompt) :
    ∃ line, s.running = some line ∧
      s.interpreter.start line s.session.workspace = .asks prompt := by
  obtain ⟨line, hr, hs⟩ := Option.bind_eq_some_iff.1 h
  refine ⟨line, hr, ?_⟩
  cases ha : s.interpreter.start line s.session.workspace with
  | done output => simp [ha] at hs
  | asks asked =>
    rw [ha] at hs
    rw [Option.some.inj hs]

/-- **A reply that is awaited leaves one line less.** -/
theorem outstanding_receive_lt {s : Shell} {prompt : Prompt} (h : s.waiting = some prompt)
    (r : Reply) : (s.receive r).1.outstanding < s.outstanding := by
  obtain ⟨line, hr, -⟩ := exists_running_of_waiting h
  simp only [receive, h, advance]
  exact Nat.lt_of_le_of_lt (outstanding_settle_le _) (Loop.outstanding_complete_lt hr _)

end Shell

end AgentShell
