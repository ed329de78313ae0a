import AgentShell.Proofs.Command.Prompt
import AgentShell.Proofs.Loop.Trace
import AgentShell.Proofs.Shell.Clock

/-!
# The prompts of a run

A shell asks a prompt when a line that has one begins to run, and at no other time. So the generator
sees the prompts of the tasks among the lines that were run, in order, whatever keys and replies
come in between, and whatever the clock does.

## Main definitions

* `Shell.Silent`: a step of the loop, which asks nothing itself

## Main results

* `Shell.prompts_step`, `Shell.prompts_run`: a step, and any run of a shell
* `TimedShell.prompts_run`: any run on a clock
* `prompts_of_lines_and_runs`: the prompts of a line, of lines in turn and of runs
-/

namespace AgentShell

namespace Shell

variable {s : Shell} {l : Loop}

section Loop

/-- A loop asks nothing itself, and the line that begins is the one that runs then. -/
def Silent (t : Loop × List Action) : Prop :=
  prompts t.2 = [] ∧ launched t.2 = t.1.running.toList

theorem silent_follow (l : Loop) (r : Session.Reaction) : Silent (l.follow r) := by
  simp [Silent, Loop.follow]

theorem silent_press (h : l.running = none) (k : Key) : Silent (l.press k) := by
  rw [Loop.press]
  split
  · rw [h]
    exact silent_follow ..
  · exact ⟨rfl, by rw [h]; rfl⟩

theorem silent_complete {line : String} (h : l.running = some line) (o : Output) :
    Silent (l.complete o) := by
  rw [Loop.complete_of_running h]
  exact silent_follow l (l.session.finish o)

end Loop

section Interpreter

@[simp] theorem settle_interpreter (s : Shell) : s.settle.1.interpreter = s.interpreter := by
  fun_induction settle s with
  | case1 s h => rfl
  | case2 s line h prompt hs => rfl
  | case3 s line h output hs t last ih => exact ih

@[simp] theorem step_interpreter (s : Shell) (e : Event) :
    (s.step e).1.interpreter = s.interpreter := by
  cases e with
  | key k =>
    simp only [step, press]
    split
    · exact settle_interpreter _
    · rfl
  | reply r =>
    simp only [step, receive]
    split
    · rfl
    · exact settle_interpreter _
  | close => rfl

end Interpreter

/-- **Lines that are answered at once, up to the first that asks**: behind a line that runs, the
prompts are those of the tasks among that line and the lines that begin. -/
theorem prompts_settle (hi : s.interpreter.registry = .builtin) :
    prompts s.settle.2 =
      (s.running.toList ++ launched s.settle.2).filterMap s.interpreter.taskPrompt? := by
  fun_induction settle s with
  | case1 s hr => simp [hr, prompts]
  | case2 s line hr prompt hs =>
    have hp := (Interpreter.start_eq_asks_iff hi).1 hs
    simp [hr, hp, prompts, launched]
  | case3 s line hr output hs t last ih =>
    have hp : s.interpreter.taskPrompt? line = none := by
      rw [Option.eq_none_iff_forall_ne_some]
      intro p hp
      rw [(Interpreter.start_eq_asks_iff hi).2 hp] at hs
      cases hs
    obtain ⟨hasks, hlaunched⟩ : Silent t := silent_complete hr output
    rw [prompts_append, launched_append, hasks, hlaunched, hr]
    simpa [hp] using ih hi

theorem prompts_advance (hi : s.interpreter.registry = .builtin) {t : Loop × List Action}
    (ht : Silent t) :
    prompts (s.advance t).2 =
      (launched (s.advance t).2).filterMap s.interpreter.taskPrompt? := by
  obtain ⟨hasks, hlaunched⟩ := ht
  simp only [advance, prompts_append, launched_append, hasks, hlaunched, List.nil_append]
  exact prompts_settle (s := { s with toLoop := t.1 }) hi

/-- **A step asks the prompts of the tasks** among the lines that begin. -/
theorem prompts_step (hi : s.interpreter.registry = .builtin) (e : Event) :
    prompts (s.step e).2 = (launched (s.step e).2).filterMap s.interpreter.taskPrompt? := by
  cases e with
  | key k =>
    simp only [step, press]
    cases hr : s.running with
    | none => exact prompts_advance hi (silent_press hr k)
    | some line => rfl
  | reply r =>
    simp only [step, receive]
    cases hw : s.waiting with
    | none => rfl
    | some prompt =>
      obtain ⟨line, hr, -⟩ := exists_running_of_waiting hw
      exact prompts_advance hi (silent_complete hr _)
  | close => rfl

/-- **A run asks the prompts of the tasks** among the lines that begin, in order. -/
theorem prompts_run (hi : s.interpreter.registry = .builtin) (es : List Event) :
    prompts (s.run es).2 = (launched (s.run es).2).filterMap s.interpreter.taskPrompt? := by
  induction es generalizing s with
  | nil => rfl
  | cons e es ih =>
    have hstep := step_interpreter s e
    have hrest := ih (hstep ▸ hi)
    rw [hstep] at hrest
    simp only [run, prompts_append, launched_append, List.filterMap_append]
    rw [prompts_step hi, hrest]

end Shell

/-- **A run on a clock asks the prompts of the tasks** among the lines that begin, with all that the
timers do behind it. -/
theorem TimedShell.prompts_run {s : TimedShell} (hi : s.shell.interpreter.registry = .builtin)
    (es : List Event) :
    let actions := (s.run es).2 ++ (s.run es).1.drain.2
    Shell.prompts actions =
      (Shell.launched actions).filterMap s.shell.interpreter.taskPrompt? := by
  obtain ⟨typed, ht⟩ := s.exists_run_eq es
  obtain ⟨rest, hr⟩ := (s.run es).1.exists_drain_eq
  have h := Shell.prompts_run hi (typed ++ rest)
  rwa [Shell.run_append, ht, hr] at h

/-- **The generator is asked once by a line that is a task for a known agent**, and not at all by
any other line: the verb of the line is `task` in any case of its letters, the line is a request,
and the agent is found. It sees the agent as it was found, the text between the first two quotes
behind the verb as it is, and the preamble of the instructions. The output of any other line is the
same under every generator.

Over lines in turn, each under its own agents and instructions, and over any run of a shell, with
whatever replies or on a clock, the generator sees the prompts of exactly these lines, in order. -/
theorem prompts_of_lines_and_runs :
    (∀ (i : Interpreter) (line : String) (w : Workspace), i.registry = .builtin →
      i.prompts line w = (i.taskPrompt? line).toList ∧
      (∀ p, i.taskPrompt? line = some p ↔ ∃ verb arguments request agent,
        Text.words line = verb :: arguments ∧ Text.lowercase verb = "task" ∧
          Task.Request.parse line = .ok request ∧ i.agents.find? request.agent = some agent ∧
          p = ⟨agent, request.prompt, i.instructions.preamble⟩) ∧
      (∀ p, i.taskPrompt? line = some p →
        (∃ blanks verb front tail,
          line.toList = blanks ++ verb ++ (front ++ '"' :: (p.text.toList ++ '"' :: tail)) ∧
            (∀ c ∈ blanks, Text.isBlank c = true) ∧ (∀ c ∈ verb, Text.isBlank c = false) ∧
            '"' ∉ front ∧ '"' ∉ p.text.toList) ∧
        ∀ generator, i.execute generator line w =
          ((generator p).within i.limit).map (Task.output p)) ∧
      (i.taskPrompt? line = none → ∃ o, ∀ generator, i.execute generator line w = some o)) ∧
    (∀ (w : Workspace) (moves : List Workspace.Move), (∀ m ∈ moves, m.IsBuiltin) →
      w.promptsAll moves = moves.filterMap Workspace.Move.taskPrompt?) ∧
    (∀ (s : Shell) (es : List Shell.Event), s.interpreter.registry = .builtin →
      Shell.prompts (s.run es).2 =
        (Shell.launched (s.run es).2).filterMap s.interpreter.taskPrompt?) ∧
    ∀ (s : TimedShell) (es : List TimedShell.Event), s.shell.interpreter.registry = .builtin →
      let actions := (s.run es).2 ++ (s.run es).1.drain.2
      Shell.prompts actions =
        (Shell.launched actions).filterMap s.shell.interpreter.taskPrompt? := by
  refine ⟨?_, ?_, ?_, ?_⟩
  · intro i line w hi
    refine ⟨Interpreter.prompts_eq_toList hi line w, fun p => Interpreter.taskPrompt?_eq_some_iff,
      fun p hp => ⟨Interpreter.exists_quoted_of_taskPrompt hp, ?_⟩, fun hn => ?_⟩
    · exact fun generator => Interpreter.execute_of_taskPrompt hi hp generator w
    · exact Interpreter.exists_execute_of_no_taskPrompt hi hn w
  · exact fun w moves h => w.promptsAll_eq h
  · exact fun s es hi => Shell.prompts_run hi es
  · exact fun s es hi => TimedShell.prompts_run hi es

/-- A task is submitted while two lines wait behind it: one names nobody, and the other asks when
the reply to the first is in. A prompt keeps its spacing. Lines under instructions that change ask
in the same way. -/
theorem prompts_of_queued_tasks :
    let i : Interpreter := { instructions := ⟨"Be brief.", "", ""⟩ }
    let w : Workspace := .enter .empty "/"
    let editor : Editor :=
      { buffer := "TASK dan x\" a  b\"", queue := ["task o\"c\"", " task dan \"d\" \""] }
    let session : Session := { Session.fresh w "" ⟨false⟩ false with editor := editor }
    let s : TimedShell := { shell := { session, interpreter := i }, generator := .persona 5 }
    let moves : List Workspace.Move :=
      [.line i s.generator "cd", .line {} s.generator "task o \"c\"",
        .line {} s.generator "task dan \"d\""]
    let actions := (s.run [.key .enter]).2 ++ (s.run [.key .enter]).1.drain.2
    i.registry = .builtin ∧
      (i.prompts "TASK dan x\" a  b\"" w).map Prompt.text = [" a  b"] ∧
      (∀ m ∈ moves, m.IsBuiltin) ∧ (w.promptsAll moves).map Prompt.preamble = [""] ∧
      Shell.launched actions = ["TASK dan x\" a  b\"", "task o\"c\"", " task dan \"d\" \""] ∧
      (Shell.prompts actions).map Prompt.text = [" a  b", "d"] ∧
      (Shell.prompts (s.shell.run [.key .enter]).2).map Prompt.text = [" a  b"] := by
  intro i w editor session s moves actions
  obtain ⟨hline, hmoves, hrun, hclock⟩ := prompts_of_lines_and_runs
  have hi : i.registry = .builtin := rfl
  have hb : ∀ m ∈ moves, m.IsBuiltin := by simp [moves, i, Workspace.Move.IsBuiltin]
  have hl : Shell.launched actions =
      ["TASK dan x\" a  b\"", "task o\"c\"", " task dan \"d\" \""] := by decide +kernel
  refine ⟨hi, ?_, hb, ?_, hl, ?_, ?_⟩
  · rw [(hline i _ w hi).1]
    decide +kernel
  · rw [hmoves w moves hb]
    decide +kernel
  · rw [hclock s [.key .enter] hi, hl]
    decide +kernel
  · rw [hrun s.shell [.key .enter] hi]
    decide +kernel

end AgentShell
