import AgentShell.Proofs.Loop.Order
import AgentShell.Proofs.Shell.Punctual

/-!
# When tasks end

A task runs from the moment in which its line begins until the reply is there or the limit is up,
whichever comes first, and a reply that is there in the moment in which the limit is up is in time.
Whatever is typed meanwhile, and however many lines wait behind one another, no task is late because
of another one.

## Main results

* `Shell.Completed.Punctual.of_taskPrompt`: the time and the output of a task that takes its time
* `Shell.Completed.Punctual.output_of_le`, `Shell.Completed.Punctual.output_of_lt`: the report, and
  the error of the limit
* `TimedShell.inOrder_run`, `TimedShell.account_run`: lines on a clock run in order, and what their
  account has
* `TimedShell.tasks_end_by_delay_or_limit`: when tasks end, and how
-/

namespace AgentShell

theorem Answer.within_of_le {limit : Option Nat} {delay : Nat} (reply : Reply)
    (h : ∀ t ∈ limit, delay ≤ t) : (Answer.after delay reply).within limit = some reply := by
  cases limit with
  | none => rfl
  | some t => simp [within, h t rfl]

theorem Answer.within_of_lt {limit : Option Nat} {delay t : Nat} (reply : Reply)
    (ht : t ∈ limit) (h : t < delay) :
    (Answer.after delay reply).within limit = some (.error (.timedOut t)) := by
  rw [Option.mem_def.1 ht, within, if_neg (Nat.not_le.2 h)]

theorem Shell.inFlight?_loopActions (r : Option String) (actions : List Shell.Action) :
    Shell.inFlight? r (Shell.loopActions actions) = Shell.inFlight? r actions := by
  induction actions generalizing r with
  | nil => rfl
  | cons action actions ih =>
    cases action with
    | ask | draw => exact ih r
    | launch line => exact congrArg (if r.isNone then · else none) (ih (some line))
    | complete o => exact congrArg (if r.isSome then · else none) (ih none)

namespace Shell.Completed.Punctual

variable {i : Interpreter} {g : Generator} {delay : Nat} {c : Shell.Completed}

/-- A line that is no task for a known agent takes no time. -/
theorem ended_eq_began (h : c.Punctual i g) (hi : i.registry = .builtin)
    (hp : i.taskPrompt? c.line = none) : c.ended = c.began := by
  obtain ⟨w, ms, hms, hended, -⟩ := h
  cases hs : i.start c.line w with
  | done o =>
    obtain rfl : 0 = ms := by simpa [Interpreter.duration?, hs] using hms
    exact hended
  | asks p =>
    rw [(Interpreter.start_eq_asks_iff hi).1 hs] at hp
    cases hp

/-- A task takes the delay or the limit, whichever is less, and reports what is in then. -/
theorem of_taskPrompt (h : c.Punctual i (.persona delay)) (hi : i.registry = .builtin) {p : Prompt}
    (hp : i.taskPrompt? c.line = some p) :
    c.ended = c.began + i.limit.elim delay (min delay) ∧
      ∃ reply, (Answer.after delay (Generator.personaReply p)).within i.limit = some reply ∧
        c.output = Task.output p reply := by
  obtain ⟨w, ms, hms, hended, hout⟩ := h
  have hs : i.start c.line w = .asks p := (Interpreter.start_eq_asks_iff hi).2 hp
  obtain rfl : i.limit.elim delay (min delay) = ms := by
    simpa [Interpreter.duration?, hs, Generator.persona, Answer.wake?] using hms
  refine ⟨hended, ?_⟩
  simp only [Interpreter.execute, hs, Option.map_eq_some_iff] at hout
  obtain ⟨reply, hreply, heq⟩ := hout
  exact ⟨reply, hreply, heq.symm⟩

theorem output_of_le (h : c.Punctual i (.persona delay)) (hi : i.registry = .builtin) {p : Prompt}
    (hp : i.taskPrompt? c.line = some p) (hblank : Text.isBlankText p.text = false)
    (hle : ∀ t ∈ i.limit, delay ≤ t) :
    c.output = { lines := .status "EXECUTING" :: (Task.report p.agent
      s!"{p.agent.name} ({p.agent.role}) handled \"{Text.trim p.text}\"").map .text } := by
  obtain ⟨-, reply, hreply, hout⟩ := h.of_taskPrompt hi hp
  rw [Answer.within_of_le _ hle] at hreply
  rw [hout, ← Option.some.inj hreply, Generator.personaReply, hblank]
  rfl

theorem output_of_lt (h : c.Punctual i (.persona delay)) (hi : i.registry = .builtin) {p : Prompt}
    (hp : i.taskPrompt? c.line = some p) {t : Nat} (ht : t ∈ i.limit) (hlt : t < delay) :
    let text := (GenerationError.timedOut t).message
    c.output = { lines := [.status "EXECUTING",
      .error s!"ERROR: Task for agent '{p.agent.name}' failed: {text}"] } := by
  obtain ⟨-, reply, hreply, hout⟩ := h.of_taskPrompt hi hp
  rw [Answer.within_of_lt _ ht hlt] at hreply
  rw [hout, ← Option.some.inj hreply]
  rfl

end Shell.Completed.Punctual

namespace TimedShell

open Shell (Account)

variable {i : Interpreter} {s : TimedShell} {es : List Event}

theorem inOrder_run {w : Workspace} {label : String} {style : Style} {echo : Bool}
    (hs : s.shell = .fresh w label style echo i) (es : List Event) :
    Loop.InOrder style label (s.run es).1.shell.toLoop (Shell.loopActions (s.run es).2) := by
  obtain ⟨es', hes'⟩ := s.exists_run_eq es
  obtain ⟨moves, -, hmoves⟩ := Shell.exists_run_loop (by rw [hs]; rfl : s.shell.isOpen = true) es'
  rw [hes'] at hmoves
  have hstart : Loop.InOrder style label s.shell.toLoop [] := by
    rw [hs]
    exact .start w label style echo
  simpa [hmoves] using hstart.run moves

theorem account_run {w : Workspace} {label : String} {style : Style} {echo : Bool}
    (hs : s.shell = .fresh w label style echo i) (es : List Event) :
    let a := Account.addAll {} (s.log es)
    a.lines = Shell.launched (s.run es).2 ∧
      a.completed.map Shell.Completed.output = Shell.outputs (s.run es).2 := by
  have h := (inOrder_run hs es).orderly.inFlight
  rw [Shell.inFlight?_loopActions, ← map_snd_log] at h
  obtain ⟨-, hl, ho⟩ := Account.of_inFlight (a := {}) h
  rw [← map_snd_log]
  exact ⟨hl, ho⟩

/-- Where no line runs, the lines of an account are all that were submitted. -/
theorem lines_completed_of_idle {w : Workspace} {label : String} {style : Style} {echo : Bool}
    (hs : s.shell = .fresh w label style echo i) {es : List Event} {g : Generator}
    (h : Keeps i g (s.run es).1 (Account.addAll {} (s.log es)))
    (hn : (s.run es).1.shell.running = none) :
    (Account.addAll {} (s.log es)).completed.map Shell.Completed.line =
      (s.run es).1.shell.session.editor.history := by
  have horder := inOrder_run hs es
  have hhistory := horder.history
  rw [horder.queue_eq_nil hn, List.append_nil, Shell.launched_loopActions,
    ← (account_run hs es).1, Account.lines, h.running_eq, hn] at hhistory
  simpa using hhistory

/-- **Tasks end by the delay or by the limit**, whichever comes first, from the moment in which they
begin: with the report if the delay is not over the limit, and otherwise with one error. It makes no
difference how long the line waited behind others and what became of these. Any other line takes no
time. The account has all lines that began and all outputs of the run. After the timers that are
left every line that was submitted is complete in it. -/
theorem tasks_end_by_delay_or_limit {w : Workspace} {label : String} {style : Style} {echo : Bool}
    {delay : Nat} (hi : i.registry = .builtin) (hs : s.shell = .fresh w label style echo i)
    (hg : s.generator = .persona delay) (hes : s.Heeds es) :
    let a := Account.addAll {} (s.log es)
    (a.lines = Shell.launched (s.run es).2 ∧
      a.completed.map Shell.Completed.output = Shell.outputs (s.run es).2) ∧
    (∀ c ∈ a.completed,
      (i.taskPrompt? c.line = none → c.ended = c.began) ∧
      ∀ p, i.taskPrompt? c.line = some p →
        c.ended = c.began + i.limit.elim delay (min delay) ∧
        (Text.isBlankText p.text = false →
          ((∀ t ∈ i.limit, delay ≤ t) → c.output =
            { lines := .status "EXECUTING" :: (Task.report p.agent
                s!"{p.agent.name} ({p.agent.role}) handled \"{Text.trim p.text}\"").map .text }) ∧
          ∀ t ∈ i.limit, t < delay →
            let text := (GenerationError.timedOut t).message
            c.output = { lines := [.status "EXECUTING",
              .error s!"ERROR: Task for agent '{p.agent.name}' failed: {text}"] })) ∧
    let all := es ++ (s.run es).1.ticks
    s.Heeds all ∧ s.run all = ((s.run es).1.drain.1, (s.run es).2 ++ (s.run es).1.drain.2) ∧
      (Account.addAll {} (s.log all)).completed.map Shell.Completed.line =
        (s.run all).1.shell.session.editor.history := by
  intro a
  have htimed : (Generator.persona delay).IsTimed := Generator.persona_isTimed delay
  have hidle : Keeps i (.persona delay) s {} := .idle (by rw [hs]; rfl) hg (by rw [hs]; rfl)
  have hkeeps := hidle.run htimed hes
  refine ⟨account_run hs es, fun c hc => ?_, ?_⟩
  · have hc := hkeeps.punctual c hc
    refine ⟨hc.ended_eq_began hi, fun p hp => ⟨(hc.of_taskPrompt hi hp).1, fun hblank => ?_⟩⟩
    exact ⟨hc.output_of_le hi hp hblank, fun t => hc.output_of_lt hi hp⟩
  · intro all
    have hall : s.Heeds all := heeds_append.2 ⟨hes, hkeeps.heeds_ticks htimed⟩
    have hrun : s.run all = ((s.run es).1.drain.1, (s.run es).2 ++ (s.run es).1.drain.2) := by
      rw [run_append, run_ticks]
    have hlast := hidle.run htimed hall
    have hwake : (s.run all).1.wake? = none := by rw [hrun]; exact wake?_drain _
    exact ⟨hall, hrun, lines_completed_of_idle hs hlast (hlast.running_of_wake htimed hwake)⟩

/-- A task is typed while another runs. Each has the whole limit for itself, and the second begins
when the first is over. -/
theorem tasks_end_of_typeahead :
    let i : Interpreter := { agents := ⟨fun _ => some { name := "A" }⟩, limit := some 5 }
    let s : TimedShell :=
      { shell := .fresh ⟨.empty, "/", "/"⟩ "" ⟨false⟩ true i, generator := .persona 7 }
    let line := "task a\"b\""
    let keys : List Event := line.toList.map (.key ∘ .char) ++ [.key .enter]
    let es := keys ++ [.advance 3] ++ keys ++ [.advance 2, .advance 5]
    i.registry = .builtin ∧ s.Heeds es ∧
      (Account.addAll {} (s.log es)).completed.map (fun c => (c.line, c.began, c.ended)) =
        [(line, 0, 5), (line, 5, 10)] ∧
      ∀ c ∈ (Account.addAll {} (s.log es)).completed, c.output = { lines := [.status "EXECUTING",
        .error "ERROR: Task for agent 'A' failed: no response after 5 ms"] } := by
  intro i s line keys es
  obtain ⟨hes, htimes, hprompt⟩ : s.Heeds es ∧
      (Account.addAll {} (s.log es)).completed.map (fun c => (c.line, c.began, c.ended)) =
        [(line, 0, 5), (line, 5, 10)] ∧
      ∀ c ∈ (Account.addAll {} (s.log es)).completed,
        i.taskPrompt? c.line = some ⟨{ name := "A" }, "b", ""⟩ := by
    decide +kernel
  have hlaw := (tasks_end_by_delay_or_limit (i := i) (s := s) rfl rfl rfl hes).2.1
  refine ⟨rfl, hes, htimes, fun c hc => ?_⟩
  obtain ⟨-, hout⟩ := (hlaw c hc).2 _ (hprompt c hc)
  exact ((hout (by decide)).2 5 rfl (by decide)).trans (by decide +kernel)

end TimedShell

end AgentShell
