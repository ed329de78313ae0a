import AgentShell.Proofs.Command.Prompt

/-!
# Failures of lines

A line may fail in many ways: its verb means nothing, there is no directory to list or to enter and
no file to show, it is no request or names nobody, or the reply to its prompt is an error. Whatever
goes wrong is reported by one error line, and a line that reports an error asks nothing of the
session. What stands in a file or in a reply is never taken for an error.

## Main definitions

* `Interpreter.Refuses`: the failures that need no reply, and what is reported of each
* `Interpreter.Fails`: all failures
* `Interpreter.Outcome`: what a line may come to

## Main results

* `Interpreter.execute_of_refuses`: a failure that needs no reply is reported
* `Interpreter.outcome_of_execute`: what every line comes to
* `Interpreter.failures_are_single_errors`: these together
-/

namespace AgentShell

/-! ## What is no error -/

section Quiet

theorem Output.hasError_texts {α : Type} (as : List α) (f : α → String) :
    hasError { lines := as.map fun a => .text (f a) } = false := by
  simp [hasError, OutputLine.isError]

theorem Task.hasError_output_ok (p : Prompt) (text : String) :
    (output p (.ok text)).hasError = false := by
  have h := Output.hasError_texts (report p.agent text) fun s => s
  rw [Output.hasError] at h ⊢
  rw [output, List.any_cons, h]
  rfl

end Quiet

/-! ## Commands that look at a path -/

namespace Command

variable {w : Workspace} {target content : String}

theorem list_of_not_isDirectory (h : w.tree.isDirectory (Path.resolve w.cwd target) = false) :
    list w target = .ofError s!"Error: ls: cannot access '{target}': No such directory" := by
  unfold list
  cases he : w.tree.entriesAt (Path.resolve w.cwd target) with
  | ok es =>
    rw [Tree.exists_entriesAt_iff.1 ⟨es, he⟩] at h
    cases h
  | error e => rfl

theorem hasError_list (h : w.tree.isDirectory (Path.resolve w.cwd target) = true) :
    (list w target).hasError = false := by
  obtain ⟨es, he⟩ := Tree.exists_entriesAt_iff.2 h
  unfold list
  rw [he]
  cases es <;> rfl

theorem changeDirectory_of_not_isDirectory
    (h : w.tree.isDirectory (Path.resolve w.cwd target) = false) :
    changeDirectory w target =
      .ofError s!"Error: cd: {target}: Not a directory or does not exist" := by
  rw [changeDirectory, if_neg (by simp [h])]

theorem changeDirectory_of_isDirectory
    (h : w.tree.isDirectory (Path.resolve w.cwd target) = true) :
    changeDirectory w target = .ofEffect (.changeDirectory (Path.resolve w.cwd target)) := by
  rw [changeDirectory, if_pos h]

theorem showFile_of_no_content
    (h : ∀ content, w.tree.contentAt (Path.resolve w.cwd target) ≠ .ok content) :
    showFile w target = .ofError s!"Error: cat: {target}: No such file or is a directory" := by
  unfold showFile
  cases hc : w.tree.contentAt (Path.resolve w.cwd target) with
  | ok content => exact absurd hc (h content)
  | error e => rfl

/-- **The lines of a file are no errors**, whatever they say. -/
theorem hasError_showFile (h : w.tree.contentAt (Path.resolve w.cwd target) = .ok content) :
    (showFile w target).hasError = false := by
  unfold showFile
  rw [h]
  exact Output.hasError_texts _ String.ofList

end Command

/-! ## What a line comes to -/

namespace Interpreter

/-- **The failures that need no reply**, and the text of the line that reports each. -/
inductive Refuses (i : Interpreter) (line : String) (w : Workspace) : String → Prop where
  /-- The verb means nothing. -/
  | verb {verb arguments} (hw : Text.words line = verb :: arguments)
      (hn : ∀ c ∈ Command.builtin, c.name ≠ Text.lowercase verb) :
      Refuses i line w s!"Command not found: {verb}"
  /-- There is no directory to list. -/
  | list {verb arguments target} (hw : Text.words line = verb :: arguments)
      (hv : Text.lowercase verb = "ls") (ht : target = arguments.head?.getD ".")
      (hd : w.tree.isDirectory (Path.resolve w.cwd target) = false) :
      Refuses i line w s!"Error: ls: cannot access '{target}': No such directory"
  /-- There is no directory to enter. -/
  | enter {verb arguments target} (hw : Text.words line = verb :: arguments)
      (hv : Text.lowercase verb = "cd") (ht : target = arguments.head?.getD w.home)
      (hd : w.tree.isDirectory (Path.resolve w.cwd target) = false) :
      Refuses i line w s!"Error: cd: {target}: Not a directory or does not exist"
  /-- No file is named. -/
  | noName {verb} (hw : Text.words line = [verb]) (hv : Text.lowercase verb = "cat") :
      Refuses i line w "Error: cat: : No such file or is a directory"
  /-- There is no file to show. -/
  | show {verb target arguments} (hw : Text.words line = verb :: target :: arguments)
      (hv : Text.lowercase verb = "cat")
      (hc : ∀ content, w.tree.contentAt (Path.resolve w.cwd target) ≠ .ok content) :
      Refuses i line w s!"Error: cat: {target}: No such file or is a directory"
  /-- The task is no request. -/
  | request {verb arguments e} (hw : Text.words line = verb :: arguments)
      (hv : Text.lowercase verb = "task") (hr : Task.Request.parse line = .error e) :
      Refuses i line w "ERROR: Invalid format. Use: task <agent> \"<prompt>\""
  /-- The task names nobody. -/
  | agent {verb arguments request} (hw : Text.words line = verb :: arguments)
      (hv : Text.lowercase verb = "task") (hr : Task.Request.parse line = .ok request)
      (ha : i.agents.find? request.agent = none) :
      Refuses i line w s!"ERROR: Agent '{request.agent}' not found."

/-- **The failures of a line**, and the text of the line that reports each: those that need no
reply, and a reply that is an error, be it the generator's own or that of the time limit. -/
inductive Fails (i : Interpreter) (generator : Generator) (line : String) (w : Workspace) :
    String → Prop where
  | refuses {text} (h : i.Refuses line w text) : Fails i generator line w text
  | reply {p e} (hp : i.taskPrompt? line = some p)
      (hr : (generator p).within i.limit = some (.error e)) :
      Fails i generator line w s!"ERROR: Task for agent '{p.agent.name}' failed: {e.message}"

/-- **What a line may come to**: lines without an error, one effect, or the error line of a failure,
behind the status of a task if the failure is that of a reply. -/
inductive Outcome (i : Interpreter) (generator : Generator) (line : String) (w : Workspace) :
    Output → Prop where
  | lines {o} (he : o.hasError = false) (hf : o.effects = []) : Outcome i generator line w o
  | effect (e : Effect) : Outcome i generator line w (.ofEffect e)
  | refuses {text} (h : i.Refuses line w text) : Outcome i generator line w (.ofError text)
  | reply {p e} (hp : i.taskPrompt? line = some p)
      (hr : (generator p).within i.limit = some (.error e)) :
      Outcome i generator line w (Task.output p (.error e))

variable {i : Interpreter} {generator : Generator} {line verb text : String}
  {arguments : List String} {c : Command} {w : Workspace} {o : Output}

/-- **A failure that needs no reply is reported**, and nothing else happens. -/
theorem execute_of_refuses (hi : i.registry = .builtin) (h : i.Refuses line w text)
    (generator : Generator) : i.execute generator line w = some (.ofError text) := by
  refine execute_of_start ?_
  cases h with
  | verb hw hn => exact start_of_no_name hi hw hn w
  | list hw hv ht hd =>
    rw [start_of_name hi hw (Command.mem_builtin_iff.2 .ls) hv.symm]
    simp only [Command.ls, ← ht, Command.list_of_not_isDirectory hd]
  | enter hw hv ht hd =>
    rw [start_cd hi hw hv, ← ht, Command.changeDirectory_of_not_isDirectory hd]
  | noName hw hv =>
    rw [start_of_name hi hw (Command.mem_builtin_iff.2 .cat) hv.symm]
    rfl
  | «show» hw hv hc =>
    rw [start_of_name hi hw (Command.mem_builtin_iff.2 .cat) hv.symm]
    simp only [Command.cat, List.head?_cons, Command.showFile_of_no_content hc]
  | request hw hv hr =>
    rw [start_of_name hi hw (Command.mem_builtin_iff.2 .task) hv.symm]
    simp only [Command.task, hr]
  | agent hw hv hr ha =>
    rw [start_of_name hi hw (Command.mem_builtin_iff.2 .task) hv.symm]
    simp only [Command.task, hr, ha]

/-- What a line under the name of a built-in command comes to if it is answered at once. -/
theorem outcome_of_run (hw : Text.words line = verb :: arguments) (hc : c ∈ Command.builtin)
    (hn : c.name = Text.lowercase verb)
    (h : c.run ⟨arguments, line, w, i.instructions, i.agents⟩ = .done o) :
    i.Outcome generator line w o := by
  cases Command.mem_builtin_iff.1 hc with
  | help => exact Execution.done.inj h ▸ .lines rfl rfl
  | clear => exact Execution.done.inj h ▸ .effect .clearScreen
  | ls =>
    obtain rfl := Execution.done.inj h
    cases hd : w.tree.isDirectory (Path.resolve w.cwd (arguments.head?.getD ".")) with
    | true => exact .lines (Command.hasError_list hd) (Command.effects_list ..)
    | false =>
      rw [Command.list_of_not_isDirectory hd]
      exact .refuses (.list hw hn.symm rfl hd)
  | cd =>
    obtain rfl := Execution.done.inj h
    cases hd : w.tree.isDirectory (Path.resolve w.cwd (arguments.head?.getD w.home)) with
    | true =>
      rw [Command.changeDirectory_of_isDirectory hd]
      exact .effect _
    | false =>
      rw [Command.changeDirectory_of_not_isDirectory hd]
      exact .refuses (.enter hw hn.symm rfl hd)
  | cat =>
    obtain rfl := Execution.done.inj h
    cases arguments with
    | nil => exact .refuses (.noName hw hn.symm)
    | cons target arguments =>
      by_cases hf : ∃ content, w.tree.contentAt (Path.resolve w.cwd target) = .ok content
      · obtain ⟨content, hc⟩ := hf
        exact .lines (Command.hasError_showFile hc) (Command.effects_showFile ..)
      · rw [not_exists] at hf
        rw [List.head?_cons]
        dsimp only
        rw [Command.showFile_of_no_content hf]
        exact .refuses (.show hw hn.symm hf)
  | status => exact Execution.done.inj h ▸ .lines rfl rfl
  | task =>
    rcases Command.run_task_cases ⟨arguments, line, w, i.instructions, i.agents⟩ with
      ⟨_, hr, hd⟩ | ⟨_, hr, ha, hd⟩ | ⟨_, _, -, -, hd⟩
    · exact Execution.done.inj (hd.symm.trans h) ▸ .refuses (.request hw hn.symm hr)
    · exact Execution.done.inj (hd.symm.trans h) ▸ .refuses (.agent hw hn.symm hr ha)
    · cases hd.symm.trans h

/-- **What every line of built-in commands comes to.** -/
theorem outcome_of_execute (hi : i.registry = .builtin)
    (h : i.execute generator line w = some o) : i.Outcome generator line w o := by
  cases hs : i.start line w with
  | asks p =>
    have hp := (start_eq_asks_iff hi).1 hs
    rw [execute_of_taskPrompt hi hp] at h
    obtain ⟨reply, hr, rfl⟩ := Option.map_eq_some_iff.1 h
    cases reply with
    | ok text => exact .lines (Task.hasError_output_ok p text) rfl
    | error e => exact .reply hp hr
  | done output =>
    obtain rfl := Option.some.inj ((execute_of_start hs).symm.trans h)
    rcases start_cases hi line w with
      ⟨-, hd⟩ | ⟨verb, arguments, hw, hn, hd⟩ | ⟨verb, arguments, c, hw, hc, hn, hd⟩
    · exact Execution.done.inj (hs.symm.trans hd) ▸ .lines rfl rfl
    · exact Execution.done.inj (hs.symm.trans hd) ▸ .refuses (.verb hw hn)
    · exact outcome_of_run hw hc hn (hd.symm.trans hs)

/-! ## Errors and effects of a line -/

namespace Outcome

variable (h : i.Outcome generator line w o)
include h

theorem countP_isError_le : o.lines.countP OutputLine.isError ≤ 1 := by
  cases h with
  | lines he hf =>
    have hn : ∀ l ∈ o.lines, ¬l.isError = true := by simpa [Output.hasError] using he
    rw [List.countP_eq_zero.2 hn]
    exact Nat.zero_le 1
  | effect e => exact Nat.zero_le 1
  | refuses h => exact Nat.le_refl 1
  | reply hp hr => exact Nat.le_refl 1

/-- **An error line reports a failure**, and nothing stands in the output but this line, and the
status of the task in front of it if the failure is that of a reply. -/
theorem of_error_mem (he : .error text ∈ o.lines) :
    i.Fails generator line w text ∧ o.effects = [] ∧
      (o.lines = [.error text] ∨
        (∃ p, i.taskPrompt? line = some p) ∧ o.lines = [.status "EXECUTING", .error text]) := by
  cases h with
  | lines hn hf =>
    rw [Output.hasError, List.any_eq_false] at hn
    exact absurd rfl (hn _ he)
  | effect e => cases he
  | refuses h =>
    obtain rfl := OutputLine.error.inj (List.mem_singleton.1 he)
    exact ⟨.refuses h, rfl, .inl rfl⟩
  | @reply p e hp hr =>
    rcases List.mem_cons.1 he with hs | he
    · cases hs
    · obtain rfl := OutputLine.error.inj (List.mem_singleton.1 he)
      exact ⟨.reply hp hr, rfl, .inr ⟨⟨p, hp⟩, rfl⟩⟩

/-- **An effect stands alone.** -/
theorem of_effect_mem {e : Effect} (he : e ∈ o.effects) : o.effects = [e] ∧ o.lines = [] := by
  cases h with
  | lines hn hf =>
    rw [hf] at he
    cases he
  | effect e' =>
    obtain rfl := List.mem_singleton.1 he
    exact ⟨rfl, rfl⟩
  | refuses h => cases he
  | reply hp hr => cases he

end Outcome

/-! ## Lines that fail -/

/-- **Every failure is reported.** -/
theorem exists_execute_of_fails (hi : i.registry = .builtin) (h : i.Fails generator line w text) :
    ∃ o, i.execute generator line w = some o ∧ .error text ∈ o.lines := by
  cases h with
  | refuses h => exact ⟨_, execute_of_refuses hi h generator, List.mem_singleton_self _⟩
  | @reply p e hp hr =>
    refine ⟨Task.output p (.error e), ?_, List.mem_cons_of_mem _ (List.mem_singleton_self _)⟩
    rw [execute_of_taskPrompt hi hp, hr, Option.map_some]

/-- A line has an output unless it waits for a reply that never comes. -/
theorem execute_eq_none_iff (hi : i.registry = .builtin) :
    i.execute generator line w = none ↔
      ∃ p, i.taskPrompt? line = some p ∧ (generator p).within i.limit = none := by
  cases hp : i.taskPrompt? line with
  | some p => simp [execute_of_taskPrompt hi hp]
  | none =>
    obtain ⟨o, ho⟩ := exists_execute_of_no_taskPrompt hi hp w
    simp [ho]

/-- **Every failure becomes one error line, and comes with no effect.** An output has at most one
error line, and nothing else stands in it but the status of a task in front of that line; an effect
stands alone. The text of the error line is that of the failure, and a line that does not fail
reports no error. A line has an output unless it waits for a reply that never comes. -/
theorem failures_are_single_errors (hi : i.registry = .builtin) (generator : Generator)
    (line : String) (w : Workspace) :
    (∀ o, i.execute generator line w = some o →
      o.lines.countP OutputLine.isError ≤ 1 ∧
      (∀ text, .error text ∈ o.lines →
        (o.lines = [.error text] ∨
          (∃ p, i.taskPrompt? line = some p) ∧ o.lines = [.status "EXECUTING", .error text]) ∧
        o.effects = [] ∧ w.applyAll o.effects = w) ∧
      ∀ e ∈ o.effects, o.effects = [e] ∧ o.lines = []) ∧
    (∀ text, i.Fails generator line w text ↔
      ∃ o, i.execute generator line w = some o ∧ .error text ∈ o.lines) ∧
    (i.execute generator line w = none ↔
      ∃ p, i.taskPrompt? line = some p ∧ (generator p).within i.limit = none) := by
  refine ⟨?_, ?_, execute_eq_none_iff hi⟩
  · intro o h
    have ho := outcome_of_execute hi h
    refine ⟨ho.countP_isError_le, ?_, fun e he => ho.of_effect_mem he⟩
    intro text he
    obtain ⟨-, hf, hl⟩ := ho.of_error_mem he
    exact ⟨hl, hf, by rw [hf, Workspace.applyAll_nil]⟩
  · intro text
    refine ⟨exists_execute_of_fails hi, ?_⟩
    rintro ⟨o, h, he⟩
    exact ((outcome_of_execute hi h).of_error_mem he).1

/-- A task whose reply is late fails with the error of the limit; a file that says what an error
line would say is shown without a failure. -/
theorem failures_of_late_task :
    let i : Interpreter := { limit := some 0 }
    let w : Workspace := ⟨⟨.directory [("f", .file "Error: cat: f: No such file")]⟩, "/", "/"⟩
    let late : Output := Task.output ⟨⟨"DAN", "", "", []⟩, "", ""⟩ (.error (.timedOut 0))
    i.registry = .builtin ∧ i.execute (.persona 5) "task dan \"x\"" w = some late ∧
      w.applyAll late.effects = w ∧
      i.Fails (.persona 5) "task dan \"x\"" w
        "ERROR: Task for agent 'DAN' failed: no response after 0 ms" ∧
      i.execute (.persona 5) "cat f" w =
        some { lines := [.text "Error: cat: f: No such file"] } ∧
      ∀ text, ¬i.Fails (.persona 5) "cat f" w text := by
  intro i w late
  have hi : i.registry = .builtin := rfl
  have ht : i.execute (.persona 5) "task dan \"x\"" w = some late := by decide +kernel
  have hc : i.execute (.persona 5) "cat f" w =
      some { lines := [.text "Error: cat: f: No such file"] } := by decide +kernel
  have he : .error "ERROR: Task for agent 'DAN' failed: no response after 0 ms" ∈ late.lines := by
    decide +kernel
  obtain ⟨hall, hfails, -⟩ := failures_are_single_errors hi (.persona 5) "task dan \"x\"" w
  refine ⟨hi, ht, ((hall late ht).2.1 _ he).2.2, (hfails _).2 ⟨late, ht, he⟩, hc, ?_⟩
  intro text hf
  obtain ⟨o, ho, hm⟩ := ((failures_are_single_errors hi (.persona 5) "cat f" w).2.1 text).1 hf
  obtain rfl := Option.some.inj (hc.symm.trans ho)
  simp at hm

end Interpreter

end AgentShell
