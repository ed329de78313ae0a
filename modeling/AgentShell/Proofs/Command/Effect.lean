import AgentShell.Interpreter
import AgentShell.Proofs.Command.Registry
import AgentShell.Proofs.Path.NormalForm

/-!
# What a line asks of the session

A built-in command asks at most one thing of the session: to erase the screen, or to move to a
directory. The directory is named by its normal form, and it is there. An output with an error line
asks nothing. So a session is moved by `cd` alone, and `cd` moves it or reports an error.

## Main definitions

* `Execution.Yields`, `Interpreter.Answers`: the outputs that a line may come to
* `Output.SoundIn`: what a built-in command may ask

## Main results

* `Command.run_task_cases`: what a task comes to
* `Command.soundIn_of_mem_builtin`: what each built-in command may ask
* `Interpreter.start_cases`: what a line of built-in commands comes to
* `Interpreter.Answers.soundIn`: what it may ask
-/

namespace AgentShell

/-- **The outputs that running a line may come to**: that of a task depends on the reply. -/
inductive Execution.Yields : Execution → Output → Prop where
  | done (o : Output) : Yields (.done o) o
  | reply (prompt : Prompt) (r : Reply) : Yields (.asks prompt) (Task.output prompt r)

theorem Execution.eq_of_done_yields {output o : Output} (h : (Execution.done output).Yields o) :
    o = output := by
  cases h
  rfl

theorem Execution.exists_of_asks_yields {prompt : Prompt} {o : Output}
    (h : (Execution.asks prompt).Yields o) : ∃ r, o = Task.output prompt r := by
  cases h with
  | reply _ r => exact ⟨r, rfl⟩

/-- **What a built-in command may ask** of a session in a workspace: nothing, a clear screen, or the
move to a directory that is there, under its normal form. -/
inductive Output.SoundIn (w : Workspace) : Output → Prop where
  | quiet {o : Output} (h : o.effects = []) : SoundIn w o
  | clearScreen : SoundIn w (.ofEffect .clearScreen)
  | changeDirectory {path : String} (hn : Path.resolve "/" path = path)
      (hd : w.tree.isDirectory path = true) : SoundIn w (.ofEffect (.changeDirectory path))

theorem Output.SoundIn.of_done {w : Workspace} {output o : Output}
    (h : (Execution.done output).Yields o) (hs : output.SoundIn w) : o.SoundIn w :=
  Execution.eq_of_done_yields h ▸ hs

namespace Command

variable {c : Command} {w : Workspace} {o : Output} {target : String}

theorem effects_list (w : Workspace) (target : String) : (list w target).effects = [] := by
  unfold list
  cases w.tree.entriesAt (Path.resolve w.cwd target) with
  | error e => rfl
  | ok entries => cases entries <;> rfl

theorem effects_showFile (w : Workspace) (target : String) : (showFile w target).effects = [] := by
  unfold showFile
  cases w.tree.contentAt (Path.resolve w.cwd target) <;> rfl

theorem soundIn_changeDirectory (w : Workspace) (target : String) :
    (changeDirectory w target).SoundIn w := by
  rw [changeDirectory]
  split
  · rename_i hd
    exact .changeDirectory (Path.resolve_resolve ..) hd
  · exact .quiet rfl

/-- **What a task comes to**: an error if its line is no request or names nobody, and otherwise the
question to the agent. -/
theorem run_task_cases (ctx : Context) :
    (∃ e, Task.Request.parse ctx.line = .error e ∧ task.run ctx =
      .done (.ofError "ERROR: Invalid format. Use: task <agent> \"<prompt>\"")) ∨
    (∃ request, Task.Request.parse ctx.line = .ok request ∧
      ctx.agents.find? request.agent = none ∧
      task.run ctx = .done (.ofError s!"ERROR: Agent '{request.agent}' not found.")) ∨
    ∃ request agent, Task.Request.parse ctx.line = .ok request ∧
      ctx.agents.find? request.agent = some agent ∧
      task.run ctx = .asks ⟨agent, request.prompt, ctx.instructions.preamble⟩ := by
  simp only [task]
  cases hp : Task.Request.parse ctx.line with
  | error e => exact .inl ⟨e, rfl, rfl⟩
  | ok request =>
    cases ha : ctx.agents.find? request.agent with
    | none => exact .inr (.inl ⟨request, rfl, ha, by simp only [ha]⟩)
    | some agent => exact .inr (.inr ⟨request, agent, rfl, ha, by simp only [ha]⟩)

theorem soundIn_of_task_yields {ctx : Context} (h : (task.run ctx).Yields o) :
    o.SoundIn ctx.workspace := by
  rcases run_task_cases ctx with ⟨_, -, hr⟩ | ⟨_, -, -, hr⟩ | ⟨_, _, -, -, hr⟩
  · exact .of_done (hr ▸ h) (.quiet rfl)
  · exact .of_done (hr ▸ h) (.quiet rfl)
  · obtain ⟨r, rfl⟩ := Execution.exists_of_asks_yields (hr ▸ h)
    exact .quiet rfl

/-- **What each built-in command may ask.** -/
theorem soundIn_of_mem_builtin (hc : c ∈ builtin) {ctx : Context} (h : (c.run ctx).Yields o) :
    o.SoundIn ctx.workspace := by
  cases mem_builtin_iff.1 hc with
  | help => exact .of_done h (.quiet rfl)
  | clear => exact .of_done h .clearScreen
  | ls => exact .of_done h (.quiet (effects_list ..))
  | cd => exact .of_done h (soundIn_changeDirectory ..)
  | cat =>
    refine .of_done h (.quiet ?_)
    cases ctx.arguments.head? with
    | none => rfl
    | some target => exact effects_showFile ..
  | status => exact .of_done h (.quiet rfl)
  | task => exact soundIn_of_task_yields h

end Command

namespace Interpreter

variable {i : Interpreter} {generator : Generator} {line verb : String} {arguments : List String}
  {w : Workspace} {o : Output}

/-- The outputs that a line may come to in a workspace. -/
def Answers (i : Interpreter) (line : String) (w : Workspace) (o : Output) : Prop :=
  (i.start line w).Yields o

theorem answers_of_done (h : i.start line w = .done o) : i.Answers line w o := by
  rw [Answers, h]
  exact .done o

theorem answers_of_asks {prompt : Prompt} (h : i.start line w = .asks prompt) (r : Reply) :
    i.Answers line w (Task.output prompt r) := by
  rw [Answers, h]
  exact .reply prompt r

/-- The output of a line when its generator is not disturbed is one that it may come to. -/
theorem answers_of_execute (h : i.execute generator line w = some o) : i.Answers line w o := by
  simp only [execute] at h
  cases hs : i.start line w with
  | done output =>
    simp only [hs, Option.some.injEq] at h
    exact answers_of_done (h ▸ hs)
  | asks prompt =>
    simp only [hs, Option.map_eq_some_iff] at h
    obtain ⟨r, -, rfl⟩ := h
    exact answers_of_asks hs r

theorem execute_of_start (h : i.start line w = .done o) : i.execute generator line w = some o := by
  simp only [execute, h]

/-- **What a line under the name of a built-in command comes to.** -/
theorem start_of_name {c : Command} (hi : i.registry = .builtin)
    (hw : Text.words line = verb :: arguments) (hc : c ∈ Command.builtin)
    (hn : c.name = Text.lowercase verb) (w : Workspace) :
    i.start line w = c.run ⟨arguments, line, w, i.instructions, i.agents⟩ := by
  rw [start, hw]
  dsimp only
  rw [hi, Registry.find?_builtin_eq_some_iff.2 ⟨hc, hn⟩]

theorem start_of_no_name (hi : i.registry = .builtin)
    (hw : Text.words line = verb :: arguments)
    (hn : ∀ c ∈ Command.builtin, c.name ≠ Text.lowercase verb) (w : Workspace) :
    i.start line w = .done (.ofError s!"Command not found: {verb}") := by
  rw [start, hw]
  dsimp only
  rw [hi, Registry.find?_builtin_eq_none_iff.2 hn]

/-- **What a line of built-in commands comes to**: nothing if it is blank, an error if its verb
means nothing, and otherwise what the command makes of it. -/
theorem start_cases (hi : i.registry = .builtin) (line : String) (w : Workspace) :
    (Text.words line = [] ∧ i.start line w = .done {}) ∨
    (∃ verb arguments, Text.words line = verb :: arguments ∧
      (∀ c ∈ Command.builtin, c.name ≠ Text.lowercase verb) ∧
      i.start line w = .done (.ofError s!"Command not found: {verb}")) ∨
    ∃ verb arguments c, Text.words line = verb :: arguments ∧ c ∈ Command.builtin ∧
      c.name = Text.lowercase verb ∧
      i.start line w = c.run ⟨arguments, line, w, i.instructions, i.agents⟩ := by
  cases hw : Text.words line with
  | nil => exact .inl ⟨rfl, by rw [start, hw]⟩
  | cons verb arguments =>
    cases hf : Registry.builtin.find? verb with
    | none =>
      have hn := Registry.find?_builtin_eq_none_iff.1 hf
      exact .inr (.inl ⟨verb, arguments, rfl, hn, start_of_no_name hi hw hn w⟩)
    | some c =>
      obtain ⟨hc, hn⟩ := Registry.find?_builtin_eq_some_iff.1 hf
      exact .inr (.inr ⟨verb, arguments, c, rfl, hc, hn, start_of_name hi hw hc hn w⟩)

/-- **What a line of built-in commands may ask.** -/
theorem Answers.soundIn (hi : i.registry = .builtin) (h : i.Answers line w o) : o.SoundIn w := by
  rw [Answers] at h
  rcases start_cases hi line w with ⟨-, hs⟩ | ⟨verb, arguments, -, -, hs⟩ | ⟨_, _, c, -, hc, -, hs⟩
  · rw [hs] at h
    exact .of_done h (.quiet rfl)
  · rw [hs] at h
    exact .of_done h (.quiet rfl)
  · rw [hs] at h
    exact Command.soundIn_of_mem_builtin hc h

/-- **What a `cd` comes to**: a change to its first argument, or to the home directory. -/
theorem start_cd (hi : i.registry = .builtin) (hw : Text.words line = verb :: arguments)
    (hv : Text.lowercase verb = "cd") (w : Workspace) :
    i.start line w = .done (Command.changeDirectory w (arguments.head?.getD w.home)) :=
  start_of_name hi hw (Command.mem_builtin_iff.2 .cd) hv.symm w

end Interpreter

end AgentShell
