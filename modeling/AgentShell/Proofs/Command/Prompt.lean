import AgentShell.Proofs.Command.Effect
import AgentShell.Proofs.Command.Request
import AgentShell.Proofs.Workspace.Move

/-!
# The prompts of lines

A generator may be slow and costly, so it matters when it is asked. A line of built-in commands asks
it once if it is a task for a known agent, and otherwise not at all. Which line that is can be told
from the line, the agents and the instructions alone, whatever the workspace is. So over any number
of lines the generator sees the prompts of the tasks among them, in order.

## Main definitions

* `Interpreter.taskPrompt?`: the prompt of a line that is a task for a known agent
* `Workspace.promptsAll`: the prompts of moves in turn

## Main results

* `Interpreter.taskPrompt?_eq_some_iff`, `Interpreter.exists_quoted_of_taskPrompt`: the prompt of a
  line, and where its text stands
* `Interpreter.start_eq_asks_iff`, `Interpreter.prompts_eq_toList`: a line asks its prompt, if it
  has one
* `Workspace.promptsAll_eq`: lines in turn
-/

namespace AgentShell

namespace Command

variable {c : Command} {ctx : Context} {p : Prompt}

/-- **A built-in command asks** if and only if it is `task` and its line is a request to a known
agent. -/
theorem run_eq_asks_iff (hc : c ∈ builtin) :
    c.run ctx = .asks p ↔ c.name = "task" ∧ ∃ request agent,
      Task.Request.parse ctx.line = .ok request ∧ ctx.agents.find? request.agent = some agent ∧
        p = ⟨agent, request.prompt, ctx.instructions.preamble⟩ := by
  cases mem_builtin_iff.1 hc with
  | task =>
    have hname : task.name = "task" := rfl
    rcases run_task_cases ctx with
      ⟨e, hp, hr⟩ | ⟨request, hp, ha, hr⟩ | ⟨request, agent, hp, ha, hr⟩
    · simp [hr, hp]
    · simp [hr, hp, ha]
    · simp [hname, hr, hp, ha, eq_comm]
  | _ =>
    refine iff_of_false (fun h => ?_) fun h => absurd h.1 (by decide)
    cases h

end Command

namespace Interpreter

variable {i : Interpreter} {line : String} {w : Workspace} {p : Prompt}

/-- **The prompt of a line** that is a task for a known agent. -/
def taskPrompt? (i : Interpreter) (line : String) : Option Prompt :=
  if (Text.words line).head?.map Text.lowercase = some "task" then
    match Task.Request.parse line with
    | .ok request => (i.agents.find? request.agent).map fun agent =>
        ⟨agent, request.prompt, i.instructions.preamble⟩
    | .error _ => none
  else none

theorem taskPrompt?_eq_some_iff :
    i.taskPrompt? line = some p ↔ ∃ verb arguments request agent,
      Text.words line = verb :: arguments ∧ Text.lowercase verb = "task" ∧
        Task.Request.parse line = .ok request ∧ i.agents.find? request.agent = some agent ∧
        p = ⟨agent, request.prompt, i.instructions.preamble⟩ := by
  unfold taskPrompt?
  cases hw : Text.words line with
  | nil => simp
  | cons verb arguments =>
    by_cases hv : Text.lowercase verb = "task"
    · cases hr : Task.Request.parse line with
      | error e => simp
      | ok request => simp [hv, eq_comm]
    · simp [hv]

/-- **Where the text of a prompt stands**: between the first two quotes behind the verb. -/
theorem exists_quoted_of_taskPrompt (h : i.taskPrompt? line = some p) :
    ∃ blanks verb front tail,
      line.toList = blanks ++ verb ++ (front ++ '"' :: (p.text.toList ++ '"' :: tail)) ∧
        (∀ c ∈ blanks, Text.isBlank c = true) ∧ (∀ c ∈ verb, Text.isBlank c = false) ∧
        '"' ∉ front ∧ '"' ∉ p.text.toList := by
  obtain ⟨verb, arguments, request, agent, hw, -, hr, -, rfl⟩ := taskPrompt?_eq_some_iff.1 h
  obtain ⟨-, -, hq, -⟩ := (Task.Request.parse_eq_ok_iff hw).1 hr
  obtain ⟨⟨blanks, hl, hb, hv⟩, -⟩ := Task.exists_eq_append_behindVerb hw
  obtain ⟨front, tail, ht, hf, hp⟩ := Task.firstQuoted?_eq_some_iff.1 hq
  rw [ht] at hl
  exact ⟨blanks, verb.toList, front, tail, hl, hb, hv, hf, hp⟩

/-- **A line of built-in commands asks** if and only if it is a task for a known agent. -/
theorem start_eq_asks_iff (hi : i.registry = .builtin) :
    i.start line w = .asks p ↔ i.taskPrompt? line = some p := by
  rw [taskPrompt?_eq_some_iff]
  constructor
  · intro h
    rcases start_cases hi line w with
      ⟨-, hs⟩ | ⟨_, _, -, -, hs⟩ | ⟨verb, arguments, c, hw, hc, hn, hs⟩
    · simp [hs] at h
    · simp [hs] at h
    · rw [hs, Command.run_eq_asks_iff hc] at h
      obtain ⟨ht, request, agent, hr, ha, hp⟩ := h
      exact ⟨verb, arguments, request, agent, hw, hn ▸ ht, hr, ha, hp⟩
  · rintro ⟨verb, arguments, request, agent, hw, hv, hr, ha, hp⟩
    have hc : Command.task ∈ Command.builtin := Command.mem_builtin_iff.2 .task
    rw [start_of_name hi hw hc hv.symm, Command.run_eq_asks_iff hc]
    exact ⟨rfl, request, agent, hr, ha, hp⟩

/-- **The generator is asked once** by a task for a known agent, and otherwise not at all. -/
theorem prompts_eq_toList (hi : i.registry = .builtin) (line : String) (w : Workspace) :
    i.prompts line w = (i.taskPrompt? line).toList := by
  rw [prompts]
  cases hs : i.start line w with
  | asks p => rw [(start_eq_asks_iff hi).1 hs, Option.toList_some]
  | done o =>
    cases hp : i.taskPrompt? line with
    | none => rfl
    | some p =>
      rw [(start_eq_asks_iff hi).2 hp] at hs
      cases hs

theorem execute_of_taskPrompt (hi : i.registry = .builtin) (h : i.taskPrompt? line = some p)
    (generator : Generator) (w : Workspace) :
    i.execute generator line w = ((generator p).within i.limit).map (Task.output p) := by
  rw [execute, (start_eq_asks_iff hi).2 h]

/-- A line without a prompt has an output, whatever the generator is. -/
theorem exists_execute_of_no_taskPrompt (hi : i.registry = .builtin)
    (h : i.taskPrompt? line = none) (w : Workspace) :
    ∃ o, ∀ generator, i.execute generator line w = some o := by
  cases hs : i.start line w with
  | done o => exact ⟨o, fun _ => execute_of_start hs⟩
  | asks p =>
    rw [(start_eq_asks_iff hi).1 hs] at h
    cases h

end Interpreter

namespace Workspace

/-- The prompts of a move. -/
def Move.prompts (w : Workspace) : Move → List Prompt
  | .line i _ text => i.prompts text w
  | .effect _ => []

/-- The prompts of moves in turn. -/
def promptsAll : Workspace → List Move → List Prompt
  | _, [] => []
  | w, m :: moves => m.prompts w ++ promptsAll (w.move m) moves

/-- The move runs a line of built-in commands, or is an effect. -/
def Move.IsBuiltin : Move → Prop
  | .line i _ _ => i.registry = .builtin
  | .effect _ => True

/-- The prompt of a move that runs a task for a known agent. -/
def Move.taskPrompt? : Move → Option Prompt
  | .line i _ text => i.taskPrompt? text
  | .effect _ => none

theorem Move.prompts_eq_toList {m : Move} (h : m.IsBuiltin) (w : Workspace) :
    m.prompts w = m.taskPrompt?.toList := by
  cases m with
  | line i generator text => exact Interpreter.prompts_eq_toList h text w
  | effect e => rfl

/-- **The prompts of moves in turn** are those of the tasks among the lines, in order. -/
theorem promptsAll_eq (w : Workspace) {moves : List Move} (h : ∀ m ∈ moves, m.IsBuiltin) :
    w.promptsAll moves = moves.filterMap Move.taskPrompt? := by
  induction moves generalizing w with
  | nil => rfl
  | cons m moves ih =>
    obtain ⟨hm, hms⟩ := List.forall_mem_cons.1 h
    rw [promptsAll, Move.prompts_eq_toList hm, ih _ hms, List.filterMap_cons]
    cases m.taskPrompt? <;> rfl

end Workspace

end AgentShell
