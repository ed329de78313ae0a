import AgentShell.Proofs.Command.Failure
import AgentShell.Proofs.Json.Lines
import AgentShell.Proofs.Json.Object

/-!
# Reports of tasks

A task that succeeds reports the reply to its prompt as a JSON object on six lines of text. Names,
philosophies and replies may hold any characters, also quotes, backslashes and line ends: the lines
stay six, and the object that is decoded from them has the same characters.

## Main definitions

* `Task.object`: the object that reports a text of an agent
* `Output.Reports`: an output reports a text of an agent on the lines of a block

## Main results

* `Task.decode?_report`: the lines of a report, joined and decoded
* `Task.reports_output`: the output of a task whose reply is in
* `Output.Reports.unique`: an output tells the reply, and the agent by name and philosophy
* `Interpreter.tasks_report_replies`: these together, for the lines that are tasks
-/

namespace AgentShell

/-- **The object that reports a text of an agent.** -/
def Task.object (a : Agent) (text : String) : Json :=
  .object
    [("status", .string "SUCCESS"),
      ("agent", .string a.name),
      ("response", .string s!"Task completed based on philosophy: '{a.philosophy}'"),
      ("output", .string text)]

/-- **An output reports a text of an agent** on the lines of a block: they stand behind the status,
are six lines of text without line ends inside, and make up a JSON document. -/
structure Output.Reports (o : Output) (a : Agent) (text : String) (block : List String) : Prop where
  lines : o.lines = .status "EXECUTING" :: block.map .text
  effects : o.effects = []
  length : block.length = 6
  no_line_end : ∀ s ∈ block, '\n' ∉ s.toList ∧ '\r' ∉ s.toList
  document : Json.decode? ("\n".intercalate block) = some (Task.object a text)

namespace Task

variable {a : Agent} {text : String}

/-- The lines of a report: the braces, and one line for each member between them. -/
theorem report_eq (a : Agent) (text : String) :
    report a text = "\x7b" :: Text.JsonObject.memberLines (members a text) ++ ["\x7d"] :=
  Text.JsonObject.cutLines_print (List.cons_ne_nil _ _)

/-- **A report has six lines**: four for its members, and two for the braces. -/
theorem length_report (a : Agent) (text : String) : (report a text).length = 6 := by
  rw [report_eq, List.length_append, List.length_cons, Text.JsonObject.length_memberLines]
  rfl

theorem no_line_end_of_mem_report {s : String} (hs : s ∈ report a text) :
    '\n' ∉ s.toList ∧ '\r' ∉ s.toList := by
  rw [report_eq] at hs
  exact Text.not_mem_of_any_isLineEnd (Text.JsonObject.any_isLineEnd_of_mem_lines hs)

/-- **A report is decoded** to the object that it stands for. -/
theorem decode?_report (a : Agent) (text : String) :
    Json.decode? ("\n".intercalate (report a text)) = some (object a text) := by
  have hne : members a text ≠ [] := List.cons_ne_nil _ _
  rw [report_eq, ← Text.JsonObject.print_eq_intercalate hne, Json.decode?_print]
  rfl

/-- **The output of a task whose reply is in** reports the reply. -/
theorem reports_output (p : Prompt) (text : String) :
    (output p (.ok text)).Reports p.agent text (report p.agent text) where
  lines := rfl
  effects := rfl
  length := length_report p.agent text
  no_line_end _ := no_line_end_of_mem_report
  document := decode?_report p.agent text

end Task

namespace Output.Reports

variable {o : Output} {a a' : Agent} {text text' : String} {block block' : List String}

/-- **A report tells the agent and the text**: an output that reports one text of an agent reports
no other one, nor one of an agent with another name or philosophy. -/
theorem unique (h : o.Reports a text block) (h' : o.Reports a' text' block') :
    a.name = a'.name ∧ a.philosophy = a'.philosophy ∧ text = text' := by
  have hmap : block.map OutputLine.text = block'.map OutputLine.text :=
    (List.cons.inj (h.lines.symm.trans h'.lines)).2
  obtain rfl := List.map_injective_iff.2 (fun _ _ => OutputLine.text.inj) hmap
  have hobject := Option.some.inj (h.document.symm.trans h'.document)
  simpa [Task.object, toString] using hobject

end Output.Reports

namespace Interpreter

variable {i : Interpreter} {line : String} {p : Prompt}

/-- **A task that succeeds reports the reply to its prompt.** The agent of the prompt is the one
that the line names. If the reply is a text that is in within the time limit, the task has an
output, which reports the text; and an output of the task without an error reports such a reply. -/
theorem tasks_report_replies (hi : i.registry = .builtin) (hp : i.taskPrompt? line = some p)
    (generator : Generator) (w : Workspace) :
    (∃ request, Task.Request.parse line = .ok request ∧
      i.agents.find? request.agent = some p.agent) ∧
    (∀ text, (generator p).within i.limit = some (.ok text) →
      ∃ o block, i.execute generator line w = some o ∧ o.Reports p.agent text block) ∧
    ∀ o, i.execute generator line w = some o → o.hasError = false →
      ∃ text block, (generator p).within i.limit = some (.ok text) ∧
        o.Reports p.agent text block := by
  have hexecute := execute_of_taskPrompt hi hp generator w
  refine ⟨?_, ?_, ?_⟩
  · obtain ⟨-, -, request, agent, -, -, hr, ha, rfl⟩ := taskPrompt?_eq_some_iff.1 hp
    exact ⟨request, hr, ha⟩
  · intro text hw
    refine ⟨_, _, ?_, Task.reports_output p text⟩
    rw [hexecute, hw, Option.map_some]
  · intro o ho herror
    obtain ⟨reply, hw, rfl⟩ := Option.map_eq_some_iff.1 (hexecute.symm.trans ho)
    cases reply with
    | ok text => exact ⟨text, _, hw, Task.reports_output p text⟩
    | error e => cases herror

/-- An agent whose name and philosophy hold quotes, backslashes and line ends answers with control
characters, and with what looks like the end of a report. -/
theorem tasks_report_replies_of_line_ends :
    let a : Agent := ⟨"X\"\\\n", "", "\r\n'é\t\x01", []⟩
    let i : Interpreter := { agents := ⟨fun _ => some a⟩ }
    let text := "\"\n\x7d\r\n\x00\x1f\u2028\\"
    let generator : Generator := fun _ => .after 0 (.ok text)
    i.registry = .builtin ∧ i.taskPrompt? "TASK x \"hi\"" = some ⟨a, "hi", ""⟩ ∧
      ∃ o block, i.execute generator "TASK x \"hi\"" ⟨.empty, "/", "/"⟩ = some o ∧
        o.Reports a text block := by
  intro a i text generator
  have hi : i.registry = .builtin := rfl
  have hp : i.taskPrompt? "TASK x \"hi\"" = some ⟨a, "hi", ""⟩ := by decide +kernel
  obtain ⟨-, hreply, -⟩ := tasks_report_replies hi hp generator ⟨.empty, "/", "/"⟩
  exact ⟨hi, hp, hreply text rfl⟩

end Interpreter

end AgentShell
