import AgentShell.Proofs.Command.Effect
import AgentShell.Proofs.Command.Request

/-!
# What in the spelling of a line does not matter

A line of a built-in command is looked at through its words, and its verb through the lower-case
form. So the case of the verb and all white space around the words may be as they like. Only `task`
looks at the line once more, and reads the quotes behind the verb: what stands between the first two
of them is kept with all its white space, but the verb and the ends of the line make no difference
to it either.

## Main definitions

* `Interpreter.Alike`: lines with the same output and the same prompts

## Main results

* `Interpreter.alike_iff`: such lines come to the same in the first place
* `Task.firstQuoted?_append`: what does not count behind the quotes
* `Interpreter.alike_of_words`: lines with the same command, arguments and request
* `Interpreter.alike_of_spelling`: lines that are spelled in another way
-/

namespace AgentShell

namespace Task

open Text (words FirstWord)

variable {line line' verb rest text after : String}

theorem Request.parse_eq_parse (hwords : words (behindVerb line) = words (behindVerb line'))
    (hquoted : firstQuoted? (behindVerb line) = firstQuoted? (behindVerb line')) :
    parse line = parse line' := by
  simp only [parse, hwords, hquoted]

/-- **What stands behind a text and has no quotes does not count** in the search for two quotes. -/
theorem firstQuoted?_append (h : '"' ∉ after.toList) (text : String) :
    firstQuoted? (text ++ after) = firstQuoted? text := by
  have hnone : after.toList.dropWhile (· != '"') = [] :=
    List.dropWhile_eq_nil_iff.2 fun c hc => by simpa using ne_of_mem_of_not_mem hc h
  rw [firstQuoted?, firstQuoted?, String.toList_append, List.dropWhile_append]
  cases hopen : text.toList.dropWhile (· != '"') with
  | nil => simp [hnone]
  | cons quote body =>
    rw [List.isEmpty_cons, if_neg (by simp), List.cons_append]
    dsimp only
    rw [List.dropWhile_append]
    cases hclose : body.dropWhile (· != '"') with
    | nil => simp [hnone]
    | cons quote' tail =>
      have hbody := eq_of_dropWhile_quote hclose
      rw [List.isEmpty_cons, if_neg (by simp), List.cons_append]
      dsimp only
      rw [hbody, List.append_assoc, List.cons_append, takeWhile_quote (not_mem_takeWhile_quote _),
        takeWhile_quote (not_mem_takeWhile_quote _)]

end Task

/-- **A built-in command looks at the line only if it is `task`**, and then only for the request. -/
theorem Command.run_eq_run {c : Command} (hc : c ∈ builtin) {line line' : String}
    (h : c.name = "task" → Task.Request.parse line = Task.Request.parse line')
    (arguments : List String) (w : Workspace) (instructions : Instructions)
    (agents : AgentRegistry) :
    c.run ⟨arguments, line, w, instructions, agents⟩ =
      c.run ⟨arguments, line', w, instructions, agents⟩ := by
  cases mem_builtin_iff.1 hc with
  | task => simp only [task, h rfl]
  | _ => rfl

theorem Command.isWord_name {c : Command} (hc : c ∈ builtin) : Text.IsWord c.name := by
  cases mem_builtin_iff.1 hc <;> decide

namespace Interpreter

open Text (words FirstWord isBlankText)

variable {i : Interpreter} {line line' verb verb' : String} {arguments : List String} {c : Command}

/-- **Two lines are alike**: in every workspace they have the same output, whatever the generator
is, and give it the same prompts. -/
def Alike (i : Interpreter) (line line' : String) : Prop :=
  ∀ w, (∀ generator, i.execute generator line w = i.execute generator line' w) ∧
    i.prompts line w = i.prompts line' w

/-- Lines are alike if and only if they come to the same before any reply is in. -/
theorem alike_iff : i.Alike line line' ↔ ∀ w, i.start line w = i.start line' w := by
  constructor
  · intro h w
    obtain ⟨hexecute, hprompts⟩ := h w
    have hoff := hexecute fun _ => .onCue
    rw [prompts, prompts] at hprompts
    rw [execute, execute] at hoff
    cases hs : i.start line w with
    | done o =>
      cases hs' : i.start line' w with
      | done o' => simpa [hs, hs'] using hoff
      | asks p' => simp [hs, hs'] at hprompts
    | asks p =>
      cases hs' : i.start line' w with
      | done o' => simp [hs, hs'] at hprompts
      | asks p' => simpa [hs, hs'] using hprompts
  · intro h w
    refine ⟨fun generator => ?_, ?_⟩
    · rw [execute, execute, h w]
    · rw [prompts, prompts, h w]

/-- **Lines that are alike**: their verbs mean the same built-in command, their arguments are
the same, and if the command is `task`, so are their requests. -/
theorem alike_of_words (hi : i.registry = .builtin) (hc : c ∈ Command.builtin)
    (hw : words line = verb :: arguments) (hv : Text.lowercase verb = c.name)
    (hw' : words line' = verb' :: arguments) (hv' : Text.lowercase verb' = c.name)
    (ht : c.name = "task" → Task.Request.parse line = Task.Request.parse line') :
    i.Alike line line' := by
  refine alike_iff.2 fun w => ?_
  rw [start_of_name hi hw hc hv.symm, start_of_name hi hw' hc hv'.symm, Command.run_eq_run hc ht]

/-- Lines under the name of one command are alike if the same stands behind their verbs. -/
theorem alike_of_firstWord {rest : String} (hi : i.registry = .builtin) (hc : c ∈ Command.builtin)
    (hl : FirstWord line verb rest) (hv : Text.lowercase verb = c.name)
    (hl' : FirstWord line' verb' rest) (hv' : Text.lowercase verb' = c.name) :
    i.Alike line line' := by
  refine alike_of_words hi hc hl.words_eq hv hl'.words_eq hv' fun _ => ?_
  have hb : Task.behindVerb line = Task.behindVerb line' := by
    rw [Task.behindVerb_of_firstWord hl, Task.behindVerb_of_firstWord hl']
  exact Task.Request.parse_eq_parse (by rw [hb]) (by rw [hb])

theorem alike_append_append {before after : String} (hi : i.registry = .builtin)
    (hc : c ∈ Command.builtin) (hw : words line = verb :: arguments)
    (hv : Text.lowercase verb = c.name) (hb : isBlankText before = true)
    (ha : isBlankText after = true) : i.Alike line (before ++ line ++ after) := by
  have hw' : words (before ++ line ++ after) = verb :: arguments := by
    rw [Text.words_append_append_of_isBlankText hb ha, hw]
  refine alike_of_words hi hc hw hv hw' hv fun _ => ?_
  obtain ⟨rest, hl, -⟩ := Text.words_eq_cons_iff.1 hw
  have hrest := Task.behindVerb_of_firstWord (hl.append_append hb ha)
  apply Task.Request.parse_eq_parse
  · rw [Task.words_behindVerb, Task.words_behindVerb, hw, hw']
  · rw [hrest, Task.behindVerb_of_firstWord hl,
      Task.firstQuoted?_append (Task.not_mem_quote_of_isBlankText ha)]

/-- **How a line is spelled does not matter.** A line whose verb means a built-in command in lower
case is like the line with the name of the command and the arguments behind it, joined by single
spaces, unless it is a task; a task is like the line with `task` in place of all up to the end of
its verb. So the case of the verb makes no difference, nor does the white space at the ends of the
line, nor, outside tasks, any white space. -/
theorem alike_of_spelling (hi : i.registry = .builtin) (hw : words line = verb :: arguments)
    (hc : c ∈ Command.builtin) (hv : Text.lowercase verb = c.name) :
    (c.name ≠ "task" → i.Alike line (" ".intercalate (c.name :: arguments))) ∧
    (c.name = "task" → ∃ rest, FirstWord line verb rest ∧ i.Alike line ("task" ++ rest)) ∧
    (∀ line' verb', Text.lowercase verb' = c.name →
      (c.name ≠ "task" → words line' = verb' :: arguments → i.Alike line line') ∧
      ∀ rest, FirstWord line verb rest → FirstWord line' verb' rest → i.Alike line line') ∧
    ∀ before after, isBlankText before = true → isBlankText after = true →
      i.Alike line (before ++ line ++ after) := by
  have hname : Text.lowercase c.name = c.name := Command.lowercase_name hc
  have hword : Text.IsWord c.name := Command.isWord_name hc
  refine ⟨fun ht => ?_, fun ht => ?_, fun line' verb' hv' => ⟨fun ht hw' => ?_, ?_⟩, ?_⟩
  · have hwords : ∀ w ∈ c.name :: arguments, Text.IsWord w := by
      refine List.forall_mem_cons.2 ⟨hword, fun w hm => Text.isWord_of_mem_words (s := line) ?_⟩
      exact hw ▸ List.mem_cons_of_mem verb hm
    exact alike_of_words hi hc hw hv (Text.words_intercalate hwords) hname fun h => absurd h ht
  · obtain ⟨rest, hl, -⟩ := Text.words_eq_cons_iff.1 hw
    refine ⟨rest, hl, ?_⟩
    rw [← ht]
    exact alike_of_firstWord hi hc hl hv ⟨hword, hl.ends, "", rfl, by simp⟩ hname
  · exact alike_of_words hi hc hw hv hw' hv' fun h => absurd h ht
  · exact fun rest hl hl' => alike_of_firstWord hi hc hl hv hl' hv'
  · exact fun before after => alike_append_append hi hc hw hv

/-- The sign of a kelvin is a `k` in lower case, and an ideographic space is white space; a task
keeps the space between its quotes. -/
theorem alike_of_spelling_of_signs :
    let i : Interpreter := {}
    i.registry = .builtin ∧
      words "\u3000TAS\u212a dan\t\"a  b\" " = ["TAS\u212a", "dan", "\"a", "b\""] ∧
      Command.task ∈ Command.builtin ∧ Text.lowercase "TAS\u212a" = Command.task.name ∧
      (∃ rest, FirstWord "\u3000TAS\u212a dan\t\"a  b\" " "TAS\u212a" rest ∧
        i.Alike "\u3000TAS\u212a dan\t\"a  b\" " ("task" ++ rest)) ∧
      words "Ls\u3000 /x \n" = ["Ls", "/x"] ∧ Command.ls ∈ Command.builtin ∧
      Text.lowercase "Ls" = Command.ls.name ∧ i.Alike "Ls\u3000 /x \n" "ls /x" := by
  intro i
  have hi : i.registry = .builtin := rfl
  have htask : Command.task ∈ Command.builtin := Command.mem_builtin_iff.2 .task
  have hls : Command.ls ∈ Command.builtin := Command.mem_builtin_iff.2 .ls
  have hkelvin : Text.lowercase "TAS\u212a" = Command.task.name := by decide +kernel
  have hcapital : Text.lowercase "Ls" = Command.ls.name := by decide +kernel
  have hwords : words "\u3000TAS\u212a dan\t\"a  b\" " = ["TAS\u212a", "dan", "\"a", "b\""] := by
    decide +kernel
  have hwords' : words "Ls\u3000 /x \n" = ["Ls", "/x"] := by decide +kernel
  obtain ⟨-, hrest, -⟩ := alike_of_spelling hi hwords htask hkelvin
  obtain ⟨hjoined, -⟩ := alike_of_spelling hi hwords' hls hcapital
  exact ⟨hi, hwords, htask, hkelvin, hrest rfl, hwords', hls, hcapital, hjoined (by decide)⟩

end Interpreter

end AgentShell
