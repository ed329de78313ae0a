import AgentShell.Proofs.Command.Report
import AgentShell.Proofs.Session.Terminal

/-!
# Outputs whose lines stay lines

A command cuts what it reads from a file at the line feeds, and it escapes those of a reply. Words
of the line that it quotes have none. Other texts it passes on as they are: `status` the custom
instructions, `ls` the names in a directory, `cd` the home directory that is not there, and a task
that fails its agent and the cause. An output has one line of the terminal for each of its lines
exactly where the texts that it passes on are on one line.

## Main definitions

* `GenerationError.cause?`: the text that comes with an error
* `Interpreter.PassesOn`: the texts that an output of a line holds as they are

## Main results

* `Command.isSingleSpaced_status_iff`, `Command.isSingleSpaced_list_iff`,
  `Command.isSingleSpaced_changeDirectory_iff`, `Task.isSingleSpaced_output_iff`: the outputs that
  pass texts on
* `Command.isSingleSpaced_showFile`: the lines of a file
* `Interpreter.isSingleSpaced_iff`: the outputs of lines
* `Interpreter.single_spaced_iff_passes_on`: the same, and what is sent to a terminal
-/

namespace AgentShell

open Text (IsOneLine)

/-! ## Outputs that are one line -/

section Outputs

theorem Output.isSingleSpaced_ofError_iff {text : String} :
    (ofError text).IsSingleSpaced ↔ IsOneLine text := by
  simp [IsSingleSpaced, ofError, OutputLine.plain]

theorem Output.isSingleSpaced_ofEffect (e : Effect) : (ofEffect e).IsSingleSpaced :=
  List.forall_mem_nil _

/-- The text that a generator gives with an error. -/
def GenerationError.cause? : GenerationError → Option String
  | .failed cause => some cause
  | .timedOut _ => none
  | .unavailable cause => some cause

theorem GenerationError.isOneLine_message_iff (e : GenerationError) :
    IsOneLine e.message ↔ ∀ s, e.cause? = some s → IsOneLine s := by
  cases e with
  | failed cause => exact (Text.isOneLine_behind (s := cause) (by decide)).trans (by simp [cause?])
  | timedOut ms =>
    have hms : IsOneLine (toString ms) := Text.isOneLine_toString ms
    exact iff_of_true ((Text.isOneLine_between (by decide) (by decide)).2 hms) (by simp [cause?])
  | unavailable cause =>
    exact (Text.isOneLine_behind (s := cause) (by decide)).trans (by simp [cause?])

/-- **The output of a task** passes on the agent and the cause of a failure. -/
theorem Task.isSingleSpaced_output_iff (p : Prompt) (r : Reply) :
    (output p r).IsSingleSpaced ↔
      ∀ e, r = .error e → IsOneLine p.agent.name ∧ ∀ s, e.cause? = some s → IsOneLine s := by
  have hstatus : IsOneLine (OutputLine.plain (.status "EXECUTING")) := by decide
  cases r with
  | ok text =>
    have hlines : (output p (.ok text)).lines =
        .status "EXECUTING" :: (report p.agent text).map .text := rfl
    rw [Output.IsSingleSpaced, hlines, List.forall_mem_cons, List.forall_mem_map]
    exact iff_of_true ⟨hstatus, fun s hs => (no_line_end_of_mem_report hs).1⟩ (by simp)
  | error e =>
    have hlines : (output p (.error e)).lines = [.status "EXECUTING",
        .error ("ERROR: Task for agent '" ++ p.agent.name ++ "' failed: " ++ e.message)] := rfl
    have hfront : IsOneLine "ERROR: Task for agent '" := by decide
    have hmid : IsOneLine "' failed: " := by decide
    rw [Output.IsSingleSpaced, hlines, List.forall_mem_cons, List.forall_mem_singleton,
      and_iff_right hstatus, OutputLine.plain]
    simp [hfront, hmid, e.isOneLine_message_iff]

end Outputs

/-! ## What the commands answer -/

namespace Command

variable {w : Workspace} {target : String}

theorem isOneLine_padEnd_iff {text : String} (width : Nat) :
    IsOneLine (padEnd width text) ↔ IsOneLine text := by
  simp [padEnd, IsOneLine]

/-- **The output of `help`** passes nothing on. -/
theorem isSingleSpaced_help {ctx : Context} {o : Output} (h : (help.run ctx).Yields o) :
    o.IsSingleSpaced := by
  obtain rfl := Execution.eq_of_done_yields h
  have hheading : IsOneLine (OutputLine.plain (.heading "CUA Ecosystem Commands:")) := by decide
  have husage : ∀ u ∈ usage, IsOneLine u.1 ∧ IsOneLine ("- " ++ u.2) := by
    simp [usage, IsOneLine]
  refine List.forall_mem_cons.2 ⟨hheading, List.forall_mem_map.2 fun u hu => ?_⟩
  obtain ⟨hform, hpurpose⟩ := husage u hu
  rw [OutputLine.plain, Text.isOneLine_append, Text.isOneLine_behind (by decide),
    isOneLine_padEnd_iff]
  exact ⟨hform, hpurpose⟩

@[simp] theorem isOneLine_orDefault_iff {text : String} :
    IsOneLine (orDefault text) ↔ IsOneLine text := by
  rw [orDefault]
  split
  case isTrue h =>
    subst h
    decide
  case isFalse => rfl

theorem isOneLine_labeled_iff {label space text : String} (h : IsOneLine ("  " ++ label ++ space)) :
    IsOneLine (OutputLine.plain (.labeled label (space ++ orDefault text))) ↔ IsOneLine text := by
  rw [OutputLine.plain, ← String.append_assoc, Text.isOneLine_behind h, isOneLine_orDefault_iff]

/-- **The output of `status`** passes on the custom instructions. -/
theorem isSingleSpaced_status_iff {ctx : Context} {o : Output} (h : (status.run ctx).Yields o) :
    o.IsSingleSpaced ↔ ∀ s ∈ [ctx.instructions.system, ctx.instructions.behavior,
      ctx.instructions.user], IsOneLine s := by
  obtain rfl := Execution.eq_of_done_yields h
  have hheading : IsOneLine (OutputLine.plain (.heading "Active Custom Instruction Nuances:")) := by
    decide
  simp only [Output.IsSingleSpaced, List.forall_mem_cons, hheading, true_and]
  rw [isOneLine_labeled_iff (by decide), isOneLine_labeled_iff (by decide),
    isOneLine_labeled_iff (by decide)]
  simp

/-- **The output of `ls`** passes on the names in a directory. -/
theorem isSingleSpaced_list_iff (ht : IsOneLine target) :
    (list w target).IsSingleSpaced ↔
      ∀ es, w.tree.entriesAt (Path.resolve w.cwd target) = .ok es → ∀ e ∈ es, IsOneLine e.name := by
  unfold list
  cases w.tree.entriesAt (Path.resolve w.cwd target) with
  | error e =>
    refine iff_of_true (Output.isSingleSpaced_ofError_iff.2 ?_) (by simp)
    exact (Text.isOneLine_between (by decide) (by decide)).2 ht
  | ok es =>
    cases es with
    | nil =>
      have hempty : IsOneLine "" := by decide
      simpa [Output.IsSingleSpaced, OutputLine.plain] using hempty
    | cons e es =>
      have hlisting : IsOneLine (OutputLine.plain (.listing (e :: es))) ↔ _ :=
        OutputLine.isOneLine_listing_iff
      simpa [Output.IsSingleSpaced] using hlisting

/-- **The output of `cd`** passes on what is no directory. -/
theorem isSingleSpaced_changeDirectory_iff :
    (changeDirectory w target).IsSingleSpaced ↔
      (w.tree.isDirectory (Path.resolve w.cwd target) = false → IsOneLine target) := by
  rw [changeDirectory]
  split
  case isTrue hd => simp [Output.isSingleSpaced_ofEffect, hd]
  case isFalse hd =>
    rw [Output.isSingleSpaced_ofError_iff, imp_iff_right (by simpa using hd)]
    exact Text.isOneLine_between (by decide) (by decide)

/-- **The output of `cat`** passes nothing on: a file is cut at its line feeds. -/
theorem isSingleSpaced_showFile (ht : IsOneLine target) : (showFile w target).IsSingleSpaced := by
  unfold showFile
  cases w.tree.contentAt (Path.resolve w.cwd target) with
  | error e =>
    rw [Output.isSingleSpaced_ofError_iff]
    exact (Text.isOneLine_between (by decide) (by decide)).2 ht
  | ok content =>
    intro l hl
    obtain ⟨piece, hpiece, rfl⟩ := List.mem_map.1 hl
    exact Text.isOneLine_of_mem_splitOn hpiece

end Command

/-! ## Texts that are passed on -/

namespace Interpreter

/-- **The texts that an output of a line holds as they are.** -/
inductive PassesOn (i : Interpreter) (line : String) (w : Workspace) (o : Output) :
    String → Prop where
  /-- `status` shows the custom instructions that are set. -/
  | instruction {verb arguments s} (hw : Text.words line = verb :: arguments)
      (hv : Text.lowercase verb = "status")
      (hs : s ∈ [i.instructions.system, i.instructions.behavior, i.instructions.user])
      (hne : s ≠ "") : PassesOn i line w o s
  /-- `ls` shows the names in a directory. -/
  | name {verb arguments es e} (hw : Text.words line = verb :: arguments)
      (hv : Text.lowercase verb = "ls")
      (hes : w.tree.entriesAt (Path.resolve w.cwd (arguments.head?.getD ".")) = .ok es)
      (he : e ∈ es) : PassesOn i line w o e.name
  /-- `cd` by itself names the home directory if it is not there. -/
  | home {verb} (hw : Text.words line = [verb]) (hv : Text.lowercase verb = "cd")
      (hd : w.tree.isDirectory (Path.resolve w.cwd w.home) = false) : PassesOn i line w o w.home
  /-- A task that fails names its agent. -/
  | agent {p e} (hp : i.taskPrompt? line = some p) (ho : o = Task.output p (.error e)) :
      PassesOn i line w o p.agent.name
  /-- A task that fails tells the cause. -/
  | cause {p e s} (hp : i.taskPrompt? line = some p) (ho : o = Task.output p (.error e))
      (hs : e.cause? = some s) : PassesOn i line w o s

variable {i : Interpreter} {line verb : String} {arguments : List String} {w : Workspace}
  {o : Output} {c : Command}

theorem isOneLine_word (hw : Text.words line = verb :: arguments) {word : String}
    (hword : word ∈ verb :: arguments) : IsOneLine word :=
  Text.isOneLine_of_mem_words (hw ▸ hword)

/-- The first argument of a line is on one line, and so is what stands for it if that is. -/
theorem isOneLine_head?_getD (hw : Text.words line = verb :: arguments) {d : String}
    (hd : arguments = [] → IsOneLine d) : IsOneLine (arguments.head?.getD d) := by
  cases arguments with
  | nil => exact hd rfl
  | cons target arguments => exact isOneLine_word hw (.tail _ (.head _))

theorem isSingleSpaced_iff_of_done {output : Output} (h : (Execution.done output).Yields o) :
    o.IsSingleSpaced ↔ output.IsSingleSpaced := by
  rw [Execution.eq_of_done_yields h]

/-- What is passed on in an output with one line of the terminal for each of its lines is on one
line. -/
theorem PassesOn.isOneLine {s : String} (hs : i.PassesOn line w o s) (hi : i.registry = .builtin)
    (h : i.Answers line w o) (ho : o.IsSingleSpaced) : IsOneLine s := by
  rw [Answers] at h
  cases hs with
  | instruction hw hv hs hne =>
    rw [start_of_name hi hw (Command.mem_builtin_iff.2 .status) hv.symm] at h
    exact (Command.isSingleSpaced_status_iff h).1 ho s hs
  | name hw hv hes he =>
    rw [start_of_name hi hw (Command.mem_builtin_iff.2 .ls) hv.symm] at h
    have hlist := (isSingleSpaced_iff_of_done h).1 ho
    have htarget := isOneLine_head?_getD hw (d := ".") fun _ => by decide
    exact (Command.isSingleSpaced_list_iff htarget).1 hlist _ hes _ he
  | home hw hv hd =>
    rw [start_cd hi hw hv] at h
    have hcd := (isSingleSpaced_iff_of_done h).1 ho
    exact Command.isSingleSpaced_changeDirectory_iff.1 hcd hd
  | agent hp he => exact ((Task.isSingleSpaced_output_iff _ _).1 (he ▸ ho) _ rfl).1
  | cause hp he hs => exact ((Task.isSingleSpaced_output_iff _ _).1 (he ▸ ho) _ rfl).2 _ hs

/-- What a built-in command is answered with at once has one line of the terminal for each of its
lines if what it passes on is on one line. -/
theorem isSingleSpaced_of_run (hw : Text.words line = verb :: arguments) (hc : c ∈ Command.builtin)
    (hn : c.name = Text.lowercase verb)
    (h : c.run ⟨arguments, line, w, i.instructions, i.agents⟩ = .done o)
    (hpass : ∀ s, i.PassesOn line w o s → IsOneLine s) : o.IsSingleSpaced := by
  have hyields : (Execution.done o).Yields o := .done o
  rw [← h] at hyields
  cases Command.mem_builtin_iff.1 hc with
  | help => exact Command.isSingleSpaced_help hyields
  | clear =>
    rw [← Execution.done.inj h]
    exact Output.isSingleSpaced_ofEffect _
  | ls =>
    rw [← Execution.done.inj h]
    have htarget := isOneLine_head?_getD hw (d := ".") fun _ => by decide
    exact (Command.isSingleSpaced_list_iff htarget).2 fun es hes e he =>
      hpass _ (.name hw hn.symm hes he)
  | cd =>
    rw [← Execution.done.inj h]
    refine Command.isSingleSpaced_changeDirectory_iff.2 fun hd => ?_
    refine isOneLine_head?_getD hw fun harguments => ?_
    subst harguments
    exact hpass _ (.home hw hn.symm hd)
  | cat =>
    rw [← Execution.done.inj h]
    cases arguments with
    | nil => exact Output.isSingleSpaced_ofError_iff.2 (by decide)
    | cons target arguments =>
      exact Command.isSingleSpaced_showFile (isOneLine_word hw (.tail _ (.head _)))
  | status =>
    refine (Command.isSingleSpaced_status_iff hyields).2 fun s hs => ?_
    by_cases hne : s = ""
    · rw [hne]
      decide
    · exact hpass s (.instruction hw hn.symm hs hne)
  | task =>
    rcases Command.run_task_cases ⟨arguments, line, w, i.instructions, i.agents⟩ with
      ⟨_, -, hd⟩ | ⟨request, hr, -, hd⟩ | ⟨_, _, -, -, hd⟩
    · rw [← Execution.done.inj (hd.symm.trans h), Output.isSingleSpaced_ofError_iff]
      decide
    · have harg := ((Task.Request.parse_eq_ok_iff hw).1 hr).1
      have hagent : IsOneLine request.agent :=
        isOneLine_word hw (.tail _ (List.mem_of_head? harg))
      rw [← Execution.done.inj (hd.symm.trans h), Output.isSingleSpaced_ofError_iff]
      exact (Text.isOneLine_between (by decide) (by decide)).2 hagent
    · cases hd.symm.trans h

/-- **The outputs of lines** have one line of the terminal for each of their lines exactly where
what they pass on is on one line. -/
theorem isSingleSpaced_iff (hi : i.registry = .builtin) (h : i.Answers line w o) :
    o.IsSingleSpaced ↔ ∀ s, i.PassesOn line w o s → IsOneLine s := by
  refine ⟨fun ho s hs => hs.isOneLine hi h ho, fun hpass => ?_⟩
  cases hs : i.start line w with
  | asks p =>
    rw [Answers, hs] at h
    obtain ⟨r, rfl⟩ := Execution.exists_of_asks_yields h
    have hp := (start_eq_asks_iff hi).1 hs
    refine (Task.isSingleSpaced_output_iff p r).2 ?_
    rintro e rfl
    exact ⟨hpass _ (.agent hp rfl), fun s hc => hpass s (.cause hp rfl hc)⟩
  | done output =>
    rw [Answers, hs] at h
    obtain rfl := Execution.eq_of_done_yields h
    rcases start_cases hi line w with
      ⟨-, hd⟩ | ⟨verb, arguments, hw, -, hd⟩ | ⟨verb, arguments, c, hw, hc, hn, hd⟩
    · rw [Execution.done.inj (hs.symm.trans hd)]
      exact List.forall_mem_nil _
    · rw [Execution.done.inj (hs.symm.trans hd), Output.isSingleSpaced_ofError_iff]
      exact (Text.isOneLine_behind (by decide)).2 (isOneLine_word hw (.head _))
    · exact isSingleSpaced_of_run hw hc hn (hd.symm.trans hs) hpass

/-! ## What is sent to the terminal -/

/-- **Which outputs have one line of the terminal for each of their lines.** An output of a line of
built-in commands has no line feed in the text of any of its lines if there is none in the texts
that it passes on, and only then; and only then are as many line feeds sent to the terminal as the
output has lines. Then what is sent are the lines as they are drawn, without line feeds inside, each
with a carriage return and a line feed behind it, and nothing in front of them that has a line feed.
So no line feed is sent without a carriage return in front of it. -/
theorem single_spaced_iff_passes_on (hi : i.registry = .builtin) (h : i.Answers line w o)
    (s : Session) :
    let sent := terminalText (s.present o).2
    let flat := ∀ t, i.PassesOn line w o t → '\n' ∉ t.toList
    ((∀ l ∈ o.lines, '\n' ∉ l.plain.toList) ↔ flat) ∧
      (sent.toList.count '\n' = o.lines.length ↔ flat) ∧
      (flat → (∃ front, sent = front ++ Text.closeLines (o.lines.map s.style.line) ∧
          '\n' ∉ front.toList) ∧
        (∀ l ∈ o.lines, '\n' ∉ (s.style.line l).toList) ∧ ¬Text.HasBareFeed sent) := by
  intro sent flat
  have hflat : o.IsSingleSpaced ↔ flat := isSingleSpaced_iff hi h
  refine ⟨hflat, Session.count_feeds_present_iff.trans hflat, fun hpass => ⟨?_, ?_, ?_⟩⟩
  · exact ⟨_, Session.terminalText_present s o, Session.isOneLine_terminalText_effects o.effects⟩
  · exact fun l hl => (s.style.isOneLine_line_iff l).2 (hflat.2 hpass l hl)
  · exact Session.not_hasBareFeed_present (hflat.2 hpass)

/-- A custom instruction on one line is passed on, and four lines are sent in colour. -/
theorem single_spaced_iff_passes_on_of_instruction :
    let i : Interpreter := { instructions := { system := "Be brief." } }
    let w : Workspace := ⟨.empty, "/", "/"⟩
    let o : Output := { lines := [.heading "Active Custom Instruction Nuances:",
      .labeled "SYSTEM:" " Be brief.", .labeled "AI:" "     Default",
      .labeled "USER:" "   Default"] }
    let sent := terminalText ((Session.fresh w "CUAG" {} true).present o).2
    i.registry = .builtin ∧ i.Answers "status" w o ∧ i.PassesOn "status" w o "Be brief." ∧
      (∀ t, i.PassesOn "status" w o t → '\n' ∉ t.toList) ∧ sent.toList.count '\n' = 4 ∧
      ¬Text.HasBareFeed sent := by
  intro i w o sent
  have hi : i.registry = .builtin := rfl
  have ho : i.Answers "status" w o := answers_of_done (by decide +kernel)
  have hw : Text.words "status" = ["status"] := by decide +kernel
  obtain ⟨hlines, hcount, hsent⟩ :=
    single_spaced_iff_passes_on hi ho (Session.fresh w "CUAG" {} true)
  have hflat : ∀ t, i.PassesOn "status" w o t → '\n' ∉ t.toList := hlines.1 (by decide)
  have hset : i.PassesOn "status" w o "Be brief." :=
    .instruction hw (by decide) (.head _) (by decide)
  exact ⟨hi, ho, hset, hflat, hcount.2 hflat, (hsent hflat).2.2⟩

/-- **Lines break where a line feed is passed on**: in an instruction that `status` shows, in a name
that `ls` shows, and in the cause of a failure. The line feed in the instruction is sent to the
terminal without a carriage return in front of it. -/
theorem not_single_spaced_of_line_feeds :
    let i : Interpreter := { instructions := { system := "a\nb" } }
    let generator : Generator := fun _ => .after 0 (.error (.failed "a\nb"))
    let w : Workspace := ⟨⟨.directory [("a\nb", .file "")]⟩, "/", "/"⟩
    let s := Session.fresh w "CUAG" { color := false } true
    (∀ line ∈ ["status", "ls", "task dan \"x\""],
      ∃ o ∈ i.execute generator line w, ∃ l ∈ o.lines, '\n' ∈ l.plain.toList) ∧
      ∃ o ∈ i.execute generator "status" w, Text.HasBareFeed (terminalText (s.present o).2) := by
  intro i generator w s
  let shown : Output := { lines := [.heading "Active Custom Instruction Nuances:",
    .labeled "SYSTEM:" " a\nb", .labeled "AI:" "     Default", .labeled "USER:" "   Default"] }
  let listed : Output := { lines := [.listing [⟨"a\nb", .file⟩]] }
  let failed : Output := { lines := [.status "EXECUTING",
    .error "ERROR: Task for agent 'DAN' failed: generation failed: a\nb"] }
  have hshown : i.execute generator "status" w = some shown := by decide +kernel
  have hlisted : i.execute generator "ls" w = some listed := by decide +kernel
  have hfailed : i.execute generator "task dan \"x\"" w = some failed := by decide +kernel
  have hbare : Text.HasBareFeed (terminalText (s.present shown).2) :=
    ⟨"Active Custom Instruction Nuances:\r\n  SYSTEM: a".toList,
      "b\r\n  AI:     Default\r\n  USER:   Default\r\n".toList, by decide +kernel, by decide⟩
  refine ⟨?_, shown, hshown, hbare⟩
  simp only [List.forall_mem_cons, List.not_mem_nil, false_imp_iff, implies_true, and_true]
  exact ⟨⟨shown, hshown, by decide +kernel⟩, ⟨listed, hlisted, by decide +kernel⟩,
    failed, hfailed, by decide +kernel⟩

end Interpreter

end AgentShell
