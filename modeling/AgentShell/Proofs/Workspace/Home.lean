import AgentShell.Program
import AgentShell.Proofs.Shell.Reach
import AgentShell.Proofs.Workspace.Move

/-!
# The home directory

The home directory of valid settings is an absolute path, so a bare `cd` goes to its normal form
from wherever the session is. A session starts in the home directory as it is written. Where that is
a normal form, the working directory is one at every point of every run, and the session starts
where a bare `cd` goes. Otherwise the working directory is in normal form only from the first move
on, and the session starts elsewhere: at a path with slashes to spare, or in the root.

## Main definitions

* `Workspace.Visits`: the workspaces that lines lead to
* `Command.IsBareCd`: a line that is a `cd` without arguments

## Main results

* `Workspace.Visits.cwd`: a working directory is in normal form, or the session was never moved
* `Shell.visits_run`: a run of a shell passes through such workspaces
* `Settings.start_bareCd`: where a bare `cd` goes
* `Settings.starts_at_home_iff_normal`: these together
* `Settings.starts_elsewhere_of_slash`: a session that starts elsewhere
-/

namespace AgentShell

/-! ## Where lines lead -/

/-- **The workspaces that lines lead to**: the effects of the outputs that they may come to take
hold in turn. -/
inductive Workspace.Visits (i : Interpreter) (start : Workspace) : Workspace → Prop where
  | start : Visits i start start
  | line {w : Workspace} {line : String} {o : Output} (h : Visits i start w)
      (ha : i.Answers line w o) : Visits i start (w.applyAll o.effects)

namespace Workspace.Visits

variable {i : Interpreter} {start w : Workspace}

theorem tree (h : start.Visits i w) : w.tree = start.tree := by
  induction h with
  | start => rfl
  | line _ _ ih => rw [applyAll_tree, ih]

theorem home (h : start.Visits i w) : w.home = start.home := by
  induction h with
  | start => rfl
  | line _ _ ih => rw [applyAll_home, ih]

/-- **A working directory is in normal form**, or the session was never moved. -/
theorem cwd (hi : i.registry = .builtin) (h : start.Visits i w) :
    w.cwd = start.cwd ∨ Path.resolve "/" w.cwd = w.cwd := by
  -- Induction on the lines: one that moves the session names the directory by its normal form.
  induction h with
  | start => exact .inl rfl
  | @line w line o _ ha ih =>
    cases ha.soundIn hi with
    | quiet hq =>
      rw [hq]
      exact ih
    | clearScreen => exact ih
    | changeDirectory hn hd =>
      right
      rw [Output.ofEffect, applyAll_cons, apply_of_isDirectory hd]
      exact hn

end Workspace.Visits

/-! ## Runs of a shell -/

section Run

theorem Session.press_workspace (s : Session) (k : Key) :
    (s.press k).session.workspace = s.workspace := by
  cases hb : s.busy with
  | true => simp [press, hb]
  | false => rw [press_session hb]

theorem Loop.press_workspace (l : Loop) (k : Key) :
    (l.press k).1.session.workspace = l.session.workspace := by
  unfold press
  split
  · split
    · exact l.session.press_workspace k
    · rfl
  · rfl

/-- The effects of an output take hold when the line that runs is complete. -/
theorem Loop.complete_workspace {l : Loop} {line : String} (hr : l.running = some line)
    (o : Output) :
    (l.complete o).1.session.workspace = l.session.workspace.applyAll o.effects := by
  rw [complete_of_running hr]
  show (l.session.finish o).session.workspace = _
  rw [Session.finish_session]
  rfl

namespace Shell

variable {answers : Nat → Prompt → Reply → Prop} {start s : Shell} {n : Nat} {keys : List Key}
  {actions : List Action}

/-- **The lines of a shell lead to its workspace**, under the interpreter that it started with. -/
theorem Reach.visits (h : Reach answers start s n keys actions) :
    s.interpreter = start.interpreter ∧
      start.session.workspace.Visits start.interpreter s.session.workspace := by
  -- Induction on the moves: only a line that is complete changes the workspace.
  induction h with
  | start => exact ⟨rfl, .start⟩
  | key _ _ k ih =>
    refine ⟨ih.1, ?_⟩
    show start.session.workspace.Visits start.interpreter (Loop.press _ k).1.session.workspace
    rw [Loop.press_workspace]
    exact ih.2
  | @done s _ _ _ line output _ hr hs ih =>
    refine ⟨ih.1, ?_⟩
    show start.session.workspace.Visits start.interpreter
      (s.toLoop.complete output).1.session.workspace
    rw [Loop.complete_workspace hr]
    rw [ih.1] at hs
    exact ih.2.line (Interpreter.answers_of_done hs)
  | @reply s _ _ _ line prompt r _ hr hs _ ih =>
    refine ⟨ih.1, ?_⟩
    show start.session.workspace.Visits start.interpreter
      (s.toLoop.complete (Task.output prompt r)).1.session.workspace
    rw [Loop.complete_workspace hr]
    rw [ih.1] at hs
    exact ih.2.line (Interpreter.answers_of_asks hs r)
  | close _ ih => exact ih

/-- **A run passes through workspaces that its lines lead to.** -/
theorem visits_run (ho : start.isOpen = true) (es : List Event) :
    start.session.workspace.Visits start.interpreter (start.run es).1.session.workspace := by
  have ha : Answered (fun _ _ _ => True) start 0 es := answered_of_forall (fun _ _ _ => trivial) ..
  obtain ⟨n, h⟩ := exists_reach_run ho ha
  exact h.visits.2

end Shell

end Run

/-! ## The first directory -/

namespace Workspace

variable {tree : Tree} {home : String}

/-- **The first working directory is in normal form** if and only if the home directory is, or is
not found as it is written. -/
theorem resolve_enter_cwd_iff (tree : Tree) (home : String) :
    Path.resolve "/" (enter tree home).cwd = (enter tree home).cwd ↔
      Path.resolve "/" home = home ∨ tree.isDirectory home = false := by
  rw [enter_cwd]
  by_cases hd : tree.isDirectory home = true
  · simp [hd]
  · rw [if_neg hd, Path.resolve_slash]
    simp [hd]

/-- **A session starts at the normal form of its home directory** if and only if the home directory
is in normal form, or stands for the root and is not found as it is written. -/
theorem enter_cwd_eq_resolve_iff (h : tree.isDirectory (Path.resolve "/" home) = true) :
    (enter tree home).cwd = Path.resolve "/" home ↔
      Path.resolve "/" home = home ∨
        Path.resolve "/" home = "/" ∧ tree.isDirectory home = false := by
  rw [enter_cwd]
  by_cases hd : tree.isDirectory home = true
  · simp [hd, eq_comm]
  · rw [if_neg hd]
    constructor
    · intro he
      exact .inr ⟨he.symm, by simpa using hd⟩
    · rintro (he | ⟨he, -⟩)
      -- a home directory in normal form is found as it is written
      · rw [he] at h
        exact absurd h hd
      · exact he.symm

end Workspace

/-! ## The home directory of the settings -/

/-- The line is a `cd` without arguments. -/
def Command.IsBareCd (line : String) : Prop :=
  ∃ verb, Text.words line = [verb] ∧ Text.lowercase verb = "cd"

namespace Settings

variable {s : Settings} {tree : Tree} {w : Workspace} {line : String}

theorem isAbsolute_home_of_validate (h : s.validate = .ok s) : Path.isAbsolute s.home = true := by
  rw [validate] at h
  cases ha : Path.isAbsolute s.home with
  | true => rfl
  | false =>
    rw [ha] at h
    cases h

/-- **A bare `cd` goes to the normal form of the home directory**, from wherever the session is. -/
theorem start_bareCd (hv : s.validate = .ok s) {i : Interpreter} (hi : i.registry = .builtin)
    (hw : w.home = s.home) (hd : w.tree.isDirectory (Path.resolve "/" s.home) = true)
    (hl : Command.IsBareCd line) :
    i.start line w = .done (.ofEffect (.changeDirectory (Path.resolve "/" s.home))) := by
  obtain ⟨verb, hwords, hverb⟩ := hl
  have hr : Path.resolve w.cwd s.home = Path.resolve "/" s.home :=
    Path.resolve_of_isAbsolute (isAbsolute_home_of_validate hv) w.cwd
  rw [Interpreter.start_cd hi hwords hverb, List.head?_nil, Option.getD_none, hw,
    Command.changeDirectory, hr, if_pos hd]

/-- **A session starts where a bare `cd` goes, and its working directory is in normal form, if the
home directory is in normal form.** The home directory is that of valid settings, and the commands
are the built-in ones; the points of every run are among the workspaces that lines lead to.

Whatever the home directory is, a bare `cd` goes to its normal form from everywhere, and a working
directory is in normal form once the session was moved. The first working directory is in normal
form if and only if the home directory is, or is not found as it is written. The session starts
where a bare `cd` goes if and only if the home directory is in normal form, or stands for the root
and is not found as it is written. -/
theorem starts_at_home_iff_normal {s : Settings} (hv : s.validate = .ok s) (tree : Tree)
    {i : Interpreter} (hi : i.registry = .builtin) :
    let shell : Shell := { s.shell tree with interpreter := i }
    let start := shell.session.workspace
    let goal := Path.resolve "/" s.home
    (∀ es, start.Visits i (shell.run es).1.session.workspace) ∧
    (goal = s.home →
      (∀ w, start.Visits i w → Path.resolve "/" w.cwd = w.cwd) ∧
      (tree.isDirectory goal = true → start.cwd = goal)) ∧
    (∀ w, start.Visits i w →
      (w.cwd = start.cwd ∨ Path.resolve "/" w.cwd = w.cwd) ∧
      (tree.isDirectory goal = true → ∀ line, Command.IsBareCd line →
        i.start line w = .done (.ofEffect (.changeDirectory goal)) ∧
          (w.apply (.changeDirectory goal)).cwd = goal)) ∧
    (Path.resolve "/" start.cwd = start.cwd ↔ goal = s.home ∨ tree.isDirectory s.home = false) ∧
    (tree.isDirectory goal = true →
      (start.cwd = goal ↔ goal = s.home ∨ goal = "/" ∧ tree.isDirectory s.home = false)) := by
  intro shell start goal
  have hcwd : ∀ w, start.Visits i w → w.cwd = start.cwd ∨ Path.resolve "/" w.cwd = w.cwd :=
    fun w h => h.cwd hi
  have hnormal : Path.resolve "/" start.cwd = start.cwd ↔
      goal = s.home ∨ tree.isDirectory s.home = false := Workspace.resolve_enter_cwd_iff tree s.home
  have hgoal : tree.isDirectory goal = true →
      (start.cwd = goal ↔ goal = s.home ∨ goal = "/" ∧ tree.isDirectory s.home = false) :=
    Workspace.enter_cwd_eq_resolve_iff
  have ho : shell.isOpen = true := rfl
  refine ⟨fun es => Shell.visits_run ho es, ?_, ?_, hnormal, hgoal⟩
  · intro hn
    refine ⟨?_, fun hd => (hgoal hd).2 (.inl hn)⟩
    intro w hw
    rcases hcwd w hw with he | he
    · rw [he]
      exact hnormal.2 (.inl hn)
    · exact he
  · intro w hw
    refine ⟨hcwd w hw, ?_⟩
    intro hd line hl
    have ht : w.tree.isDirectory goal = true := by
      rw [hw.tree]
      exact hd
    refine ⟨start_bareCd hv hi hw.home ht hl, ?_⟩
    rw [Workspace.apply_of_isDirectory ht]

theorem isDirectory_initialHome : Tree.initial.isDirectory Layout.initialHome = true := by
  decide +kernel

/-- The settings that hold where nothing is set: the session starts at home, moves away, and would
come back. -/
theorem starts_at_home_of_default :
    let s : Settings := {}
    let i : Interpreter := {}
    let shell : Shell := { s.shell .initial with interpreter := i }
    let es : List Shell.Event := ("cd ..".toList.map fun c => .key (.char c)) ++ [.key .enter]
    let w := (shell.run es).1.session.workspace
    s.validate = .ok s ∧ i.registry = .builtin ∧ Path.resolve "/" s.home = s.home ∧
      Tree.initial.isDirectory (Path.resolve "/" s.home) = true ∧
      shell.session.workspace.cwd = "/home/user" ∧ Path.resolve "/" w.cwd = w.cwd ∧
      Command.IsBareCd " CD " ∧
      i.start " CD " w = .done (.ofEffect (.changeDirectory "/home/user")) := by
  intro s i shell es w
  have hv : s.validate = .ok s := by decide
  have hn : Path.resolve "/" s.home = s.home := by decide
  have hd : Tree.initial.isDirectory (Path.resolve "/" s.home) = true := by
    rw [hn]
    exact isDirectory_initialHome
  have hl : Command.IsBareCd " CD " := ⟨"CD", by decide, by decide⟩
  have hi : i.registry = .builtin := rfl
  obtain ⟨hrun, hhome, hall, -⟩ := starts_at_home_iff_normal hv .initial hi
  refine ⟨hv, hi, hn, hd, ?_, (hhome hn).1 w (hrun es), hl, ?_⟩
  · rw [(hhome hn).2 hd, hn]
    rfl
  · rw [((hall w (hrun es)).2 hd " CD " hl).1, hn]
    rfl

/-- **Sessions that start elsewhere**: one at a path with a slash to spare, and one in the root,
though the home directory of both stands for `/home/user`, where a bare `cd` goes. -/
theorem starts_elsewhere_of_slash :
    let spare : Settings := { home := "/home/user/" }
    let dotted : Settings := { home := "/home/./user" }
    spare.validate = .ok spare ∧ dotted.validate = .ok dotted ∧
      Tree.initial.isDirectory "/home/user" = true ∧
      Path.resolve "/" spare.home = "/home/user" ∧ Path.resolve "/" dotted.home = "/home/user" ∧
      (spare.shell .initial).session.workspace.cwd = "/home/user/" ∧
      (dotted.shell .initial).session.workspace.cwd = "/" ∧
      ∀ s ∈ [spare, dotted],
        (s.shell .initial).interpreter.start "cd" (s.shell .initial).session.workspace =
          .done (.ofEffect (.changeDirectory "/home/user")) := by
  decide +kernel

end Settings

end AgentShell
