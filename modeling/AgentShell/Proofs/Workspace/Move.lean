import AgentShell.Proofs.Command.Effect
import AgentShell.Proofs.Tree.Change

/-!
# The working directory

Whatever lines are run and whatever effects are applied, the working directory is a directory of the
tree, and the tree and the home directory stay what they are. A line of built-in commands that moves
the session names a directory that is there by its normal form, so the move is made; a line with an
error leaves the workspace as it was; and a `cd` without an error moves the session.

## Main definitions

* `Workspace.Move`: a line that is run, or an effect
* `Workspace.move`, `Workspace.moveAll`: the workspace behind moves

## Main results

* `Workspace.isDirectory_cwd_enter`, `Workspace.isDirectory_cwd_applyAll`: the working directory is
  there
* `Workspace.exists_moveAll_eq_applyAll`: moves apply effects and do nothing else
* `Output.SoundIn.applyAll_of_mem`, `Output.SoundIn.applyAll_of_hasError`: the output of a built-in
  command, by what it asks
* `Workspace.isDirectory_cwd_and_change_accepted`: these together
-/

namespace AgentShell

namespace Workspace

variable {w : Workspace} {effects : List Effect} {path : String}

/-! ## Effects -/

section Apply

@[simp] theorem apply_tree (w : Workspace) (e : Effect) : (w.apply e).tree = w.tree := by
  cases e with
  | clearScreen => rfl
  | changeDirectory path =>
    rw [apply]
    split <;> rfl

@[simp] theorem apply_home (w : Workspace) (e : Effect) : (w.apply e).home = w.home := by
  cases e with
  | clearScreen => rfl
  | changeDirectory path =>
    rw [apply]
    split <;> rfl

/-- **A change to a directory of the tree is made.** -/
theorem apply_of_isDirectory (h : w.tree.isDirectory path = true) :
    w.apply (.changeDirectory path) = { w with cwd := path } := by
  rw [apply, if_pos h]

theorem isDirectory_cwd_apply (h : w.tree.isDirectory w.cwd = true) (e : Effect) :
    w.tree.isDirectory (w.apply e).cwd = true := by
  cases e with
  | clearScreen => exact h
  | changeDirectory path =>
    by_cases hd : w.tree.isDirectory path = true
    · rwa [apply_of_isDirectory hd]
    · rwa [apply, if_neg hd]

@[simp] theorem applyAll_nil (w : Workspace) : w.applyAll [] = w := rfl

@[simp] theorem applyAll_cons (w : Workspace) (e : Effect) (effects : List Effect) :
    w.applyAll (e :: effects) = (w.apply e).applyAll effects := rfl

theorem applyAll_append (w : Workspace) (effects effects' : List Effect) :
    w.applyAll (effects ++ effects') = (w.applyAll effects).applyAll effects' :=
  List.foldl_append

@[simp] theorem applyAll_tree (w : Workspace) (effects : List Effect) :
    (w.applyAll effects).tree = w.tree := by
  induction effects generalizing w with
  | nil => rfl
  | cons e effects ih => rw [applyAll_cons, ih, apply_tree]

@[simp] theorem applyAll_home (w : Workspace) (effects : List Effect) :
    (w.applyAll effects).home = w.home := by
  induction effects generalizing w with
  | nil => rfl
  | cons e effects ih => rw [applyAll_cons, ih, apply_home]

/-- **Effects leave the session in a directory of the tree.** -/
theorem isDirectory_cwd_applyAll (h : w.tree.isDirectory w.cwd = true) (effects : List Effect) :
    w.tree.isDirectory (w.applyAll effects).cwd = true := by
  induction effects generalizing w with
  | nil => exact h
  | cons e effects ih =>
    have he := isDirectory_cwd_apply h e
    rw [← apply_tree w e] at he ⊢
    exact ih he

end Apply

section Enter

variable (tree : Tree) (home : String)

@[simp] theorem enter_tree : (enter tree home).tree = tree := rfl

@[simp] theorem enter_home : (enter tree home).home = home := rfl

theorem enter_cwd : (enter tree home).cwd = if tree.isDirectory home then home else "/" := rfl

end Enter

/-- **A session starts in a directory of the tree**, whatever its home is. -/
theorem isDirectory_cwd_enter {tree : Tree} (h : tree.root.isDirectory = true) (home : String) :
    tree.isDirectory (enter tree home).cwd = true := by
  rw [enter_cwd]
  by_cases hd : tree.isDirectory home = true
  · rwa [if_pos hd]
  · rw [if_neg hd]
    obtain ⟨es, he⟩ := Node.isDirectory_iff_exists.1 h
    exact Tree.isDirectory_iff.2 ⟨es, by rw [Path.segments_slash, Node.get?_nil, he]⟩

/-! ## Moves -/

/-- What moves a workspace. -/
inductive Move where
  /-- A line is run, and the effects of its output are applied. -/
  | line (i : Interpreter) (generator : Generator) (text : String)
  | effect (e : Effect)

/-- **The workspace behind a move.** A line whose reply never comes has no output. -/
def move (w : Workspace) : Move → Workspace
  | .line i generator text => (i.execute generator text w).elim w fun o => w.applyAll o.effects
  | .effect e => w.apply e

/-- The workspace behind moves in turn. -/
def moveAll (w : Workspace) (moves : List Move) : Workspace :=
  moves.foldl move w

theorem exists_move_eq_applyAll (w : Workspace) (m : Move) :
    ∃ effects, w.move m = w.applyAll effects := by
  cases m with
  | line i generator text =>
    rw [move]
    cases i.execute generator text w with
    | none => exact ⟨[], rfl⟩
    | some o => exact ⟨o.effects, rfl⟩
  | effect e => exact ⟨[e], rfl⟩

/-- **Moves apply effects and do nothing else.** -/
theorem exists_moveAll_eq_applyAll (w : Workspace) (moves : List Move) :
    ∃ effects, w.moveAll moves = w.applyAll effects := by
  -- Induction on the moves: the effects of the first come before those of the others.
  induction moves generalizing w with
  | nil => exact ⟨[], rfl⟩
  | cons m moves ih =>
    obtain ⟨first, hm⟩ := w.exists_move_eq_applyAll m
    obtain ⟨rest, hms⟩ := ih (w.move m)
    refine ⟨first ++ rest, ?_⟩
    rw [applyAll_append, ← hm, ← hms]
    rfl

end Workspace

/-! ## Effects of a sound output -/

namespace Output.SoundIn

variable {w : Workspace} {o : Output} {path : String}

/-- **A change that is asked is made**: it names a directory that is there, by its normal form, and
nothing else is asked. -/
theorem applyAll_of_mem (h : o.SoundIn w) (hm : Effect.changeDirectory path ∈ o.effects) :
    Path.resolve "/" path = path ∧ w.tree.isDirectory path = true ∧
      w.applyAll o.effects = { w with cwd := path } := by
  cases h with
  | quiet h =>
    rw [h] at hm
    cases hm
  | clearScreen => simp [ofEffect] at hm
  | changeDirectory hn hd =>
    obtain rfl : path = _ := Effect.changeDirectory.inj (List.mem_singleton.1 hm)
    exact ⟨hn, hd, Workspace.apply_of_isDirectory hd⟩

/-- **An output with an error asks nothing.** -/
theorem applyAll_of_hasError (h : o.SoundIn w) (he : o.hasError = true) :
    w.applyAll o.effects = w := by
  cases h with
  | quiet h => rw [h, Workspace.applyAll_nil]
  | clearScreen => cases he
  | changeDirectory => cases he

end Output.SoundIn

theorem Command.effects_changeDirectory {w : Workspace} {target : String}
    (h : (changeDirectory w target).hasError = false) :
    Effect.changeDirectory (Path.resolve w.cwd target) ∈ (changeDirectory w target).effects := by
  unfold changeDirectory at h ⊢
  by_cases hd : w.tree.isDirectory (Path.resolve w.cwd target) = true
  · rw [if_pos hd]
    exact List.mem_singleton_self _
  · rw [if_neg hd] at h
    cases h

namespace Workspace

/-- **The working directory is a directory of the tree** behind whatever lines and effects, and the
tree and the home directory stay what they are. Where a line of built-in commands asks for a change
of directory, it names a directory that is there by its normal form, and the change is made. A line
with an error leaves the workspace as it was, and a `cd` without an error asks for the change to the
directory that its argument, or else the home directory, resolves to. -/
theorem isDirectory_cwd_and_change_accepted :
    (∀ (tree : Tree) (home : String) (moves : List Move), tree.root.isDirectory = true →
      let w := (enter tree home).moveAll moves
      w.tree = tree ∧ w.home = home ∧ tree.isDirectory w.cwd = true) ∧
    ∀ (i : Interpreter) (generator : Generator) (line : String) (w : Workspace) (o : Output),
      i.registry = .builtin → i.execute generator line w = some o →
      (∀ path, Effect.changeDirectory path ∈ o.effects →
        Path.resolve "/" path = path ∧ w.tree.isDirectory path = true ∧
          w.apply (.changeDirectory path) = { w with cwd := path } ∧
          w.applyAll o.effects = { w with cwd := path }) ∧
      (o.hasError = true → w.applyAll o.effects = w) ∧
      ∀ verb arguments, Text.words line = verb :: arguments → Text.lowercase verb = "cd" →
        o.hasError = false →
          Effect.changeDirectory (Path.resolve w.cwd (arguments.head?.getD w.home)) ∈
            o.effects := by
  refine ⟨?_, ?_⟩
  · intro tree home moves hr w
    obtain ⟨effects, he⟩ := (enter tree home).exists_moveAll_eq_applyAll moves
    have hw : w = (enter tree home).applyAll effects := he
    have hd := isDirectory_cwd_enter hr home
    rw [← enter_tree tree home] at hd
    have hd := isDirectory_cwd_applyAll hd effects
    rw [enter_tree] at hd
    rw [hw, applyAll_tree, applyAll_home]
    exact ⟨enter_tree .., enter_home .., hd⟩
  · intro i generator line w o hi hx
    have hs : o.SoundIn w := (Interpreter.answers_of_execute hx).soundIn hi
    refine ⟨?_, hs.applyAll_of_hasError, ?_⟩
    · intro path hm
      obtain ⟨hn, hd, ha⟩ := hs.applyAll_of_mem hm
      exact ⟨hn, hd, apply_of_isDirectory hd, ha⟩
    · intro verb arguments hw hv he
      rw [Interpreter.execute_of_start (Interpreter.start_cd hi hw hv w), Option.some.injEq] at hx
      rw [← hx] at he ⊢
      exact Command.effects_changeDirectory he

/-- A session at `/a/b`, with slashes to spare in its home: a change to what is no directory and a
`cd` with an error leave it there, and a `cd` with dots takes it to `/a`. -/
theorem change_accepted_of_dots :
    let tree : Tree := ⟨.directory [("a", .directory [("b", .directory [])])]⟩
    let moves : List Move :=
      [.line {} (.persona 0) "cd ..//a/./b/", .effect (.changeDirectory "/c"),
        .line {} (.persona 0) "CD c"]
    let w := (enter tree "/a/").moveAll moves
    tree.root.isDirectory = true ∧ w.cwd = "/a/b" ∧ tree.isDirectory w.cwd = true ∧
      ({} : Interpreter).registry = .builtin ∧
      ({} : Interpreter).execute (.persona 0) "cd ./../" w =
        some (.ofEffect (.changeDirectory "/a")) ∧
      w.applyAll [.changeDirectory "/a"] = { w with cwd := "/a" } := by
  intro tree moves w
  have hr : tree.root.isDirectory = true := rfl
  have hx : ({} : Interpreter).execute (.persona 0) "cd ./../" w =
      some (.ofEffect (.changeDirectory "/a")) := by decide +kernel
  have hw := isDirectory_cwd_and_change_accepted.1 tree "/a/" moves hr
  obtain ⟨hc, -⟩ := isDirectory_cwd_and_change_accepted.2 {} (.persona 0) "cd ./../" w _ rfl hx
  exact ⟨hr, by decide, hw.2.2, rfl, hx, (hc "/a" (List.mem_singleton_self _)).2.2.2⟩

end Workspace

end AgentShell
