import AgentShell.Shell.Basic
import Mathlib.Control.Monad.Basic

/-!
# What a shell comes to

A shell decides when its lines are complete and with which outputs; all else is done by its loop. So
whatever the keys and replies are, a shell moves in four ways only: a key reaches the loop, the line
that runs is answered at once, its reply is in, or the keys come to an end. Properties of a run are
proved by induction on these moves.

## Main definitions

* `Shell.received`: the keys that reach a shell
* `Shell.Answered`: replies that a generator may give; `Shell.Exactly`: a generator by numbers
* `Shell.loopActions`: the actions of the loop among those of a shell
* `Shell.Reach`: what a shell comes to by its moves

## Main results

* `Shell.Reach.run`, `Shell.exists_reach_run`: a run is made of moves
* `Shell.exists_run_loop`: a run of a shell is a run of its loop
-/

namespace AgentShell.Shell

/-! ## Keys and replies of a run -/

/-- The keys that reach a shell: those that come before the channel of the keys closes. -/
def received : List Event → List Key
  | [] => []
  | .key k :: es => k :: received es
  | .reply _ :: es => received es
  | .close :: _ => []

/-- **Replies that a generator may give**: where a prompt waits and `n` were answered before it, the
reply is one that `answers n` admits for the prompt. -/
def Answered (answers : Nat → Prompt → Reply → Prop) : Shell → Nat → List Event → Prop
  | _, _, [] => True
  | s, n, .reply r :: es =>
    match s.waiting with
    | none => Answered answers (s.receive r).1 n es
    | some prompt => answers n prompt r ∧ Answered answers (s.receive r).1 (n + 1) es
  | s, n, .key k :: es => Answered answers (s.press k).1 n es
  | s, n, .close :: es => Answered answers { s with toLoop := s.toLoop.close } n es

instance answeredDecidable {answers : Nat → Prompt → Reply → Prop}
    [∀ n prompt r, Decidable (answers n prompt r)] :
    (s : Shell) → (n : Nat) → (es : List Event) → Decidable (Answered answers s n es)
  | _, _, [] => inferInstanceAs (Decidable True)
  | s, n, .reply r :: es =>
    have : ∀ m, Decidable (Answered answers (s.receive r).1 m es) :=
      fun m => answeredDecidable (s.receive r).1 m es
    match hw : s.waiting with
    | none => decidable_of_iff (Answered answers (s.receive r).1 n es) (by simp [Answered, hw])
    | some prompt =>
      decidable_of_iff (answers n prompt r ∧ Answered answers (s.receive r).1 (n + 1) es)
        (by simp [Answered, hw])
  | s, n, .key k :: es => answeredDecidable (s.press k).1 n es
  | s, n, .close :: es => answeredDecidable { s with toLoop := s.toLoop.close } n es

/-- A reply is the one given to the prompt by its number. -/
def Exactly (replies : Nat → Prompt → Reply) (n : Nat) (prompt : Prompt) (r : Reply) : Prop :=
  r = replies n prompt

instance (replies : Nat → Prompt → Reply) (n : Nat) (prompt : Prompt) (r : Reply) :
    Decidable (Exactly replies n prompt r) :=
  inferInstanceAs (Decidable (r = replies n prompt))

/-- The actions of the loop: all but the prompts that are put to the generator. -/
def loopActions (actions : List Action) : List Action :=
  actions.filter fun
    | .ask _ => false
    | _ => true

/-- **What a shell comes to** from `start`: the shell, how many prompts were answered, the keys that
reached it, and the actions of its loop. -/
inductive Reach (answers : Nat → Prompt → Reply → Prop) (start : Shell) :
    Shell → Nat → List Key → List Action → Prop where
  | start : Reach answers start start 0 [] []
  | key {s n keys actions} (h : Reach answers start s n keys actions) (ho : s.isOpen = true)
      (k : Key) :
      Reach answers start { s with toLoop := (s.toLoop.press k).1 } n (keys ++ [k])
        (actions ++ (s.toLoop.press k).2)
  /-- The line that runs is answered at once. -/
  | done {s n keys actions line output} (h : Reach answers start s n keys actions)
      (hr : s.running = some line)
      (hs : s.interpreter.start line s.session.workspace = .done output) :
      Reach answers start { s with toLoop := (s.toLoop.complete output).1 } n keys
        (actions ++ (s.toLoop.complete output).2)
  /-- The reply to the prompt of the line that runs is in. -/
  | reply {s n keys actions line prompt r} (h : Reach answers start s n keys actions)
      (hr : s.running = some line)
      (hs : s.interpreter.start line s.session.workspace = .asks prompt) (ha : answers n prompt r) :
      Reach answers start { s with toLoop := (s.toLoop.complete (Task.output prompt r)).1 } (n + 1)
        keys (actions ++ (s.toLoop.complete (Task.output prompt r)).2)
  | close {s n keys actions} (h : Reach answers start s n keys actions) :
      Reach answers start { s with toLoop := s.toLoop.close } n keys actions

/-! ## What a loop has a part in -/

section Parts

variable (as bs : List Action)

@[simp] theorem loopActions_nil : loopActions [] = [] := rfl

@[simp] theorem loopActions_append : loopActions (as ++ bs) = loopActions as ++ loopActions bs :=
  List.filter_append ..

@[simp] theorem loopActions_ask (prompt : Prompt) :
    loopActions (.ask prompt :: as) = loopActions as := rfl

/-- Prompts count neither among the lines nor among the outputs nor among the calls. -/
theorem filterMap_loopActions {α : Type} (f : Action → Option α) (hf : ∀ p, f (.ask p) = none) :
    (loopActions as).filterMap f = as.filterMap f := by
  induction as with
  | nil => rfl
  | cons a as ih =>
    cases a with
    | ask prompt => rw [loopActions_ask, ih, List.filterMap_cons_none (hf prompt)]
    | draw | launch | complete =>
      show (_ :: loopActions as).filterMap f = _
      rw [List.filterMap_cons, List.filterMap_cons, ih]

@[simp] theorem launched_loopActions : launched (loopActions as) = launched as :=
  filterMap_loopActions as _ fun _ => rfl

@[simp] theorem outputs_loopActions : outputs (loopActions as) = outputs as :=
  filterMap_loopActions as _ fun _ => rfl

@[simp] theorem calls_loopActions : calls (loopActions as) = calls as :=
  filterMap_loopActions as _ fun _ => rfl

end Parts

@[simp] theorem loopActions_follow (l : Loop) (r : Session.Reaction) :
    loopActions (l.follow r).2 = (l.follow r).2 := by
  refine List.filter_eq_self.2 fun a ha => ?_
  simp only [Loop.follow, List.mem_append, List.mem_map] at ha
  rcases ha with ⟨_, -, rfl⟩ | ⟨_, -, rfl⟩ <;> rfl

@[simp] theorem loopActions_press (l : Loop) (k : Key) :
    loopActions (l.press k).2 = (l.press k).2 := by
  unfold Loop.press
  split
  · split
    · exact loopActions_follow l _
    · rfl
  · rfl

@[simp] theorem loopActions_complete (l : Loop) (o : Output) :
    loopActions (l.complete o).2 = (l.complete o).2 := by
  unfold Loop.complete
  split
  · rfl
  · exact congrArg (_ :: ·) (loopActions_follow l _)

@[simp] theorem isOpen_settle (s : Shell) : s.settle.1.isOpen = s.isOpen := by
  fun_induction settle s with
  | case1 s h => rfl
  | case2 s line h prompt hs => rfl
  | case3 s line h output hs t last ih =>
    have hc : t.1.isOpen = s.isOpen := by simp [t, Loop.complete, h, Loop.follow]
    exact ih.trans hc

@[simp] theorem isOpen_press (s : Shell) (k : Key) : (s.press k).1.isOpen = s.isOpen := by
  have hp : (s.toLoop.press k).1.isOpen = s.isOpen := by
    unfold Loop.press
    split
    · split <;> rfl
    · rfl
  unfold press
  split
  · simpa [advance] using hp
  · exact hp

@[simp] theorem isOpen_receive (s : Shell) (r : Reply) : (s.receive r).1.isOpen = s.isOpen := by
  unfold receive
  split
  · rfl
  · simp only [advance, isOpen_settle, Loop.complete]
    split <;> rfl

/-! ## What is reached -/

namespace Reach

variable {answers : Nat → Prompt → Reply → Prop} {start s : Shell} {n : Nat} {keys : List Key}
  {actions : List Action}

theorem settle (h : Reach answers start s n keys actions) :
    Reach answers start s.settle.1 n keys (actions ++ loopActions s.settle.2) := by
  -- Induction on the lines that are answered at once. Each adds to what was done before, so that
  -- varies.
  suffices hs : ∀ as, Reach answers start s n keys as →
      Reach answers start s.settle.1 n keys (as ++ loopActions s.settle.2) from hs actions h
  clear h
  fun_induction Shell.settle s with
  | case1 s hr => simp
  | case2 s line hr prompt hs => simp
  | case3 s line hr output hs t last ih =>
    intro as h
    simpa [t, last] using ih _ (h.done hr hs)

theorem press (h : Reach answers start s n keys actions) (k : Key) :
    Reach answers start (s.press k).1 n (keys ++ if s.isOpen then [k] else [])
      (actions ++ loopActions (s.press k).2) := by
  cases ho : s.isOpen with
  | true =>
    have hk := h.key ho k
    cases hr : s.running with
    | none => simpa [Shell.press, hr, advance] using hk.settle
    | some line => simpa [Shell.press, hr, Loop.press, ho] using hk
  | false =>
    have hk : s.toLoop.press k = (s.toLoop, []) := by simp [Loop.press, ho]
    cases hr : s.running with
    | none => simpa [Shell.press, hr, advance, hk] using h.settle
    | some line => simpa [Shell.press, hr, hk] using h

theorem receive (h : Reach answers start s n keys actions) {prompt : Prompt}
    (hw : s.waiting = some prompt) {r : Reply} (ha : answers n prompt r) :
    Reach answers start (s.receive r).1 (n + 1) keys (actions ++ loopActions (s.receive r).2) := by
  obtain ⟨line, hr, hs⟩ := exists_running_of_waiting hw
  simpa [Shell.receive, hw, advance] using (h.reply hr hs ha).settle

/-- **A run is made of moves.** -/
theorem run (h : Reach answers start s n keys actions) {es : List Event}
    (ha : Answered answers s n es) :
    ∃ m, Reach answers start (s.run es).1 m (keys ++ if s.isOpen then received es else [])
      (actions ++ loopActions (s.run es).2) := by
  induction es generalizing s n keys actions with
  | nil => exact ⟨n, by simpa [Shell.run, received] using h⟩
  | cons e es ih =>
    simp only [Shell.run, loopActions_append, ← List.append_assoc]
    cases e with
    | key k =>
      have hk := ih (h.press k) ha
      cases ho : s.isOpen <;> simpa [step, ho, received] using hk
    | reply r =>
      cases hw : s.waiting with
      | none =>
        have hr : s.receive r = (s, []) := by simp [Shell.receive, hw]
        simp only [Answered, hw, hr] at ha
        simpa [step, hr, received] using ih h ha
      | some prompt =>
        simp only [Answered, hw] at ha
        simpa [step, received] using ih (h.receive hw ha.1) ha.2
    | close => simpa [step, received, Loop.close] using ih h.close ha

end Reach

/-- **A shell comes to the end of its run.** -/
theorem exists_reach_run {answers : Nat → Prompt → Reply → Prop} {start : Shell} {es : List Event}
    (ho : start.isOpen = true) (ha : Answered answers start 0 es) :
    ∃ n, Reach answers start (start.run es).1 n (received es) (loopActions (start.run es).2) := by
  simpa [ho] using Reach.start.run ha

/-- Without a condition on the replies, all of them are admitted. -/
theorem answered_of_forall {answers : Nat → Prompt → Reply → Prop} (ha : ∀ n p r, answers n p r)
    (s : Shell) (n : Nat) (es : List Event) : Answered answers s n es := by
  induction es generalizing s n with
  | nil => trivial
  | cons e es ih =>
    cases e with
    | key k => exact ih _ n
    | reply r =>
      unfold Answered
      split
      · exact ih _ n
      · exact ⟨ha .., ih _ (n + 1)⟩
    | close => exact ih _ n

/-! ## A shell and its loop -/

/-- A shell moves as its loop does, under events with the same keys. -/
theorem Reach.exists_loop_run {answers : Nat → Prompt → Reply → Prop} {start s : Shell} {n : Nat}
    {keys : List Key} {actions : List Action} (h : Reach answers start s n keys actions) :
    ∃ es, Loop.keys es = keys ∧ start.toLoop.run es = (s.toLoop, actions) := by
  induction h with
  | start => exact ⟨[], rfl, rfl⟩
  | key _ _ k ih =>
    obtain ⟨es, hk, hes⟩ := ih
    exact ⟨es ++ [.key k], by simp [hk], by rw [Loop.run_concat, hes, Loop.step]⟩
  | @done _ _ _ _ _ output _ _ _ ih =>
    obtain ⟨es, hk, hes⟩ := ih
    exact ⟨es ++ [.output output], by simp [hk], by rw [Loop.run_concat, hes, Loop.step]⟩
  | @reply _ _ _ _ _ prompt r _ _ _ _ ih =>
    obtain ⟨es, hk, hes⟩ := ih
    exact ⟨es ++ [.output (Task.output prompt r)], by simp [hk],
      by rw [Loop.run_concat, hes, Loop.step]⟩
  | close _ ih =>
    obtain ⟨es, hk, hes⟩ := ih
    exact ⟨es ++ [.close], by simp [hk], by rw [Loop.run_concat, hes, Loop.step, List.append_nil]⟩

/-- **A run of a shell is a run of its loop**, under the same keys and the outputs of the lines. -/
theorem exists_run_loop {start : Shell} (ho : start.isOpen = true) (es : List Event) :
    ∃ es', Loop.keys es' = received es ∧
      start.toLoop.run es' = ((start.run es).1.toLoop, loopActions (start.run es).2) := by
  have ha : Answered (fun _ _ _ => True) start 0 es := answered_of_forall (fun _ _ _ => trivial) ..
  obtain ⟨n, h⟩ := exists_reach_run ho ha
  exact h.exists_loop_run

end AgentShell.Shell
