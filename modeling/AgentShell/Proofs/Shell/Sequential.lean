import AgentShell.Proofs.Loop.Trace
import AgentShell.Proofs.Shell.Reach

/-!
# Keys first, lines afterwards

A shell takes keys while its lines run. The sequential shell takes all keys first and then runs the
lines that they submit one after another, by themselves. Both come to the same history, the same
typed line, the same working directory and the same outputs, however keys and replies are mixed. The
replies may depend on the prompt and on how many prompts came before it, but not on time. Recall is
left out, since it rests while a line runs.

## Main definitions

* `Editor.editAll`: keys in turn, and the lines that they submit
* `Shell.runLines`: lines run by themselves, one after another
* `Shell.Outcome`, `Shell.sequential`: what is left in the end, and what the sequential shell leaves
* `Shell.Simulates`: a shell is where the sequential shell is after the lines that are complete

## Main results

* `Shell.Simulates.key`, `Shell.Simulates.complete`: a key and an output keep the simulation
* `Shell.Reach.simulates`: the simulation holds in whatever a shell comes to
* `Shell.sequential_eq_outcome`: a shell leaves what the sequential shell leaves
-/

namespace AgentShell

/-! ## All keys first -/

namespace Editor

/-- Keys in turn, without recall, and the lines that they submit. -/
def editAll (e : Editor) : List Key → Editor × List String
  | [] => (e, [])
  | k :: keys =>
    let t := (e.edit k).1.editAll keys
    (t.1, (e.edit k).2.toList ++ t.2)

theorem editAll_concat (e : Editor) (keys : List Key) (k : Key) :
    e.editAll (keys ++ [k]) =
      (((e.editAll keys).1.edit k).1,
        (e.editAll keys).2 ++ ((e.editAll keys).1.edit k).2.toList) := by
  induction keys generalizing e with
  | nil => simp [editAll]
  | cons k' keys ih => simp [editAll, ih, List.append_assoc]

theorem edit_withQueue (e : Editor) (queue : List String) (k : Key) :
    { e with queue }.edit k = ({ (e.edit k).1 with queue }, (e.edit k).2) := by
  cases k with
  | char | up | down => rfl
  | backspace => simp [edit, getD_erase?]
  | enter =>
    simp only [edit, submit]
    split <;> rfl

end Editor

/-- The session after the outputs of lines. -/
def Session.presentAll (s : Session) (done : List (String × Output)) : Session :=
  done.foldl (fun s d => (s.present d.2).1) s

theorem Session.presentAll_concat (s : Session) (done : List (String × Output))
    (d : String × Output) :
    s.presentAll (done ++ [d]) = ((s.presentAll done).present d.2).1 := by
  simp [presentAll]

namespace Shell

/-! ## One line after another -/

/-- What lines that run by themselves have come to. -/
structure Sequence where
  shell : Shell
  /-- How many prompts were put to the generator. -/
  asked : Nat := 0
  outputs : List Output := []

/-- A line run by itself behind others. The reply to the prompt number `n` is `replies n`. -/
def Sequence.next? (replies : Nat → Prompt → Reply) (q : Sequence) (line : String) :
    Option Sequence :=
  (q.shell.runLine (fun prompt => .after 0 (replies q.asked prompt)) line).map fun r =>
    { shell := r.1
      asked := q.asked + (q.shell.interpreter.prompts line q.shell.session.workspace).length
      outputs := q.outputs ++ [r.2.1] }

/-- **Lines run by themselves**, one after another. -/
def runLines (replies : Nat → Prompt → Reply) (s : Shell) (lines : List String) : Option Sequence :=
  lines.foldlM (Sequence.next? replies) { shell := s }

theorem runLines_concat (replies : Nat → Prompt → Reply) (s : Shell) (lines : List String)
    (line : String) :
    runLines replies s (lines ++ [line]) =
      (runLines replies s lines).bind fun q => q.next? replies line := by
  rw [runLines, List.foldlM_append]
  simp [runLines]

/-- What is left in the end. -/
structure Outcome where
  history : List String
  buffer : String
  cwd : String
  outputs : List Output
deriving DecidableEq

/-- What a run leaves. -/
def outcome (s : Shell) (actions : List Action) : Outcome where
  history := s.session.editor.history
  buffer := s.session.editor.buffer
  cwd := s.session.workspace.cwd
  outputs := outputs actions

/-- **What the sequential shell leaves**: all keys go to an editor, and the lines that they submit
are then run by themselves. -/
def sequential (replies : Nat → Prompt → Reply) (s : Shell) (keys : List Key) : Option Outcome :=
  let typed := ({} : Editor).editAll keys
  (runLines replies s typed.2).map fun q =>
    { history := typed.1.history
      buffer := typed.1.buffer
      cwd := q.shell.session.workspace.cwd
      outputs := q.outputs }

/-! ## The simulation -/

/-- **A shell is where the sequential shell is** after the lines that are complete, and has before
it those that run and wait. -/
structure Simulates (replies : Nat → Prompt → Reply) (start s : Shell) (answered : Nat)
    (keys : List Key) (actions : List Action) (done : List (String × Output)) : Prop where
  interpreter : s.interpreter = start.interpreter
  session : s.session =
    { start.session.presentAll done with editor := s.session.editor, busy := s.running.isSome }
  queue_eq_nil : s.running = none → s.session.editor.queue = []
  editor : { s.session.editor with queue := [] } = (({} : Editor).editAll keys).1
  lines : done.map Prod.fst ++ (s.running.toList ++ s.session.editor.queue) =
    (({} : Editor).editAll keys).2
  outputs_eq : outputs actions = done.map Prod.snd
  runLines_eq : runLines replies start (done.map Prod.fst) = some
    { shell := { start with session := start.session.presentAll done }
      asked := answered
      outputs := done.map Prod.snd }

namespace Simulates

variable {replies : Nat → Prompt → Reply} {start s : Shell} {n : Nat} {keys : List Key}
  {actions : List Action} {done : List (String × Output)}

theorem fresh (w : Workspace) (label : String) (style : Style) (echo : Bool) (i : Interpreter) :
    Simulates replies (.fresh w label style echo i) (.fresh w label style echo i) 0 [] [] [] where
  interpreter := rfl
  session := rfl
  queue_eq_nil _ := rfl
  editor := rfl
  lines := rfl
  outputs_eq := rfl
  runLines_eq := rfl

theorem busy (h : Simulates replies start s n keys actions done) :
    s.session.busy = s.running.isSome := by
  rw [h.session]

/-- What one key more means to the editor that takes all keys first. -/
theorem editAll_concat (h : Simulates replies start s n keys actions done) (k : Key) :
    ({} : Editor).editAll (keys ++ [k]) =
      ({ (s.session.editor.edit k).1 with queue := [] },
        done.map Prod.fst ++ (s.running.toList ++
          (s.session.editor.queue ++ (s.session.editor.edit k).2.toList))) := by
  rw [Editor.editAll_concat, ← h.editor, ← h.lines, Editor.edit_withQueue]
  simp only [List.append_assoc]

/-- **A key** that reaches the shell: what it submits runs at once, or waits behind the others. -/
theorem key (h : Simulates replies start s n keys actions done) (ho : s.isOpen = true) {k : Key}
    (hu : k ≠ .up) (hd : k ≠ .down) :
    Simulates replies start { s with toLoop := (s.toLoop.press k).1 } n (keys ++ [k])
      (actions ++ (s.toLoop.press k).2) done := by
  have hk := h.editAll_concat k
  have hb := h.busy
  cases hr : s.running with
  | none =>
    rw [hr] at hb
    have hq := h.queue_eq_nil hr
    have hs := Session.press_session hb k
    have hp := Session.press_dispatch hb k
    rw [Editor.press_of_ne _ hu hd] at hs hp
    have hl : s.toLoop.press k = s.toLoop.follow (s.session.press k) := Loop.press_of_idle ho hr k
    constructor
    case interpreter => exact h.interpreter
    case session =>
      simp only [hl, Loop.follow, hs, hp]
      rw [h.session]
    case queue_eq_nil => simp [hl, Loop.follow, hs, hq]
    case editor => simp [hl, Loop.follow, hs, hk]
    case lines => simp [hl, Loop.follow, hs, hp, hk, hq, hr]
    case outputs_eq => simp [hl, Loop.follow, h.outputs_eq]
    case runLines_eq => exact h.runLines_eq
  | some line =>
    have hl := Loop.press_of_running ho hr k
    constructor
    case interpreter => exact h.interpreter
    case session =>
      simp only [hl, hr]
      rw [h.session, hr]
    case queue_eq_nil => simp [hl, hr]
    case editor => simp [hl, hk, Editor.pressBusy_fst]
    case lines => simp [hl, hk, hr, Editor.pressBusy_fst]
    case outputs_eq => simp [hl, h.outputs_eq]
    case runLines_eq => exact h.runLines_eq

/-- **An output** of the line that runs, if it is the one that the line gives by itself. -/
theorem complete (h : Simulates replies start s n keys actions done) {line : String}
    (hr : s.running = some line) {o : Output}
    (hx : s.interpreter.execute (fun prompt => .after 0 (replies n prompt)) line
      s.session.workspace = some o) :
    Simulates replies start { s with toLoop := (s.toLoop.complete o).1 }
      (n + (s.interpreter.prompts line s.session.workspace).length) keys
      (actions ++ (s.toLoop.complete o).2) (done ++ [(line, o)]) := by
  have hl := Loop.complete_of_running hr o
  have hw : s.session.workspace = (start.session.presentAll done).workspace := by rw [h.session]
  have ho : (s.session.present o).1 =
      { (start.session.presentAll (done ++ [(line, o)])) with
        editor := s.session.editor, busy := s.session.busy } := by
    rw [Session.presentAll_concat, h.session]
    rfl
  constructor
  case interpreter => exact h.interpreter
  case session => simp only [hl, Loop.follow, Session.finish_session, Session.finish_dispatch, ho]
  case queue_eq_nil =>
    simp only [hl, Loop.follow, Session.finish_session, Session.finish_dispatch]
    intro hn
    rw [List.head?_eq_none_iff.1 hn, List.tail_nil]
  case editor => simpa [hl, Loop.follow, Session.finish_session] using h.editor
  case lines =>
    rw [← h.lines]
    cases hq : s.session.editor.queue <;>
      simp [hl, Loop.follow, Session.finish_session, Session.finish_dispatch, hq, hr]
  case outputs_eq => simp [hl, Loop.follow, h.outputs_eq]
  case runLines_eq =>
    rw [List.map_append, List.map_cons, List.map_nil, runLines_concat, h.runLines_eq]
    rw [h.interpreter, hw] at hx ⊢
    simp [Sequence.next?, runLine, hx, Session.presentAll_concat]

theorem complete_done (h : Simulates replies start s n keys actions done) {line : String}
    (hr : s.running = some line) {o : Output}
    (hx : s.interpreter.start line s.session.workspace = .done o) :
    Simulates replies start { s with toLoop := (s.toLoop.complete o).1 } n keys
      (actions ++ (s.toLoop.complete o).2) (done ++ [(line, o)]) := by
  have hc := h.complete hr (o := o) (by simp [Interpreter.execute, hx])
  simpa [Interpreter.prompts, hx] using hc

theorem complete_reply (h : Simulates replies start s n keys actions done) {line : String}
    (hr : s.running = some line) {prompt : Prompt}
    (hx : s.interpreter.start line s.session.workspace = .asks prompt) :
    let o := Task.output prompt (replies n prompt)
    Simulates replies start { s with toLoop := (s.toLoop.complete o).1 } (n + 1) keys
      (actions ++ (s.toLoop.complete o).2) (done ++ [(line, o)]) := by
  intro o
  have hc := h.complete hr (o := o) (by simp [Interpreter.execute, hx, o])
  simpa [Interpreter.prompts, hx] using hc

theorem close (h : Simulates replies start s n keys actions done) :
    Simulates replies start { s with toLoop := s.toLoop.close } n keys actions done :=
  ⟨h.interpreter, h.session, h.queue_eq_nil, h.editor, h.lines, h.outputs_eq, h.runLines_eq⟩

end Simulates

/-! ## Any run -/

/-- **Whatever a shell comes to**, it is where the sequential shell is after some lines. -/
theorem Reach.simulates {replies : Nat → Prompt → Reply} {w : Workspace} {label : String}
    {style : Style} {echo : Bool} {i : Interpreter} {s : Shell} {n : Nat} {keys : List Key}
    {actions : List Action}
    (h : Reach (Exactly replies) (.fresh w label style echo i) s n keys actions)
    (hk : ∀ k ∈ keys, k ≠ .up ∧ k ≠ .down) :
    ∃ done, Simulates replies (.fresh w label style echo i) s n keys actions done := by
  induction h with
  | start => exact ⟨[], .fresh w label style echo i⟩
  | key _ ho k ih =>
    obtain ⟨done, hs⟩ := ih fun k' hk' => hk k' (List.mem_append_left _ hk')
    obtain ⟨hu, hd⟩ := hk k (by simp)
    exact ⟨done, hs.key ho hu hd⟩
  | done _ hr hx ih =>
    obtain ⟨done, hs⟩ := ih hk
    exact ⟨_, hs.complete_done hr hx⟩
  | reply _ hr hx ha ih =>
    obtain ⟨done, hs⟩ := ih hk
    exact ⟨_, ha ▸ hs.complete_reply hr hx⟩
  | close _ ih =>
    obtain ⟨done, hs⟩ := ih hk
    exact ⟨done, hs.close⟩

/-- Where no line runs, the sequential shell has come to the same end. -/
theorem Simulates.sequential_eq {replies : Nat → Prompt → Reply} {start s : Shell} {n : Nat}
    {keys : List Key} {actions : List Action} {done : List (String × Output)}
    (h : Simulates replies start s n keys actions done) (hr : s.running = none) :
    sequential replies start keys = some (outcome s actions) := by
  have hl := h.lines
  rw [hr, h.queue_eq_nil hr, Option.toList_none, List.append_nil, List.append_nil] at hl
  have hw : (start.session.presentAll done).workspace = s.session.workspace := by rw [h.session]
  simp [sequential, ← hl, h.runLines_eq, ← h.editor, outcome, hw, h.outputs_eq]

/-- A run whose lines are complete leads where the sequential shell leads. -/
theorem sequential_of_run {w : Workspace} {label : String} {style : Style} {echo : Bool}
    {i : Interpreter} {replies : Nat → Prompt → Reply} {es : List Event}
    (hk : ∀ k ∈ received es, k ≠ .up ∧ k ≠ .down)
    (ha : Answered (Exactly replies) (.fresh w label style echo i) 0 es)
    (hr : ((fresh w label style echo i).run es).1.running = none) :
    sequential replies (.fresh w label style echo i) (received es) =
      some (outcome ((fresh w label style echo i).run es).1
        ((fresh w label style echo i).run es).2) := by
  obtain ⟨n, h⟩ := exists_reach_run rfl ha
  obtain ⟨done, hs⟩ := h.simulates hk
  simpa [outcome] using hs.sequential_eq hr

/-- **A shell leaves what the sequential shell leaves**, whenever the keys come and the replies are
in, as soon as no line runs. So two runs with the same keys leave the same. -/
theorem sequential_eq_outcome (w : Workspace) (label : String) (style : Style) (echo : Bool)
    (i : Interpreter) (replies : Nat → Prompt → Reply) (es : List Event)
    (hk : ∀ k ∈ received es, k ≠ .up ∧ k ≠ .down)
    (ha : Answered (Exactly replies) (.fresh w label style echo i) 0 es)
    (hr : ((fresh w label style echo i).run es).1.running = none) :
    let start : Shell := .fresh w label style echo i
    sequential replies start (received es) = some (outcome (start.run es).1 (start.run es).2) ∧
      ∀ es', received es' = received es → Answered (Exactly replies) start 0 es' →
        (start.run es').1.running = none →
        outcome (start.run es').1 (start.run es').2 =
          outcome (start.run es).1 (start.run es).2 := by
  intro start
  have hs := sequential_of_run hk ha hr
  refine ⟨hs, fun es' he ha' hr' => ?_⟩
  rw [← he] at hk hs
  exact Option.some.inj ((sequential_of_run hk ha' hr').symm.trans hs)

/-- Two lines are typed before any reply is in, and a third is begun. -/
theorem sequential_eq_outcome_of_typeahead :
    let i : Interpreter :=
      { registry := Registry.empty.register ⟨"a", fun c => .asks ⟨{ name := "A" }, c.line, ""⟩⟩ }
    let start : Shell := .fresh ⟨.empty, "/", "/"⟩ "CUAG" ⟨false⟩ true i
    let replies : Nat → Prompt → Reply := fun n _ => if n = 0 then .ok "x" else .ok "y"
    let es : List Event :=
      [.key (.char 'a'), .key .enter, .key (.char 'a'), .key .enter, .key (.char 'c'),
        .reply (.ok "x"), .reply (.ok "y"), .close]
    (∀ k ∈ received es, k ≠ .up ∧ k ≠ .down) ∧ Answered (Exactly replies) start 0 es ∧
      (start.run es).1.running = none ∧
      sequential replies start (received es) =
        some (outcome (start.run es).1 (start.run es).2) := by
  intro i start replies es
  have hk : ∀ k ∈ received es, k ≠ .up ∧ k ≠ .down := by decide
  have ha : Answered (Exactly replies) start 0 es := by decide +kernel
  have hr : (start.run es).1.running = none := by decide +kernel
  exact ⟨hk, ha, hr, (sequential_eq_outcome _ _ _ _ _ replies es hk ha hr).1⟩

end Shell

end AgentShell
