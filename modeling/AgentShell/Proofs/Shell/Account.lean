import AgentShell.Proofs.Loop.Trace
import AgentShell.Shell.Basic

/-!
# An account of the lines

From the actions of a shell and the moments at which they happen follows when each line began, when
it was complete, and with which output. Lines that are answered at once are complete in the moment
in which they begin.

## Main definitions

* `Shell.Completed`: a line with its output and its times
* `Shell.Account`: the lines that are complete, and the line that runs
* `Shell.stamp`: actions of one moment
* `Shell.Account.addAll`: the account with the actions of a log

## Main results

* `Account.of_inFlight`: an account has the lines and outputs of the actions that it was made from
* `Account.addAll_press`, `Account.addAll_complete`: a key, and an output
* `Account.addAll_settle`: the lines that are answered at once
-/

namespace AgentShell.Shell

/-! ## Lines and their moments -/

/-- A line that is complete, with its output and the moments at which it began and ended. -/
structure Completed where
  line : String
  began : Nat
  ended : Nat
  output : Output
deriving DecidableEq, Repr

/-- The lines of a run so far. -/
structure Account where
  /-- The lines that are complete, oldest first. -/
  completed : List Completed := []
  /-- The line that runs, behind the moment at which it began. -/
  running : Option (Nat × String) := none
deriving DecidableEq, Repr

/-- Actions of one moment. -/
def stamp (t : Nat) (actions : List Action) : List (Nat × Action) :=
  actions.map (t, ·)

@[simp] theorem stamp_append (t : Nat) (as bs : List Action) :
    stamp t (as ++ bs) = stamp t as ++ stamp t bs :=
  List.map_append

namespace Account

/-- The account with one action more. -/
def add (a : Account) : Nat × Action → Account
  | (t, .launch line) => { a with running := some (t, line) }
  | (t, .complete o) =>
    match a.running with
    | some (began, line) => { completed := a.completed ++ [⟨line, began, t, o⟩] }
    | none => a
  | (_, .draw _) | (_, .ask _) => a

/-- **The account with the actions of a log.** -/
def addAll (a : Account) (log : List (Nat × Action)) : Account :=
  log.foldl add a

/-- The lines that have begun, in order. -/
def lines (a : Account) : List String :=
  a.completed.map Completed.line ++ (a.running.map Prod.snd).toList

variable {a : Account} {began t : Nat} {line : String} {s : Shell}

@[simp] theorem addAll_append (a : Account) (log log' : List (Nat × Action)) :
    a.addAll (log ++ log') = (a.addAll log).addAll log' :=
  List.foldl_append

@[simp] theorem addAll_nil (a : Account) : a.addAll [] = a := rfl

/-- **An account has the lines and the outputs of the actions** that it was made from, if these
launch and complete in turn. -/
theorem of_inFlight {log : List (Nat × Action)} {r : Option String}
    (h : inFlight? (a.running.map Prod.snd) (log.map Prod.snd) = some r) :
    (a.addAll log).running.map Prod.snd = r ∧
      (a.addAll log).lines = a.lines ++ launched (log.map Prod.snd) ∧
      (a.addAll log).completed.map Completed.output =
        a.completed.map Completed.output ++ outputs (log.map Prod.snd) := by
  -- Induction on the log, from any account in front of it.
  induction log generalizing a with
  | nil => exact ⟨Option.some.inj h, by simp, by simp [outputs]⟩
  | cons e log ih =>
    obtain ⟨t, action⟩ := e
    cases action with
    | draw | ask => exact ih h
    | launch line =>
      cases hr : a.running with
      | some _ => simp [inFlight?, hr] at h
      | none =>
        obtain ⟨hn, hl, ho⟩ :=
          ih (a := a.add (t, .launch line)) (by simpa [inFlight?, add, hr] using h)
        refine ⟨hn, ?_, ho⟩
        simpa [addAll, add, lines, hr] using hl
    | complete o =>
      cases hr : a.running with
      | none => simp [inFlight?, hr] at h
      | some b =>
        obtain ⟨hn, hl, ho⟩ :=
          ih (a := a.add (t, .complete o)) (by simpa [inFlight?, add, hr] using h)
        refine ⟨hn, ?_, ?_⟩
        · simpa [addAll, add, lines, hr] using hl
        · simpa [addAll, add, hr] using ho

/-! ## What the parts of a shell add to an account -/

@[simp] theorem addAll_draws (a : Account) (t : Nat) (calls : List DisplayCall) :
    a.addAll (stamp t (calls.map .draw)) = a := by
  induction calls with
  | nil => rfl
  | cons c calls ih => exact ih

/-- What a reaction leads to, while no line runs: the line that it hands out begins. -/
theorem addAll_follow (h : a.running = none) (l : Loop) (r : Session.Reaction) :
    a.addAll (stamp t (l.follow r).2) =
      { a with running := (l.follow r).1.running.map (t, ·) } := by
  rw [Loop.follow, stamp_append, addAll_append, addAll_draws]
  cases hd : r.dispatch with
  | none => simp [stamp, ← h]
  | some line => simp [stamp, addAll, add]

/-- **A key** while no line runs. -/
theorem addAll_press {l : Loop} (h : a.running = none) (hr : l.running = none) (k : Key) :
    a.addAll (stamp t (l.press k).2) = { a with running := (l.press k).1.running.map (t, ·) } := by
  cases ho : l.isOpen with
  | true =>
    rw [Loop.press_of_idle ho hr]
    exact addAll_follow h l _
  | false => simp [Loop.press, ho, hr, stamp, ← h]

/-- **An output**: the line that runs is complete, and the next may begin. -/
theorem addAll_complete {l : Loop} (h : a.running = some (began, line))
    (hr : l.running = some line) (o : Output) :
    a.addAll (stamp t (l.complete o).2) =
      { completed := a.completed ++ [⟨line, began, t, o⟩]
        running := (l.complete o).1.running.map (t, ·) } := by
  rw [Loop.complete_of_running hr]
  have hadd : a.add (t, .complete o) = { completed := a.completed ++ [⟨line, began, t, o⟩] } := by
    simp [add, h]
  show (a.add (t, .complete o)).addAll (stamp t (l.follow (l.session.finish o)).2) = _
  rw [hadd, addAll_follow rfl]

/-- The line began in the moment in which it ended, and was answered at once. -/
def AtOnce (i : Interpreter) (t : Nat) (c : Completed) : Prop :=
  c.began = t ∧ c.ended = t ∧ ∃ w, i.start c.line w = .done c.output

/-- **The lines that are answered at once**, behind a line that begins now. -/
theorem addAll_settle (h : a.running = s.running.map (t, ·)) :
    (a.addAll (stamp t s.settle.2)).running = s.settle.1.running.map (t, ·) ∧
      ∀ c ∈ (a.addAll (stamp t s.settle.2)).completed,
        c ∈ a.completed ∨ AtOnce s.interpreter t c := by
  -- Induction on the lines that are answered at once. Each is in the account of the next.
  fun_induction settle s generalizing a with
  | case1 s hr => exact ⟨h, fun c hc => .inl hc⟩
  | case2 s line hr prompt hs => exact ⟨h, fun c hc => .inl hc⟩
  | case3 s line hr output hs r last =>
    rename_i ih
    rw [hr] at h
    have hadd := addAll_complete (t := t) h hr output
    obtain ⟨hrun, hall⟩ := ih (a := a.addAll (stamp t r.2)) (by rw [hadd])
    rw [stamp_append, addAll_append]
    refine ⟨hrun, fun c hc => ?_⟩
    obtain hc | hc := hall c hc
    · rw [hadd] at hc
      obtain hc | hc := List.mem_append.1 hc
      · exact .inl hc
      · obtain rfl := List.mem_singleton.1 hc
        exact .inr ⟨rfl, rfl, s.session.workspace, hs⟩
    · exact .inr hc

end Account

end AgentShell.Shell
