import AgentShell.Interpreter
import AgentShell.Session

/-!
# Loops

A loop takes the keys of a session from a channel and lets one line run at a time. What a line does
is not its concern: it is told when the line that runs is complete, and with which output. A line
that the session hands out begins at once. While it runs, keys go to the editor unseen, and lines
submitted meanwhile wait there. The loop ends when no key can come any more and no line runs.

## Main definitions

* `Shell.Action`: what a loop and the shell around it do
* `Shell.calls`, `Shell.prompts`, `Shell.launched`, `Shell.outputs`: the actions of one kind
* `Loop`: a session, the line that runs, and whether keys may still come
* `Loop.press`, `Loop.complete`, `Loop.close`: a key, the output of the line that runs, the end of
  the keys
* `Loop.Event`, `Loop.keys`, `Loop.run`: what moves a loop, the keys in it, and events in turn

## Main results

* `Loop.run_append`: a run goes on from where it was
* `Loop.press_of_idle`, `Loop.press_of_running`, `Loop.complete_of_running`: keys and outputs, by
  whether a line runs
* `Loop.outstanding_complete_lt`: an output leaves one line less
-/

namespace AgentShell

/-- What a shell does. -/
inductive Shell.Action where
  /-- A call to the display. -/
  | draw (call : DisplayCall)
  /-- A line begins to run. -/
  | launch (line : String)
  /-- A prompt is put to the generator. -/
  | ask (prompt : Prompt)
  /-- The line that runs is complete. -/
  | complete (output : Output)
deriving DecidableEq, Repr

namespace Shell

/-- The calls among actions. -/
def calls (actions : List Action) : List DisplayCall :=
  actions.filterMap fun
    | .draw call => some call
    | _ => none

/-- The prompts among actions. -/
def prompts (actions : List Action) : List Prompt :=
  actions.filterMap fun
    | .ask prompt => some prompt
    | _ => none

/-- The lines that begin among actions. -/
def launched (actions : List Action) : List String :=
  actions.filterMap fun
    | .launch line => some line
    | _ => none

/-- The outputs among actions. -/
def outputs (actions : List Action) : List Output :=
  actions.filterMap fun
    | .complete output => some output
    | _ => none

end Shell

/-- A session, the line that runs, and whether keys may still come. -/
structure Loop where
  session : Session
  /-- The line that was handed out and is not complete. -/
  running : Option String := none
  /-- The channel of the keys is open. -/
  isOpen : Bool := true

namespace Loop

/-- What moves a loop. -/
inductive Event where
  | key (k : Key)
  /-- The line that runs is complete. -/
  | output (o : Output)
  /-- The channel of the keys closes. -/
  | close

/-- The keys among events. -/
def keys (es : List Event) : List Key :=
  es.filterMap fun
    | .key k => some k
    | _ => none

@[simp] theorem keys_append (es es' : List Event) : keys (es ++ es') = keys es ++ keys es' :=
  List.filterMap_append

@[simp] theorem keys_nil : keys [] = [] := rfl

@[simp] theorem keys_key (k : Key) (es : List Event) : keys (.key k :: es) = k :: keys es := rfl

@[simp] theorem keys_output (o : Output) (es : List Event) :
    keys (.output o :: es) = keys es := rfl

@[simp] theorem keys_close (es : List Event) : keys (.close :: es) = keys es := rfl

/-- The lines that are not complete: the one that runs and those that wait. -/
def outstanding (l : Loop) : Nat :=
  l.session.editor.queue.length + if l.running.isSome then 1 else 0

/-- No key can come any more, and no line runs. -/
def ended (l : Loop) : Bool :=
  !l.isOpen && l.running.isNone

/-- What a reaction of the session leads to: its calls are drawn, and the line that it hands out
begins to run. -/
def follow (l : Loop) (r : Session.Reaction) : Loop × List Shell.Action :=
  ({ l with session := r.session, running := r.dispatch },
    r.calls.map .draw ++ r.dispatch.toList.map .launch)

/-- **A key.** While a line runs it goes to the editor; a closed channel brings none. -/
def press (l : Loop) (k : Key) : Loop × List Shell.Action :=
  if l.isOpen then
    match l.running with
    | none => l.follow (l.session.press k)
    | some _ =>
      ({ l with session := { l.session with editor := (l.session.editor.pressBusy k).1 } }, [])
  else (l, [])

/-- **The output of the line that runs.** Without such a line there is none. -/
def complete (l : Loop) (o : Output) : Loop × List Shell.Action :=
  match l.running with
  | none => (l, [])
  | some _ =>
    let t := l.follow (l.session.finish o)
    (t.1, .complete o :: t.2)

/-- The end of the keys. A line that runs is not disturbed. -/
def close (l : Loop) : Loop :=
  { l with isOpen := false }

/-- One event. -/
def step (l : Loop) : Event → Loop × List Shell.Action
  | .key k => l.press k
  | .output o => l.complete o
  | .close => (l.close, [])

/-- Events in turn. -/
def run (l : Loop) : List Event → Loop × List Shell.Action
  | [] => (l, [])
  | e :: es =>
    let t := l.step e
    let last := t.1.run es
    (last.1, t.2 ++ last.2)

/-- A run goes on from where it was. -/
theorem run_append (l : Loop) (es es' : List Event) :
    l.run (es ++ es') = (((l.run es).1.run es').1, (l.run es).2 ++ ((l.run es).1.run es').2) := by
  induction es generalizing l with
  | nil => rfl
  | cons e es ih => simp [run, ih, List.append_assoc]

/-- One event more. -/
theorem run_concat (l : Loop) (es : List Event) (e : Event) :
    l.run (es ++ [e]) = (((l.run es).1.step e).1, (l.run es).2 ++ ((l.run es).1.step e).2) := by
  simp [run_append, run]

/-- A key while no line runs reaches the session. -/
theorem press_of_idle {l : Loop} (ho : l.isOpen = true) (hr : l.running = none) (k : Key) :
    l.press k = l.follow (l.session.press k) := by
  simp [press, ho, hr]

/-- A key while a line runs reaches the editor only. -/
theorem press_of_running {l : Loop} (ho : l.isOpen = true) {line : String}
    (hr : l.running = some line) (k : Key) :
    l.press k =
      ({ l with session := { l.session with editor := (l.session.editor.pressBusy k).1 } },
        []) := by
  simp [press, ho, hr]

/-- The output of the line that runs reaches the session. -/
theorem complete_of_running {l : Loop} {line : String} (hr : l.running = some line) (o : Output) :
    l.complete o =
      ((l.follow (l.session.finish o)).1, .complete o :: (l.follow (l.session.finish o)).2) := by
  simp [complete, hr]

/-- **An output leaves one line less**: the oldest that waits begins, if there is one. -/
theorem outstanding_complete_lt {l : Loop} {line : String} (hr : l.running = some line)
    (o : Output) : (l.complete o).1.outstanding < l.outstanding := by
  rw [complete_of_running hr]
  cases hq : l.session.editor.queue <;>
    simp [follow, outstanding, Session.finish_session, Session.finish_dispatch, hq, hr]

end Loop

end AgentShell
