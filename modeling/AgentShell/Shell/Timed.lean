import AgentShell.Shell.Basic

/-!
# Shells on a clock

A generator and a clock decide when the reply to a prompt is in. The clock stands still while the
shell runs and moves only when it is told to. After every event the shell goes on until no reply is
in: a task that begins then is measured from that moment, however long its line waited.

## Main definitions

* `TimedShell`: a shell, a generator and a clock
* `TimedShell.ready?`: the reply that is in
* `TimedShell.settle`: the shell after all replies that are in
* `TimedShell.step`: one event
* `TimedShell.drain`: the shell after all timers
-/

namespace AgentShell

/-- A shell, a generator and a clock in milliseconds. -/
structure TimedShell where
  shell : Shell
  generator : Generator
  now : Nat := 0
  /-- When the prompt that is awaited was put to the generator. -/
  asked : Nat := 0
  /-- Replies given from outside that no prompt has taken yet, oldest first. -/
  cues : List Reply := []

namespace TimedShell

/-- What moves a shell on a clock. -/
inductive Event where
  | key (k : Key)
  /-- A reply from outside to the oldest prompt that has none. -/
  | cue (r : Reply)
  /-- The clock jumps ahead. -/
  | advance (milliseconds : Nat)

/-- **The reply that is in**, and the replies from outside that are left then. The generator comes
before the limit. -/
def ready? (s : TimedShell) : Option (Reply × List Reply) :=
  s.shell.waiting.bind fun prompt =>
    match s.generator prompt, s.cues with
    | .onCue, cue :: cues => some (cue, cues)
    | answer, cues =>
      (answer.inBy s.shell.interpreter.limit (s.now - s.asked)).map fun reply => (reply, cues)

/-- The shell after a reply. What it asks next is measured from now. -/
def receive (s : TimedShell) (reply : Reply) (cues : List Reply) : TimedShell :=
  { s with shell := (s.shell.receive reply).1, asked := s.now, cues }

/-- A reply that is in leaves one line less. -/
theorem outstanding_receive_lt {s : TimedShell} {reply : Reply} {cues : List Reply}
    (h : s.ready? = some (reply, cues)) :
    (s.receive reply cues).shell.outstanding < s.shell.outstanding := by
  cases hw : s.shell.waiting with
  | none => simp [ready?, hw] at h
  | some prompt => exact Shell.outstanding_receive_lt hw reply

/-- **The shell after all replies that are in.** -/
def settle (s : TimedShell) : TimedShell × List Shell.Action :=
  match _h : s.ready? with
  | none => (s, [])
  | some (reply, cues) =>
    let t := (s.receive reply cues).settle
    (t.1, (s.shell.receive reply).2 ++ t.2)
termination_by s.shell.outstanding
decreasing_by exact outstanding_receive_lt _h

/-- A key. A prompt that it puts to the generator is measured from now. -/
def press (s : TimedShell) (k : Key) : TimedShell × List Shell.Action :=
  let r := s.shell.press k
  let asked := if s.shell.waiting.isSome then s.asked else s.now
  let t := { s with shell := r.1, asked }.settle
  (t.1, r.2 ++ t.2)

/-- **One event**, and all that follows from it without another. -/
def step (s : TimedShell) : Event → TimedShell × List Shell.Action
  | .key k => s.press k
  | .cue reply => { s with cues := s.cues ++ [reply] }.settle
  | .advance ms => { s with now := s.now + ms }.settle

/-- Events in turn. -/
def run (s : TimedShell) : List Event → TimedShell × List Shell.Action
  | [] => (s, [])
  | e :: es =>
    let t := s.step e
    let last := t.1.run es
    (last.1, t.2 ++ last.2)

/-- The moment at which a reply is in by itself. -/
def wake? (s : TimedShell) : Option Nat :=
  s.shell.waiting.bind fun prompt =>
    ((s.generator prompt).wake? s.shell.interpreter.limit).map (s.asked + ·)

/-- Settling leaves no more lines than before. -/
theorem outstanding_settle_le (s : TimedShell) :
    s.settle.1.shell.outstanding ≤ s.shell.outstanding := by
  fun_induction settle s with
  | case1 s h => exact Nat.le_refl _
  | case2 s reply cues h t ih =>
    exact Nat.le_trans ih (Nat.le_of_lt (outstanding_receive_lt h))

/-- Settling with a reply that is in leaves fewer lines than before. -/
theorem outstanding_settle_lt {s : TimedShell} (h : s.ready?.isSome) :
    s.settle.1.shell.outstanding < s.shell.outstanding := by
  obtain ⟨⟨reply, cues⟩, hr⟩ := Option.isSome_iff_exists.1 h
  rw [settle]
  split
  · simp_all
  · rename_i reply' cues' hr'
    exact Nat.lt_of_le_of_lt (outstanding_settle_le _) (outstanding_receive_lt hr')

/-- A reply is in from the moment at which it is in by itself. -/
theorem isSome_ready? {s : TimedShell} {t : Nat} (h : s.wake? = some t) (ht : t ≤ s.now) :
    s.ready?.isSome := by
  simp only [wake?, Option.bind_eq_some_iff, Option.map_eq_some_iff] at h
  obtain ⟨prompt, hw, ms, hms, rfl⟩ := h
  have := Answer.isSome_inBy hms (show ms ≤ s.now - s.asked by omega)
  simp only [ready?, hw, Option.bind_some]
  split <;> simp_all

/-- **The shell after all timers.** The clock jumps from each to the next, until the shell waits
for nothing or for a reply that does not come by itself. -/
def drain (s : TimedShell) : TimedShell × List Shell.Action :=
  match _h : s.wake? with
  | none => (s, [])
  | some t =>
    let r := { s with now := max s.now t }.settle
    let last := r.1.drain
    (last.1, r.2 ++ last.2)
termination_by s.shell.outstanding
decreasing_by
  exact outstanding_settle_lt
    (isSome_ready? (s := { s with now := max s.now t }) _h (Nat.le_max_right s.now t))

end TimedShell

end AgentShell
