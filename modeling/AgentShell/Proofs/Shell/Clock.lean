import AgentShell.Shell.Timed

/-!
# What a clock does to a shell

A generator and a clock decide which reply is in, and when. All else is done by the shell: whatever
happens on a clock is a run of the shell under some keys and replies. So what holds of every run of
a shell holds of every run on a clock.

## Main results

* `Shell.run_append`: a run goes on from where it was
* `TimedShell.exists_run_eq`, `TimedShell.exists_drain_eq`: a run on a clock is a run
-/

namespace AgentShell

theorem Shell.run_append (s : Shell) (es es' : List Event) :
    s.run (es ++ es') = (((s.run es).1.run es').1, (s.run es).2 ++ ((s.run es).1.run es').2) := by
  induction es generalizing s with
  | nil => rfl
  | cons e es ih => simp [run, ih, List.append_assoc]

namespace TimedShell

/-- The replies that are in are given one after another. -/
theorem exists_settle_eq (s : TimedShell) :
    ∃ es, s.shell.run es = (s.settle.1.shell, s.settle.2) := by
  fun_induction settle s with
  | case1 s h => exact ⟨[], rfl⟩
  | case2 s reply cues h t ih =>
    obtain ⟨es, hes⟩ := ih
    refine ⟨.reply reply :: es, ?_⟩
    rw [show (s.receive reply cues).shell = (s.shell.receive reply).1 from rfl] at hes
    simp only [Shell.run, Shell.step, hes]
    rfl

/-- **One event on a clock** is a run of the shell. -/
theorem exists_step_eq (s : TimedShell) (e : Event) :
    ∃ es, s.shell.run es = ((s.step e).1.shell, (s.step e).2) := by
  cases e with
  | key k =>
    obtain ⟨es, hes⟩ := exists_settle_eq { s with
      shell := (s.shell.press k).1
      asked := if s.shell.waiting.isSome then s.asked else s.now }
    refine ⟨.key k :: es, ?_⟩
    simp only [Shell.run, Shell.step, hes]
    rfl
  | cue reply => exact exists_settle_eq { s with cues := s.cues ++ [reply] }
  | advance ms => exact exists_settle_eq { s with now := s.now + ms }

/-- **A run on a clock** is a run of the shell. -/
theorem exists_run_eq (s : TimedShell) (es : List Event) :
    ∃ es', s.shell.run es' = ((s.run es).1.shell, (s.run es).2) := by
  induction es generalizing s with
  | nil => exact ⟨[], rfl⟩
  | cons e es ih =>
    obtain ⟨first, hf⟩ := s.exists_step_eq e
    obtain ⟨rest, hr⟩ := ih (s.step e).1
    refine ⟨first ++ rest, ?_⟩
    rw [Shell.run_append, hf, hr]
    rfl

theorem exists_drain_eq (s : TimedShell) :
    ∃ es, s.shell.run es = (s.drain.1.shell, s.drain.2) := by
  fun_induction drain s with
  | case1 s h => exact ⟨[], rfl⟩
  | case2 s t h r last ih =>
    obtain ⟨first, hf⟩ := exists_settle_eq { s with now := max s.now t }
    obtain ⟨rest, hr⟩ := ih
    refine ⟨first ++ rest, ?_⟩
    rw [show s.shell = { s with now := max s.now t }.shell from rfl, Shell.run_append, hf, hr]

end TimedShell

end AgentShell
