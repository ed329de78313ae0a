import AgentShell.Proofs.Shell.Account
import AgentShell.Proofs.Shell.Prompts

/-!
# Lines take the time that they take alone

If the clock never jumps over a timer, a reply is looked at when it is due, neither earlier nor
later. So a line takes as long as it would by itself, from the moment in which it begins, and
answers what it would answer by itself: neither the time for which it waited behind other lines nor
what became of these makes a difference.

## Main definitions

* `TimedShell.Heeds`: events under which the clock jumps over no timer
* `TimedShell.log`: the actions of a run, each behind the moment at which it happens
* `Shell.Completed.Punctual`: a line took the time that it takes alone, with the same output
* `TimedShell.Keeps`: the invariant of a shell on a clock and the account of its lines
* `TimedShell.ticks`: the jumps of the clock to all timers that are left

## Main results

* `TimedShell.Keeps.step`, `TimedShell.Keeps.run`: the invariant is kept by a step, and by a run
* `TimedShell.run_ticks`, `TimedShell.Keeps.heeds_ticks`: the timers that are left are such a run
* `TimedShell.Keeps.running_of_wake`: no line is left then
-/

namespace AgentShell

/-! ## Replies in time -/

/-- A reply that is in by itself is not in before that moment. -/
theorem Answer.wake_le_of_inBy {limit : Option Nat} {a : Answer} {ms waited : Nat}
    (h : a.wake? limit = some ms) (hi : (a.inBy limit waited).isSome) : ms ≤ waited := by
  cases a <;> cases limit <;> simp only [wake?, Option.elim_none, Option.elim_some,
    Option.some.injEq, reduceCtorEq] at h <;> subst h <;> simp only [inBy, expired] at hi <;> grind

/-- A generator whose replies all come by themselves. -/
def Generator.IsTimed (g : Generator) : Prop :=
  ∀ p, ∃ delay reply, g p = .after delay reply

theorem Generator.persona_isTimed (delay : Nat) : (persona delay).IsTimed :=
  fun p => ⟨delay, personaReply p, rfl⟩

/-- How long a line runs by itself: no time if it is answered at once, and otherwise until its reply
is in. -/
def Interpreter.duration? (i : Interpreter) (g : Generator) (line : String) (w : Workspace) :
    Option Nat :=
  match i.start line w with
  | .done _ => some 0
  | .asks prompt => (g prompt).wake? i.limit

/-- **A line took the time that it takes by itself**, and has the output that it has by itself, in
some workspace. -/
def Shell.Completed.Punctual (i : Interpreter) (g : Generator) (c : Shell.Completed) : Prop :=
  ∃ w ms, i.duration? g c.line w = some ms ∧ c.ended = c.began + ms ∧
    i.execute g c.line w = some c.output

/-- A key while a line runs changes neither that line nor what it waits for. -/
theorem Shell.typed_of_running {s : Shell} {line : String} (hr : s.running = some line) (k : Key) :
    let t : Shell := { s with toLoop := (s.toLoop.press k).1 }
    t.running = s.running ∧ t.waiting = s.waiting := by
  cases ho : s.isOpen with
  | true => simp [Loop.press_of_running ho hr, waiting, hr]
  | false => simp [Loop.press, ho]

namespace TimedShell

open Shell (Account stamp)

variable {i : Interpreter} {g : Generator} {s : TimedShell} {a : Account} {e : Event}
  {es : List Event}

/-! ## Clocks that do not jump -/

/-- The clock does not jump over a timer. -/
def HeedsEvent (s : TimedShell) : Event → Prop
  | .advance ms => ∀ t ∈ s.wake?, s.now + ms ≤ t
  | .key _ | .cue _ => True

instance (s : TimedShell) : (e : Event) → Decidable (s.HeedsEvent e)
  | .advance ms => inferInstanceAs (Decidable (∀ t ∈ s.wake?, s.now + ms ≤ t))
  | .key _ | .cue _ => inferInstanceAs (Decidable True)

/-- **The clock never jumps over a timer.** -/
def Heeds (s : TimedShell) : List Event → Prop
  | [] => True
  | e :: es => s.HeedsEvent e ∧ (s.step e).1.Heeds es

instance decidableHeeds : (s : TimedShell) → (es : List Event) → Decidable (s.Heeds es)
  | _, [] => inferInstanceAs (Decidable True)
  | s, e :: es =>
    have := decidableHeeds (s.step e).1 es
    inferInstanceAs (Decidable (s.HeedsEvent e ∧ (s.step e).1.Heeds es))

/-- The actions of a run, each behind the moment at which it happens. -/
def log (s : TimedShell) : List Event → List (Nat × Shell.Action)
  | [] => []
  | e :: es => stamp (s.step e).1.now (s.step e).2 ++ (s.step e).1.log es

theorem map_snd_log (s : TimedShell) (es : List Event) :
    (s.log es).map Prod.snd = (s.run es).2 := by
  induction es generalizing s with
  | nil => rfl
  | cons e es ih =>
    rw [log, List.map_append, ih, run]
    simp [stamp, Function.comp_def]

@[simp] theorem settle_now (s : TimedShell) : s.settle.1.now = s.now := by
  fun_induction settle s with
  | case1 s h => rfl
  | case2 s reply cues h t ih => exact ih

/-! ## Every line in time -/

/-- **The invariant of a shell on a clock**, and the account of its lines. -/
structure Keeps (i : Interpreter) (g : Generator) (s : TimedShell) (a : Account) : Prop where
  interpreter_eq : s.shell.interpreter = i
  generator_eq : s.generator = g
  /-- The line that runs began when its prompt was asked. -/
  running_eq : a.running = s.shell.running.map (s.asked, ·)
  running_eq_none : s.shell.waiting = none → s.shell.running = none
  /-- The timer is not over. -/
  due : ∀ t ∈ s.wake?, s.asked ≤ s.now ∧ s.now ≤ t
  punctual : ∀ c ∈ a.completed, c.Punctual i g

namespace Keeps

theorem idle (hi : s.shell.interpreter = i) (hg : s.generator = g) (hr : s.shell.running = none) :
    Keeps i g s {} where
  interpreter_eq := hi
  generator_eq := hg
  running_eq := by rw [hr]; rfl
  running_eq_none _ := hr
  due t ht := by simp [wake?, Shell.waiting, hr] at ht
  punctual c hc := by cases hc

/-- **The lines that are answered at once**, behind a line that begins now. -/
theorem of_settle (hi : s.shell.interpreter = i) (hg : s.generator = g)
    (hr : a.running = s.shell.running.map (s.now, ·)) (hp : ∀ c ∈ a.completed, c.Punctual i g) :
    Keeps i g { s with shell := s.shell.settle.1, asked := s.now }
      (a.addAll (stamp s.now s.shell.settle.2)) := by
  obtain ⟨hrun, hall⟩ := Account.addAll_settle hr
  refine ⟨by simpa using hi, hg, hrun, Shell.running_settle_of_waiting, ?_, fun c hc => ?_⟩
  · intro t ht
    simp only [wake?, Option.mem_def, Option.bind_eq_some_iff, Option.map_eq_some_iff] at ht
    obtain ⟨prompt, -, ms, -, rfl⟩ := ht
    exact ⟨Nat.le_refl _, Nat.le_add_right ..⟩
  · obtain hc | ⟨hb, he, w, hs⟩ := hall c hc
    · exact hp c hc
    · rw [hi] at hs
      exact ⟨w, 0, by rw [Interpreter.duration?, hs], by rw [hb, he, Nat.add_zero],
        by rw [Interpreter.execute, hs]⟩

theorem exists_of_waiting (h : Keeps i g s a) {prompt : Prompt}
    (hw : s.shell.waiting = some prompt) :
    ∃ line, s.shell.running = some line ∧ a.running = some (s.asked, line) ∧
      i.start line s.shell.session.workspace = .asks prompt := by
  obtain ⟨line, hr, hs⟩ := Shell.exists_running_of_waiting hw
  rw [h.interpreter_eq] at hs
  exact ⟨line, hr, by rw [h.running_eq, hr]; rfl, hs⟩

/-- **A reply that is in is due now**: it is the reply that the prompt gets, after the time that it
takes. -/
theorem due_of_ready (h : Keeps i g s a) (hg : g.IsTimed) {reply : Reply} {cues : List Reply}
    (hready : s.ready? = some (reply, cues)) :
    ∃ prompt ms, s.shell.waiting = some prompt ∧ (g prompt).wake? i.limit = some ms ∧
      s.now = s.asked + ms ∧ (g prompt).within i.limit = some reply := by
  simp only [ready?, h.interpreter_eq, h.generator_eq, Option.bind_eq_some_iff] at hready
  obtain ⟨prompt, hw, hready⟩ := hready
  obtain ⟨delay, answer, hp⟩ := hg prompt
  obtain ⟨ms, hms⟩ : ∃ ms, (g prompt).wake? i.limit = some ms := ⟨_, by rw [hp]; rfl⟩
  have hin : (g prompt).inBy i.limit (s.now - s.asked) = some reply := by
    simp only [hp, Option.map_eq_some_iff] at hready
    obtain ⟨r, hr, heq⟩ := hready
    rw [hp, hr, (Prod.mk.inj heq).1]
  have hwake : s.asked + ms ∈ s.wake? := by
    simp [wake?, hw, h.interpreter_eq, h.generator_eq, hms]
  obtain ⟨hasked, hdue⟩ := h.due _ hwake
  have hle : ms ≤ s.now - s.asked := Answer.wake_le_of_inBy hms (by rw [hin]; rfl)
  have hnow : s.now - s.asked = ms := by omega
  refine ⟨prompt, ms, hw, hms, by omega, ?_⟩
  rw [← Answer.inBy_wake hms, ← hnow, hin]

/-- **A reply**: the line that runs is complete, and the next may begin. -/
theorem receive (h : Keeps i g s a) (hg : g.IsTimed) {reply : Reply} {cues : List Reply}
    (hready : s.ready? = some (reply, cues)) :
    Keeps i g (s.receive reply cues) (a.addAll (stamp s.now (s.shell.receive reply).2)) := by
  obtain ⟨prompt, ms, hw, hms, hnow, hwithin⟩ := h.due_of_ready hg hready
  obtain ⟨line, hr, hrun, hs⟩ := h.exists_of_waiting hw
  have hadd := Account.addAll_complete (t := s.now) hrun hr (Task.output prompt reply)
  simp only [TimedShell.receive, Shell.receive, hw, Shell.advance]
  rw [Shell.stamp_append, Account.addAll_append, hadd]
  refine of_settle (s := { s with
      shell := { s.shell with toLoop := (s.shell.toLoop.complete (Task.output prompt reply)).1 }
      cues }) h.interpreter_eq h.generator_eq rfl fun c hc => ?_
  obtain hc | hc := List.mem_append.1 hc
  · exact h.punctual c hc
  · obtain rfl := List.mem_singleton.1 hc
    exact ⟨s.shell.session.workspace, ms, by simp [Interpreter.duration?, hs, hms], hnow,
      by simp [Interpreter.execute, hs, hwithin]⟩

theorem settle (h : Keeps i g s a) (hg : g.IsTimed) :
    Keeps i g s.settle.1 (a.addAll (stamp s.now s.settle.2)) := by
  -- Induction on the replies: the clock stands still, and each is in the account of the next.
  fun_induction TimedShell.settle s generalizing a with
  | case1 s hready => exact h
  | case2 s reply cues hready t =>
    rename_i ih
    rw [Shell.stamp_append, Account.addAll_append]
    exact ih (h.receive hg hready)

/-- A key while no line runs. The line that it submits begins now. -/
theorem press_idle (h : Keeps i g s a) (hg : g.IsTimed) (hr : s.shell.running = none) (k : Key) :
    Keeps i g (s.press k).1 (a.addAll (stamp s.now (s.press k).2)) := by
  have hw : s.shell.waiting = none := by rw [Shell.waiting, hr]; rfl
  have hadd := Account.addAll_press (t := s.now) (by rw [h.running_eq, hr]; rfl) hr k
  have hkey := of_settle
    (s := { s with shell := { s.shell with toLoop := (s.shell.toLoop.press k).1 } })
    (a := a.addAll (stamp s.now (s.shell.toLoop.press k).2))
    h.interpreter_eq h.generator_eq (by rw [hadd]) (by rw [hadd]; exact h.punctual)
  rw [← Account.addAll_append, ← Shell.stamp_append] at hkey
  have hlast := hkey.settle hg
  rw [← Account.addAll_append, ← Shell.stamp_append] at hlast
  simpa only [TimedShell.press, Shell.press, Shell.advance, hr, hw, Option.isSome_none,
    Bool.false_eq_true, if_false] using hlast

/-- A key while a line runs. The line that it submits waits. -/
theorem press_busy (h : Keeps i g s a) (hg : g.IsTimed) {line : String}
    (hr : s.shell.running = some line) (k : Key) :
    Keeps i g (s.press k).1 (a.addAll (stamp s.now (s.press k).2)) := by
  obtain ⟨prompt, hw⟩ : ∃ prompt, s.shell.waiting = some prompt :=
    Option.ne_none_iff_exists'.1 fun hn => by simp [h.running_eq_none hn] at hr
  obtain ⟨hrun, hwait⟩ := Shell.typed_of_running hr k
  have hkey : Keeps i g { s with
      shell := { s.shell with toLoop := (s.shell.toLoop.press k).1 } } a := by
    refine ⟨h.interpreter_eq, h.generator_eq, ?_, ?_, ?_, h.punctual⟩
    · exact h.running_eq.trans (by rw [hrun])
    · rw [hrun, hwait]
      exact h.running_eq_none
    · simp only [wake?, hwait]
      exact h.due
  simpa [TimedShell.press, Shell.press, hr, hw] using hkey.settle hg

/-- **A key.** -/
theorem press (h : Keeps i g s a) (hg : g.IsTimed) (k : Key) :
    Keeps i g (s.press k).1 (a.addAll (stamp s.now (s.press k).2)) := by
  cases hr : s.shell.running with
  | none => exact h.press_idle hg hr k
  | some line => exact h.press_busy hg hr k

/-- **One event** under which the clock does not jump over a timer. -/
theorem step (h : Keeps i g s a) (hg : g.IsTimed) (he : s.HeedsEvent e) :
    Keeps i g (s.step e).1 (a.addAll (stamp (s.step e).1.now (s.step e).2)) := by
  cases e with
  | key k => simpa [TimedShell.step, TimedShell.press] using h.press hg k
  | cue r =>
    have hcue : Keeps i g { s with cues := s.cues ++ [r] } a :=
      ⟨h.interpreter_eq, h.generator_eq, h.running_eq, h.running_eq_none, h.due, h.punctual⟩
    simpa [TimedShell.step] using hcue.settle hg
  | advance ms =>
    have hlater : Keeps i g { s with now := s.now + ms } a :=
      ⟨h.interpreter_eq, h.generator_eq, h.running_eq, h.running_eq_none,
        fun t ht => ⟨Nat.le_add_right_of_le (h.due t ht).1, he t ht⟩, h.punctual⟩
    simpa [TimedShell.step] using hlater.settle hg

/-- **A run** under which the clock never jumps over a timer. -/
theorem run (h : Keeps i g s a) (hg : g.IsTimed) (hes : s.Heeds es) :
    Keeps i g (s.run es).1 (a.addAll (s.log es)) := by
  induction es generalizing s a with
  | nil => exact h
  | cons e es ih =>
    obtain ⟨he, hes⟩ := hes
    rw [log, Account.addAll_append]
    exact ih (h.step hg he) hes

end Keeps

/-! ## The timers that are left -/

theorem run_append (s : TimedShell) (es es' : List Event) :
    s.run (es ++ es') = (((s.run es).1.run es').1, (s.run es).2 ++ ((s.run es).1.run es').2) := by
  induction es generalizing s with
  | nil => rfl
  | cons e es ih => simp [TimedShell.run, ih, List.append_assoc]

theorem heeds_append {es' : List Event} :
    s.Heeds (es ++ es') ↔ s.Heeds es ∧ (s.run es).1.Heeds es' := by
  induction es generalizing s with
  | nil => simp [Heeds, TimedShell.run]
  | cons e es ih => simp only [List.cons_append, Heeds, ih, TimedShell.run, and_assoc]

/-- **The jumps of the clock** from each timer to the next, until none is left. -/
def ticks (s : TimedShell) : List Event :=
  match _h : s.wake? with
  | none => []
  | some t => .advance (t - s.now) :: (s.step (.advance (t - s.now))).1.ticks
termination_by s.shell.outstanding
decreasing_by
  exact outstanding_settle_lt (isSome_ready? (s := { s with now := s.now + (t - s.now) }) _h
    (by show t ≤ s.now + (t - s.now); omega))

/-- **The timers that are left** are a run of jumps. -/
theorem run_ticks (s : TimedShell) : s.run s.ticks = s.drain := by
  fun_induction ticks s with
  | case1 s h =>
    rw [drain]
    split
    · rfl
    · simp_all
  | case2 s t h ih =>
    rw [drain]
    split
    · simp_all
    · rename_i t' h'
      obtain rfl : t = t' := Option.some.inj (h.symm.trans h')
      have hmax : max s.now t = s.now + (t - s.now) := by omega
      simp only [TimedShell.run, ih, hmax]
      rfl

theorem wake?_drain (s : TimedShell) : s.drain.1.wake? = none := by
  fun_induction drain s with
  | case1 s h => exact h
  | case2 s t h r last ih => exact ih

namespace Keeps

/-- The jumps to the timers that are left jump over none of them. -/
theorem heeds_ticks (h : Keeps i g s a) (hg : g.IsTimed) : s.Heeds s.ticks := by
  fun_induction ticks s generalizing a with
  | case1 s hn => trivial
  | case2 s t ht =>
    rename_i ih
    have he : s.HeedsEvent (.advance (t - s.now)) := by
      intro t' ht'
      obtain rfl : t = t' := Option.some.inj (ht.symm.trans ht')
      have := (h.due t ht).2
      omega
    exact ⟨he, ih (h.step hg he)⟩

theorem running_of_wake (h : Keeps i g s a) (hg : g.IsTimed) (hn : s.wake? = none) :
    s.shell.running = none := by
  refine h.running_eq_none (Option.eq_none_iff_forall_ne_some.2 fun prompt hw => ?_)
  obtain ⟨delay, reply, hp⟩ := hg prompt
  simp [wake?, hw, h.generator_eq, hp, Answer.wake?] at hn

end Keeps

end TimedShell

end AgentShell
