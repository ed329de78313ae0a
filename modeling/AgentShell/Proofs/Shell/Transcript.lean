import AgentShell.Proofs.Session.Canvas
import AgentShell.Proofs.Shell.Sequential

/-!
# The transcript of a run

What a shell with echo shows does not tell when the keys came. A line that was typed while another
ran is drawn behind the next prompt, as if it had been typed there, and so is what is left of a line
in the end. So typing ahead leaves the same screen as waiting for each output. Left out are recall,
which rests while a line runs, and Enter on a blank line, which prompts again only where no line
runs.

## Main definitions

* `Shell.Plain`: keys without recall, control characters and blank lines
* `Shell.Patient`, `Shell.patient`: a run in which each output is in before the next key comes
* `Session.transcript`: lines in front of their outputs, each behind a prompt
* `Shell.Shows`: the screen shows the transcript and the line behind it

## Main results

* `Shell.Shows.key`, `Shell.Shows.complete`: a key and an output keep the screen in order
* `Shell.Reach.shows`: the screen is in order in whatever a shell comes to
* `Shell.patient_patient`: the patient run is one
* `Shell.shown_eq_patient`: a run shows what the patient run shows
-/

namespace AgentShell

/-! ## Keys and the transcript that they lead to -/

namespace Editor

/-- No Enter among the keys meets a blank line. -/
def NoBlankEnter (e : Editor) : List Key → Prop
  | [] => True
  | k :: keys =>
    (k = .enter → Text.isBlankText e.buffer = false) ∧ NoBlankEnter (e.edit k).1 keys

instance noBlankEnterDecidable (e : Editor) : (keys : List Key) → Decidable (e.NoBlankEnter keys)
  | [] => inferInstanceAs (Decidable True)
  | k :: keys =>
    have := noBlankEnterDecidable (e.edit k).1 keys
    inferInstanceAs (Decidable ((k = .enter → _) ∧ _))

theorem noBlankEnter_concat (e : Editor) (keys : List Key) (k : Key) :
    e.NoBlankEnter (keys ++ [k]) ↔ e.NoBlankEnter keys ∧
      (k = .enter → Text.isBlankText (e.editAll keys).1.buffer = false) := by
  induction keys generalizing e with
  | nil => simp [NoBlankEnter, editAll]
  | cons k' keys ih => simp [NoBlankEnter, editAll, ih, and_assoc]

end Editor

namespace Session

/-- **The transcript of lines**: each in front of the calls that draw its output, and the next
prompt behind. -/
def transcript (s : Session) : List (String × Output) → List DisplayCall
  | [] => []
  | d :: done =>
    let drawn := s.present d.2
    .line d.1 :: (drawn.2 ++ drawn.1.prompt :: drawn.1.transcript done)

theorem transcript_concat (s : Session) (done : List (String × Output)) (d : String × Output) :
    s.transcript (done ++ [d]) = s.transcript done ++ .line d.1 ::
      (((s.presentAll done).present d.2).2 ++ [((s.presentAll done).present d.2).1.prompt]) := by
  induction done generalizing s with
  | nil => rfl
  | cons d' done ih =>
    have hp : s.presentAll (d' :: done) = (s.present d'.2).1.presentAll done := rfl
    simp [transcript, ih, hp]

end Session

namespace Shell

/-! ## What a run shows, and patient runs -/

/-- Keys without recall and control characters, of which no Enter meets a blank line. -/
structure Plain (keys : List Key) : Prop where
  edits : ∀ k ∈ keys, k ≠ .up ∧ k ≠ .down
  printable : ∀ k ∈ keys, k.Printable
  nonblank : ({} : Editor).NoBlankEnter keys

theorem Plain.of_concat {keys : List Key} {k : Key} (h : Plain (keys ++ [k])) : Plain keys where
  edits k' hk := h.edits k' (List.mem_append_left _ hk)
  printable k' hk := h.printable k' (List.mem_append_left _ hk)
  nonblank := ((Editor.noBlankEnter_concat ..).1 h.nonblank).1

/-- What a run shows on a screen, from the banner on. -/
def shown (screen : Screen) (s : Shell) (es : List Event) : Screen :=
  screen.drawAll (calls (s.opening ++ (s.run es).2))

/-- **A run in which each output is in before the next key comes**, and before the end. -/
def Patient : Shell → List Event → Prop
  | s, [] => s.running = none
  | s, .key k :: es => s.running = none ∧ Patient (s.press k).1 es
  | s, .reply r :: es => Patient (s.receive r).1 es
  | s, .close :: es => Patient { s with toLoop := s.toLoop.close } es

/-- **The keys of a patient user**: where a key leads to a prompt, the reply comes before the next
key. -/
def patient (replies : Nat → Prompt → Reply) (s : Shell) (n : Nat) : List Key → List Event
  | [] => []
  | k :: keys =>
    let t := (s.press k).1
    match t.waiting with
    | none => .key k :: patient replies t n keys
    | some prompt =>
      .key k :: .reply (replies n prompt) ::
        patient replies (t.receive (replies n prompt)).1 (n + 1) keys

/-- **The screen shows the transcript** of the lines that are complete, and behind it the typed
line, or the line that runs. -/
structure Shows (screen : Screen) (start s : Shell) (actions : List Action)
    (done : List (String × Output)) : Prop where
  echo : s.session.echo = true
  printable : s.session.editor.Printable
  typed : s.running = none → screen.drawAll (calls (start.opening ++ actions)) =
    ⟨(screen.drawAll (start.session.start ++ start.session.transcript done)).text ++
      s.session.editor.buffer⟩
  running : ∀ line, s.running = some line → screen.drawAll (calls (start.opening ++ actions)) =
    screen.drawAll (start.session.start ++ start.session.transcript done ++ [.line line])

/-! ## The screen in step with the transcript -/

namespace Shows

variable {screen : Screen} {replies : Nat → Prompt → Reply} {start s : Shell} {n : Nat}
  {keys : List Key} {actions : List Action} {done : List (String × Output)}

theorem fresh (screen : Screen) (w : Workspace) (label : String) (style : Style) (i : Interpreter) :
    Shows screen (.fresh w label style true i) (.fresh w label style true i) [] [] where
  echo := rfl
  printable := .empty
  typed _ := by simp [opening, Session.transcript, Shell.fresh, Session.fresh]
  running := nofun

theorem drawAll_append (screen : Screen) (start : Shell) (actions added : List Action) :
    screen.drawAll (calls (start.opening ++ (actions ++ added))) =
      (screen.drawAll (calls (start.opening ++ actions))).drawAll (calls added) := by
  simp

/-- **Enter while no line runs** ends the typed line, which then runs. -/
theorem enter_idle (h : Shows screen start s actions done) (hb : s.session.busy = false)
    (hr : s.running = none) (hn : Text.isBlankText s.session.editor.buffer = false) :
    Shows screen start { s with toLoop := (s.toLoop.follow (s.session.press .enter)).1 }
      (actions ++ (s.toLoop.follow (s.session.press .enter)).2) done := by
  have hp := Session.press_enter_of_not_blank hb hn
  constructor
  case echo => simpa [Loop.follow, hp] using h.echo
  case printable => simpa [Loop.follow, hp] using h.printable.submit
  case typed => simp [Loop.follow, hp]
  case running =>
    intro line hl
    obtain rfl : s.session.editor.buffer = line := by simpa [Loop.follow, hp] using hl
    rw [drawAll_append, h.typed hr, Screen.drawAll_append screen (_ ++ _)]
    simp [Loop.follow, hp, h.echo, Screen.draw, Screen.put_printable _ h.printable.buffer]

/-- **Any other key while no line runs** edits the line that is shown. -/
theorem edit_idle (h : Shows screen start s actions done) (hb : s.session.busy = false)
    (hr : s.running = none) {k : Key} (hk : k.Printable) (he : k ≠ .enter) :
    Shows screen start { s with toLoop := (s.toLoop.follow (s.session.press k)).1 }
      (actions ++ (s.toLoop.follow (s.session.press k)).2) done := by
  have hs := Session.press_session hb k
  have hp : (s.session.press k).dispatch = none := by
    rw [Session.press_dispatch hb, Editor.press_snd, Editor.edit_snd]
    simp [he]
  constructor
  case echo => simpa [Loop.follow, hs] using h.echo
  case printable => simpa [Loop.follow, hs] using h.printable.press hk
  case typed =>
    intro _
    rw [drawAll_append, h.typed hr]
    simpa [Loop.follow, hp] using Session.drawAll_press hb h.echo h.printable hk he _
  case running => simp [Loop.follow, hp]

/-- **A key while a line runs** is not shown. -/
theorem key_busy (h : Shows screen start s actions done) {line : String}
    (hr : s.running = some line) {k : Key} (hk : k.Printable) :
    Shows screen start
      { s with session := { s.session with editor := (s.session.editor.pressBusy k).1 } }
      actions done where
  echo := h.echo
  printable := h.printable.pressBusy hk
  typed hn := absurd (hr.symm.trans hn) (by simp)
  running := h.running

theorem key (h : Shows screen start s actions done)
    (hs : Simulates replies start s n keys actions done) (ho : s.isOpen = true) {k : Key}
    (hk : Plain (keys ++ [k])) :
    Shows screen start { s with toLoop := (s.toLoop.press k).1 } (actions ++ (s.toLoop.press k).2)
      done := by
  have hp : k.Printable := hk.printable k (by simp)
  have hb := hs.busy
  cases hr : s.running with
  | some line =>
    rw [Loop.press_of_running ho hr, List.append_nil]
    exact h.key_busy hr hp
  | none =>
    rw [hr] at hb
    rw [Loop.press_of_idle ho hr]
    by_cases he : k = .enter
    · subst he
      have hn := ((Editor.noBlankEnter_concat ..).1 hk.nonblank).2 rfl
      rw [← hs.editor] at hn
      exact h.enter_idle hb hr hn
    · exact h.edit_idle hb hr hp he

/-- **An output** is shown with the next prompt, and behind it the oldest line that waits, or what
is typed. -/
theorem complete (h : Shows screen start s actions done)
    (hs : Simulates replies start s n keys actions done) {line : String}
    (hr : s.running = some line) (o : Output) :
    Shows screen start { s with toLoop := (s.toLoop.complete o).1 }
      (actions ++ (s.toLoop.complete o).2) (done ++ [(line, o)]) := by
  have hl := Loop.complete_of_running hr o
  have ht : start.session.transcript (done ++ [(line, o)]) =
      start.session.transcript done ++ .line line ::
        ((s.session.present o).2 ++ [(s.session.present o).1.prompt]) := by
    rw [Session.transcript_concat, hs.session]
    rfl
  cases hq : s.session.editor.queue with
  | nil =>
    have hf := Session.finish_of_queue_nil hq o
    constructor
    case echo => simpa [hl, Loop.follow, hf, Session.present] using h.echo
    case printable => simpa [hl, Loop.follow, hf, Session.present] using h.printable
    case typed =>
      intro _
      have hc : calls (s.toLoop.complete o).2 = (s.session.finish o).calls := by
        simp [hl, Loop.follow]
      rw [drawAll_append, h.running line hr, ht, hc,
        Session.drawAll_finish_of_queue_nil hq h.echo h.printable]
      simp [hl, Loop.follow, hf, Session.present]
    case running => simp [hl, Loop.follow, hf]
  | cons next rest =>
    have hf := Session.finish_of_queue_cons hq o
    constructor
    case echo => simpa [hl, Loop.follow, hf, Session.present] using h.echo
    case printable => simpa [hl, Loop.follow, hf] using h.printable.of_queue_cons hq
    case typed => simp [hl, Loop.follow, hf]
    case running =>
      intro line' hn
      obtain rfl : next = line' := by simpa [hl, Loop.follow, hf] using hn
      rw [drawAll_append, h.running line hr, ht]
      simp [hl, Loop.follow, hf, h.echo]

end Shows

/-- **The screen is in order** in whatever a shell with echo comes to. -/
theorem Reach.shows {replies : Nat → Prompt → Reply} {w : Workspace} {label : String}
    {style : Style} {i : Interpreter} {s : Shell} {n : Nat} {keys : List Key}
    {actions : List Action}
    (h : Reach (Exactly replies) (.fresh w label style true i) s n keys actions)
    (hk : Plain keys) (screen : Screen) :
    ∃ done, Simulates replies (.fresh w label style true i) s n keys actions done ∧
      Shows screen (.fresh w label style true i) s actions done := by
  induction h with
  | start => exact ⟨[], .fresh w label style true i, .fresh screen w label style i⟩
  | key _ ho k ih =>
    obtain ⟨done, hs, hv⟩ := ih hk.of_concat
    obtain ⟨hu, hd⟩ := hk.edits k (by simp)
    exact ⟨done, hs.key ho hu hd, hv.key hs ho hk⟩
  | done _ hr hx ih =>
    obtain ⟨done, hs, hv⟩ := ih hk
    exact ⟨_, hs.complete_done hr hx, hv.complete hs hr _⟩
  | reply _ hr hx ha ih =>
    obtain ⟨done, hs, hv⟩ := ih hk
    exact ⟨_, ha ▸ hs.complete_reply hr hx, ha ▸ hv.complete hs hr _⟩
  | close _ ih =>
    obtain ⟨done, hs, hv⟩ := ih hk
    exact ⟨done, hs.close, hv.echo, hv.printable, hv.typed, hv.running⟩

/-- The lines that are complete when no line runs, and their outputs, are settled by the keys. -/
theorem Simulates.done_eq {replies : Nat → Prompt → Reply} {start s s' : Shell} {n n' : Nat}
    {keys : List Key} {actions actions' : List Action} {done done' : List (String × Output)}
    (h : Simulates replies start s n keys actions done) (hr : s.running = none)
    (h' : Simulates replies start s' n' keys actions' done') (hr' : s'.running = none) :
    done = done' := by
  have hl := h.lines.trans h'.lines.symm
  rw [hr, hr', h.queue_eq_nil hr, h'.queue_eq_nil hr'] at hl
  simp only [Option.toList_none, List.append_nil] at hl
  have ho := h.runLines_eq.symm.trans (hl ▸ h'.runLines_eq)
  have hp : done.map Prod.snd = done'.map Prod.snd := congrArg Sequence.outputs (Option.some.inj ho)
  rw [List.zip_of_prod hl hp, ← List.zip_of_prod rfl rfl]

/-! ## No line waits in a patient run -/

/-- No line waits behind the one that runs, if one does. -/
structure Calm (s : Shell) : Prop where
  busy : s.session.busy = s.running.isSome
  queue_eq_nil : s.session.editor.queue = []

namespace Calm

variable {s : Shell}

theorem complete (h : Calm s) {line : String} (hr : s.running = some line) (o : Output) :
    Calm { s with toLoop := (s.toLoop.complete o).1 } ∧ (s.toLoop.complete o).1.running = none := by
  have hl := Loop.complete_of_running hr o
  refine ⟨⟨?_, ?_⟩, ?_⟩
  · simp [hl, Loop.follow, Session.finish_session, Session.finish_dispatch]
  · simp [hl, Loop.follow, Session.finish_session, h.queue_eq_nil]
  · simp [hl, Loop.follow, Session.finish_dispatch, h.queue_eq_nil]

theorem settle (h : Calm s) : Calm s.settle.1 := by
  fun_induction Shell.settle s with
  | case1 s hr => exact h
  | case2 s line hr prompt hs => exact h
  | case3 s line hr output hs t last ih => exact ih (h.complete hr output).1

theorem press (h : Calm s) (hr : s.running = none) (k : Key) : Calm (s.press k).1 := by
  have hb : s.session.busy = false := by rw [h.busy, hr]; rfl
  simp only [Shell.press, hr, advance]
  refine settle ?_
  cases ho : s.isOpen with
  | true =>
    rw [Loop.press_of_idle ho hr]
    constructor
    · simp [Loop.follow, Session.press_session hb, Session.press_dispatch hb]
    · simp [Loop.follow, Session.press_session hb, h.queue_eq_nil]
  | false => simpa [Loop.press, ho] using h

theorem receive (h : Calm s) {prompt : Prompt} (hw : s.waiting = some prompt) (r : Reply) :
    Calm (s.receive r).1 ∧ (s.receive r).1.running = none := by
  obtain ⟨line, hr, -⟩ := exists_running_of_waiting hw
  obtain ⟨hc, hn⟩ := h.complete hr (Task.output prompt r)
  simp only [Shell.receive, hw, advance]
  rw [settle_of_running_eq_none hn]
  exact ⟨hc, hn⟩

end Calm

section Patient

variable {replies : Nat → Prompt → Reply} {s : Shell} {n : Nat} {k : Key} {keys : List Key}

theorem patient_of_waiting_eq_none (hw : (s.press k).1.waiting = none) :
    patient replies s n (k :: keys) = .key k :: patient replies (s.press k).1 n keys := by
  simp only [patient, hw]

theorem patient_of_waiting {prompt : Prompt} (hw : (s.press k).1.waiting = some prompt) :
    patient replies s n (k :: keys) = .key k :: .reply (replies n prompt) ::
      patient replies ((s.press k).1.receive (replies n prompt)).1 (n + 1) keys := by
  simp only [patient, hw]

end Patient

/-- **The keys of a patient user** come one by one, each when no line runs. -/
theorem patient_patient (replies : Nat → Prompt → Reply) {s : Shell} (n : Nat) (h : Calm s)
    (hr : s.running = none) (keys : List Key) :
    received (patient replies s n keys) = keys ∧
      Answered (Exactly replies) s n (patient replies s n keys) ∧
      Patient s (patient replies s n keys) := by
  induction keys generalizing s n with
  | nil => exact ⟨rfl, trivial, hr⟩
  | cons k keys ih =>
    have hp := h.press hr k
    cases hw : (s.press k).1.waiting with
    | none =>
      obtain ⟨hrec, hans, hpat⟩ := ih n hp (running_press_of_waiting hr hw)
      rw [patient_of_waiting_eq_none hw]
      exact ⟨congrArg (k :: ·) hrec, hans, hr, hpat⟩
    | some prompt =>
      obtain ⟨hc, hn⟩ := hp.receive hw (replies n prompt)
      obtain ⟨hrec, hans, hpat⟩ := ih (n + 1) hc hn
      rw [patient_of_waiting hw]
      refine ⟨congrArg (k :: ·) hrec, ?_, hr, hpat⟩
      simp only [Answered, hw]
      exact ⟨rfl, hans⟩

/-- A patient run ends when no line runs. -/
theorem Patient.running_eq_none {s : Shell} {es : List Event} (h : Patient s es) :
    (s.run es).1.running = none := by
  induction es generalizing s with
  | nil => exact h
  | cons e es ih =>
    cases e with
    | key k => exact ih h.2
    | reply r => exact ih h
    | close => exact ih h

/-! ## The screen of any run -/

/-- What a run shows whose lines are complete is settled by the keys. -/
theorem shown_eq_of_received_eq {w : Workspace} {label : String} {style : Style} {i : Interpreter}
    {replies : Nat → Prompt → Reply} {es es' : List Event} (screen : Screen)
    (he : received es' = received es) (hk : Plain (received es))
    (ha : Answered (Exactly replies) (.fresh w label style true i) 0 es)
    (hr : ((fresh w label style true i).run es).1.running = none)
    (ha' : Answered (Exactly replies) (.fresh w label style true i) 0 es')
    (hr' : ((fresh w label style true i).run es').1.running = none) :
    shown screen (.fresh w label style true i) es =
      shown screen (.fresh w label style true i) es' := by
  obtain ⟨n, h⟩ := exists_reach_run rfl ha
  obtain ⟨n', h'⟩ := exists_reach_run rfl ha'
  rw [he] at h'
  obtain ⟨done, hs, hv⟩ := h.shows hk screen
  obtain ⟨done', hs', hv'⟩ := h'.shows hk screen
  obtain rfl := hs.done_eq hr hs' hr'
  have hb := congrArg Editor.buffer (hs.editor.trans hs'.editor.symm)
  have hv := hv.typed hr
  have hv' := hv'.typed hr'
  simp only [calls_append, calls_loopActions] at hv hv'
  simp only [shown, calls_append]
  rw [hv, hv']
  exact congrArg (fun b => Screen.mk (_ ++ b)) hb

/-- **A run shows what the patient run shows**: with the same keys, none of which comes before the
output of the line before it is in. So typing ahead leaves the same screen as waiting. -/
theorem shown_eq_patient (w : Workspace) (label : String) (style : Style) (i : Interpreter)
    (replies : Nat → Prompt → Reply) (screen : Screen) (es : List Event)
    (hk : Plain (received es))
    (ha : Answered (Exactly replies) (.fresh w label style true i) 0 es)
    (hr : ((fresh w label style true i).run es).1.running = none) :
    let start : Shell := .fresh w label style true i
    let patient := start.patient replies 0 (received es)
    received patient = received es ∧ Answered (Exactly replies) start 0 patient ∧
      Patient start patient ∧ shown screen start es = shown screen start patient := by
  intro start patient
  have hc : Calm start := ⟨rfl, rfl⟩
  obtain ⟨he, ha', hp⟩ := patient_patient replies 0 hc rfl (received es)
  exact ⟨he, ha', hp, shown_eq_of_received_eq screen he hk ha hr ha' hp.running_eq_none⟩

/-- Two lines are typed before any reply is in, and a third is begun. -/
theorem shown_eq_patient_of_typeahead :
    let i : Interpreter :=
      { registry := Registry.empty.register ⟨"a", fun c => .asks ⟨{ name := "A" }, c.line, ""⟩⟩ }
    let start : Shell := .fresh ⟨.empty, "/", "/"⟩ "CUAG" ⟨false⟩ true i
    let replies : Nat → Prompt → Reply := fun n _ => if n = 0 then .ok "x" else .ok "y"
    let es : List Event :=
      [.key (.char 'a'), .key .enter, .key (.char 'a'), .key .enter, .key (.char 'c'),
        .reply (.ok "x"), .key .backspace, .reply (.ok "y"), .close]
    Plain (received es) ∧ Answered (Exactly replies) start 0 es ∧
      (start.run es).1.running = none ∧
      shown {} start es = shown {} start (start.patient replies 0 (received es)) := by
  intro i start replies es
  have hk : Plain (received es) := ⟨by decide, by decide, by decide⟩
  have ha : Answered (Exactly replies) start 0 es := by decide +kernel
  have hr : (start.run es).1.running = none := by decide +kernel
  exact ⟨hk, ha, hr, (shown_eq_patient _ _ _ _ replies {} es hk ha hr).2.2.2⟩

end Shell

end AgentShell
