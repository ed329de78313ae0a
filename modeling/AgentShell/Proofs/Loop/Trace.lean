import AgentShell.Shell.Loop

/-!
# Traces of a loop

What a loop does in the course of a run is a list of actions. In an orderly trace launches and
outputs alternate, and no line but the first begins before an output was drawn, the next prompt
behind it, and every line before it completed.

## Main definitions

* `Shell.inFlight?`: the line that runs behind a list of actions
* `Shell.Prompted`: actions that end with an output, its calls, a prompt and calls
* `Shell.Orderly`: a trace in which one line runs at a time, each behind a prompt

## Main results

* `Shell.length_launched_of_prefix`: in a prefix at most one line is not complete
* `Shell.Orderly.append_draws`, `Shell.Orderly.append_output`: what a key and what an output add to
  an orderly trace
-/

namespace AgentShell.Shell

/-! ## Parts of a trace -/

section Parts

variable (as bs : List Action) (calls : List DisplayCall)

@[simp] theorem launched_append : launched (as ++ bs) = launched as ++ launched bs :=
  List.filterMap_append

@[simp] theorem outputs_append : outputs (as ++ bs) = outputs as ++ outputs bs :=
  List.filterMap_append

@[simp] theorem launched_draws : launched (calls.map .draw) = [] := by
  simp [launched]

@[simp] theorem outputs_draws : outputs (calls.map .draw) = [] := by
  simp [outputs]

@[simp] theorem launched_launches (lines : List String) :
    launched (lines.map .launch) = lines := by
  induction lines with
  | nil => rfl
  | cons line lines ih => exact congrArg (line :: ·) ih

@[simp] theorem outputs_launches (lines : List String) : outputs (lines.map .launch) = [] := by
  simp [outputs]

@[simp] theorem prompts_append : prompts (as ++ bs) = prompts as ++ prompts bs :=
  List.filterMap_append

@[simp] theorem prompts_draws : prompts (calls.map .draw) = [] := by
  simp [prompts]

@[simp] theorem prompts_launches (lines : List String) : prompts (lines.map .launch) = [] := by
  simp [prompts]

@[simp] theorem calls_append : Shell.calls (as ++ bs) = Shell.calls as ++ Shell.calls bs :=
  List.filterMap_append

@[simp] theorem calls_draws : Shell.calls (calls.map .draw) = calls := by
  induction calls with
  | nil => rfl
  | cons call calls ih => exact congrArg (call :: ·) ih

@[simp] theorem calls_launches (lines : List String) : Shell.calls (lines.map .launch) = [] := by
  simp [Shell.calls]

@[simp] theorem calls_nil : Shell.calls [] = [] := rfl

@[simp] theorem calls_draw (call : DisplayCall) :
    Shell.calls (.draw call :: as) = call :: Shell.calls as := rfl

@[simp] theorem calls_launch (line : String) :
    Shell.calls (.launch line :: as) = Shell.calls as := rfl

@[simp] theorem calls_complete (o : Output) :
    Shell.calls (.complete o :: as) = Shell.calls as := rfl

@[simp] theorem launched_nil : launched [] = [] := rfl

@[simp] theorem launched_launch (line : String) :
    launched (.launch line :: as) = line :: launched as := rfl

@[simp] theorem launched_draw (call : DisplayCall) :
    launched (.draw call :: as) = launched as := rfl

@[simp] theorem launched_complete (o : Output) : launched (.complete o :: as) = launched as := rfl

@[simp] theorem outputs_complete (o : Output) :
    outputs (.complete o :: as) = o :: outputs as := rfl

end Parts

/-! ## The line that runs -/

/-- The line that runs behind actions which start while `running` runs. There is no answer if a
line begins while another runs, or an output comes while none does. -/
def inFlight? (running : Option String) : List Action → Option (Option String)
  | [] => some running
  | .draw _ :: as => inFlight? running as
  | .ask _ :: as => inFlight? running as
  | .launch line :: as => if running.isNone then inFlight? (some line) as else none
  | .complete _ :: as => if running.isSome then inFlight? none as else none

theorem inFlight?_append (r : Option String) (as bs : List Action) :
    inFlight? r (as ++ bs) = (inFlight? r as).bind fun r' => inFlight? r' bs := by
  induction as generalizing r with
  | nil => rfl
  | cons a as ih =>
    cases a with
    | draw | ask => exact ih r
    | launch | complete =>
      simp only [List.cons_append, inFlight?, ih]
      split <;> rfl

@[simp] theorem inFlight?_draws (r : Option String) (calls : List DisplayCall) :
    inFlight? r (calls.map .draw) = some r := by
  induction calls with
  | nil => rfl
  | cons c calls ih => exact ih

theorem inFlight?_dispatch (calls : List DisplayCall) (next : Option String) :
    inFlight? none (calls.map .draw ++ next.toList.map .launch) = some next := by
  rw [inFlight?_append, inFlight?_draws]
  cases next <;> rfl

/-- Lines that run before and begin are lines that are complete and run behind. -/
theorem length_launched {r r' : Option String} {as : List Action}
    (h : inFlight? r as = some r') :
    r.toList.length + (launched as).length = (outputs as).length + r'.toList.length := by
  -- Induction on the actions, from any line that runs in front of them.
  induction as generalizing r with
  | nil => simpa [inFlight?, launched, outputs] using congrArg (·.map (·.toList.length)) h
  | cons a as ih =>
    cases a with
    | draw | ask => simpa [launched, outputs] using ih h
    | launch line =>
      cases r with
      | some _ => simp [inFlight?] at h
      | none =>
        have := ih (r := some line) h
        simp [launched, outputs] at this ⊢
        omega
    | complete o =>
      cases r with
      | none => simp [inFlight?] at h
      | some _ =>
        have := ih (r := none) h
        simp [launched, outputs] at this ⊢
        omega

/-- **One line at a time**: at every point at most one of the lines that began is not complete. -/
theorem length_launched_of_prefix {r : Option String} {actions before : List Action}
    (h : inFlight? none actions = some r) (hp : before <+: actions) :
    (outputs before).length ≤ (launched before).length ∧
      (launched before).length ≤ (outputs before).length + 1 := by
  obtain ⟨after, rfl⟩ := hp
  -- what is in order behind all actions is in order behind the first of them
  rw [inFlight?_append] at h
  obtain ⟨r', hr', -⟩ := Option.bind_eq_some_iff.1 h
  have hc := length_launched hr'
  have h₁ : r'.toList.length ≤ 1 := by cases r' <;> simp
  rw [Option.toList_none, List.length_nil] at hc
  omega

/-! ## Traces in order -/

/-- The actions end with an output, the calls that draw it, the next prompt, and further calls. -/
def Prompted (style : Style) (label : String) (actions : List Action) : Prop :=
  ∃ earlier o cwd calls, actions = earlier ++ .complete o ::
    (Session.outputCalls style o ++ DisplayCall.write (style.prompt label cwd) :: calls).map .draw

theorem Prompted.append_draws {style : Style} {label : String} {actions : List Action}
    (h : Prompted style label actions) (calls : List DisplayCall) :
    Prompted style label (actions ++ calls.map .draw) := by
  obtain ⟨earlier, o, cwd, drawn, rfl⟩ := h
  exact ⟨earlier, o, cwd, drawn ++ calls, by simp⟩

/-- **An orderly trace**, behind which `running` runs: launches and outputs alternate, and a line
begins only behind the output of the line before it and the next prompt. -/
structure Orderly (style : Style) (label : String) (running : Option String)
    (actions : List Action) : Prop where
  inFlight : inFlight? none actions = some running
  prompted : running = none → launched actions ≠ [] → Prompted style label actions
  order : ∀ before line after, actions = before ++ .launch line :: after →
    launched before ≠ [] → Prompted style label before

namespace Orderly

variable {style : Style} {label : String} {running : Option String} {actions : List Action}

theorem nil : Orderly style label none [] where
  inFlight := rfl
  prompted _ h := absurd rfl h
  order before line after h := by simp at h

/-- Where nothing begins in `added`, the line that begins behind it is preceded by all of it. -/
theorem eq_of_append_launch {added before after : List Action} {next : Option String}
    {line : String} (hl : launched added = [])
    (h : added ++ next.toList.map .launch = before ++ .launch line :: after) :
    before = added := by
  rcases List.append_eq_append_iff.1 h with ⟨as, rfl, has⟩ | ⟨as, rfl, has⟩
  · cases next with
    | none => simp at has
    | some _ =>
      obtain ⟨rfl, -⟩ | ⟨-, hn⟩ := List.singleton_eq_append_iff.1 has
      · simp
      · simp at hn
  · cases as with
    | nil => simp
    | cons a as =>
      obtain ⟨rfl, -⟩ := List.cons.inj has
      simp [launched] at hl

/-- What a step adds to an orderly trace: actions in which nothing begins, and then the next line
if it hands one out. All that is asked is that the trace is prompted in front of that line. -/
theorem append (h : Orderly style label running actions) {added : List Action}
    {next : Option String} (hl : launched added = [])
    (hf : inFlight? running (added ++ next.toList.map .launch) = some next)
    (hp : launched actions ≠ [] → Prompted style label (actions ++ added)) :
    Orderly style label next (actions ++ (added ++ next.toList.map .launch)) where
  inFlight := by rw [inFlight?_append, h.inFlight, Option.bind_some, hf]
  prompted hn hne := by
    subst hn
    simpa using hp (by simpa [hl] using hne)
  order before line after he hne := by
    rcases List.append_eq_append_iff.1 he with ⟨as, rfl, has⟩ | ⟨as, rfl, has⟩
    · obtain rfl := eq_of_append_launch hl has
      exact hp (by simpa [hl] using hne)
    · cases as with
      | nil =>
        obtain rfl : [] = added := eq_of_append_launch hl has.symm
        simpa using hp (by simpa using hne)
      | cons a as =>
        obtain ⟨rfl, -⟩ := List.cons.inj has
        exact h.order before line as rfl hne

/-- **A key while no line runs** adds calls, and the line that it submits. -/
theorem append_draws (h : Orderly style label none actions) (calls : List DisplayCall)
    (next : Option String) :
    Orderly style label next
      (actions ++ (calls.map .draw ++ next.toList.map .launch)) :=
  h.append (launched_draws calls) (inFlight?_dispatch calls next)
    fun hne => (h.prompted rfl hne).append_draws calls

/-- **An output** adds the calls that draw it, the next prompt and calls behind it, and the line
that waited for it. -/
theorem append_output {line : String} (h : Orderly style label (some line) actions) (o : Output)
    (cwd : String) (calls : List DisplayCall) (next : Option String) :
    Orderly style label next (actions ++ .complete o ::
      ((Session.outputCalls style o ++
        DisplayCall.write (style.prompt label cwd) :: calls).map .draw ++
          next.toList.map .launch)) :=
  have hl : launched (.complete o :: (Session.outputCalls style o ++
      DisplayCall.write (style.prompt label cwd) :: calls).map .draw) = [] := launched_draws _
  h.append hl (inFlight?_dispatch _ next) fun _ => ⟨actions, o, cwd, calls, rfl⟩

end Orderly

end AgentShell.Shell
