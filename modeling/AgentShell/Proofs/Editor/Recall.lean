import AgentShell.Editor
import Mathlib.Data.List.Induction
import Mathlib.Data.List.Infix

/-!
# Recall

Recall walks over the history and the place behind it. On the way the line may be edited at every
stop, and while a command runs the history grows, and yet nothing goes astray: the cursor stays on
the way, every stop inside the history shows the line that is stored there, and the place behind the
history shows again what was being typed when it was last left. Editing a recalled line leaves both
alone.

## Main definitions

* `Editor.Direction`, `Editor.turn?`: a step of recall
* `Editor.Operation`, `Editor.apply`, `Editor.applyAll`: what can be done to an editor
* `Editor.LastLeft`: the line with which the place behind the history was last left

## Main results

* `Editor.cursor_apply_le`, `Editor.history_apply`: where the cursor is, and how the history grows
* `Editor.turn?_eq_none_iff`, `Editor.getElem?_of_turn`: when a step of recall is possible, and what
  it shows
* `Editor.Walked.concat`: the draft is what was last left behind the history
* `Editor.recall_shows_history_and_draft`: these together
-/

namespace AgentShell.Editor

/-! ## Operations on an editor -/

/-- The directions of recall. -/
inductive Direction where
  | back
  | forth
deriving DecidableEq, Repr

/-- A step of recall, if there is one. -/
def turn? (e : Editor) : Direction → Option Editor
  | .back => e.previous?
  | .forth => e.next?

/-- Where a direction ends: at the oldest line, or behind the history. -/
def lastStop (e : Editor) : Direction → Nat
  | .back => 0
  | .forth => e.history.length

/-- What can be done to an editor. -/
inductive Operation where
  | type (c : Char)
  | erase
  | submit
  | pressBusy (k : Key)
  | enqueue (line : String)
  | dequeue
  | turn (d : Direction)
deriving DecidableEq, Repr

/-- The editor behind an operation. A step of recall that is not there does nothing, nor does
erasing in an empty line. -/
def apply (e : Editor) : Operation → Editor
  | .type c => e.type c
  | .erase => e.erase?.getD e
  | .submit => e.submit.1
  | .pressBusy k => (e.pressBusy k).1
  | .enqueue line => e.enqueue line
  | .dequeue => e.dequeue.1
  | .turn d => (e.turn? d).getD e

/-- The editor behind operations in turn. -/
def applyAll (e : Editor) (ops : List Operation) : Editor :=
  ops.foldl apply e

variable {e e' : Editor} {op : Operation} {ops walk : List Operation} {d : Direction}
  {line : String}

@[simp] theorem applyAll_nil (e : Editor) : e.applyAll [] = e := rfl

theorem applyAll_append (e : Editor) (ops ops' : List Operation) :
    e.applyAll (ops ++ ops') = (e.applyAll ops).applyAll ops' :=
  List.foldl_append

theorem applyAll_concat (e : Editor) (ops : List Operation) (op : Operation) :
    e.applyAll (ops ++ [op]) = (e.applyAll ops).apply op :=
  applyAll_append e ops [op]

/-! ## One step of recall -/

section Turn

/-- **There is a step of recall** unless its direction ends at the cursor. -/
theorem turn?_eq_none_iff (hc : e.cursor ≤ e.history.length) :
    e.turn? d = none ↔ e.cursor = e.lastStop d := by
  cases d with
  | back => simp [turn?, previous?, lastStop]
  | forth =>
    have hend : e.next? = none ↔ e.history.length ≤ e.cursor := by
      unfold next?
      split_ifs <;> simp_all
    rw [turn?, hend, lastStop]
    omega

theorem apply_turn_of_none (h : e.turn? d = none) : e.apply (.turn d) = e := by
  rw [apply, h, Option.getD_none]

theorem apply_turn_of_some (h : e.turn? d = some e') : e.apply (.turn d) = e' := by
  rw [apply, h, Option.getD_some]

theorem history_of_turn (h : e.turn? d = some e') : e'.history = e.history := by
  cases d with
  | back =>
    have hh := getD_previous?_history e
    rwa [show e.previous? = some e' from h] at hh
  | forth =>
    have hh := getD_next?_history e
    rwa [show e.next? = some e' from h] at hh

/-- A step back. What is typed behind the history becomes the draft. -/
theorem of_turn_back (h : e.turn? .back = some e') :
    e'.cursor + 1 = e.cursor ∧ e'.buffer = e.history[e'.cursor]?.getD "" ∧
      e'.draft = if e.cursor = e.history.length then e.buffer else e.draft := by
  rw [turn?, previous?] at h
  split at h
  · cases h
  · cases h
    exact ⟨by dsimp only; omega, rfl, rfl⟩

/-- A step forth. The draft is taken up behind the history and kept until then. -/
theorem of_turn_forth (h : e.turn? .forth = some e') :
    e'.cursor = e.cursor + 1 ∧
      (e'.cursor = e.history.length → e'.buffer = e.draft) ∧
      (e'.cursor ≠ e.history.length →
        e'.buffer = e.history[e'.cursor]?.getD "" ∧ e'.draft = e.draft) := by
  rw [turn?, next?] at h
  split at h
  · cases h
  · split at h <;> cases h <;> simp_all

/-- **A stop inside the history shows the line that is stored there.** -/
theorem getElem?_of_turn (h : e.turn? d = some e') (hin : e'.cursor < e.history.length) :
    e.history[e'.cursor]? = some e'.buffer := by
  have hb : e'.buffer = e.history[e'.cursor]?.getD "" := by
    cases d with
    | back => exact (of_turn_back h).2.1
    | forth => exact ((of_turn_forth h).2.2 hin.ne).1
  rw [hb, List.getElem?_eq_getElem hin, Option.getD_some]

end Turn

/-! ## The cursor and the history -/

section Reached

/-- **The cursor stays on the history and the place behind it.** -/
theorem cursor_apply_le (hc : e.cursor ≤ e.history.length) (op : Operation) :
    (e.apply op).cursor ≤ (e.apply op).history.length := by
  have hsubmit : e.submit.1.cursor ≤ e.submit.1.history.length := by
    unfold submit
    split <;> simp
  cases op with
  | type | enqueue | dequeue => exact hc
  | erase => rwa [apply, getD_erase?]
  | submit => exact hsubmit
  | pressBusy k =>
    rw [apply, pressBusy_fst]
    cases k with
    | enter => exact hsubmit
    | backspace => rwa [edit, getD_erase?]
    | char | up | down => exact hc
  | turn d =>
    cases h : e.turn? d with
    | none => rwa [apply_turn_of_none h]
    | some e' =>
      rw [apply_turn_of_some h, history_of_turn h]
      cases d with
      | back =>
        have := (of_turn_back h).1
        omega
      | forth =>
        have hne : e.cursor ≠ e.lastStop .forth := by
          rw [ne_eq, ← turn?_eq_none_iff hc, h]
          simp
        have := (of_turn_forth h).1
        rw [lastStop] at hne
        omega

theorem cursor_applyAll_le (hc : e.cursor ≤ e.history.length) (ops : List Operation) :
    (e.applyAll ops).cursor ≤ (e.applyAll ops).history.length := by
  induction ops using List.reverseRecOn with
  | nil => exact hc
  | append_singleton ops op ih =>
    rw [applyAll_concat]
    exact cursor_apply_le ih op

/-- **The history grows by the typed line**, when it is submitted and not blank, and by nothing
else. -/
theorem history_apply (e : Editor) (op : Operation) :
    (e.apply op).history = e.history ++
      if (op = .submit ∨ op = .pressBusy .enter) ∧ Text.isBlankText e.buffer = false then [e.buffer]
      else [] := by
  have hsubmit : e.submit.1.history =
      e.history ++ if Text.isBlankText e.buffer = false then [e.buffer] else [] := by
    rw [submit_history, submit_snd]
    cases Text.isBlankText e.buffer <;> simp
  cases op with
  | type | enqueue | dequeue => simp [apply, type, enqueue, dequeue]
  | erase => simp [apply, getD_erase?]
  | submit => simp [apply, hsubmit]
  | pressBusy k =>
    rw [apply, pressBusy_fst]
    cases k with
    | enter => simp [edit, hsubmit]
    | char | backspace | up | down => simp [edit, type, getD_erase?]
  | turn d =>
    cases h : e.turn? d with
    | none => simp [apply_turn_of_none h]
    | some e' => simp [apply_turn_of_some h, history_of_turn h]

theorem exists_history_applyAll (e : Editor) (ops : List Operation) :
    ∃ lines, (e.applyAll ops).history = e.history ++ lines ∧
      ∀ line ∈ lines, Text.isBlankText line = false := by
  induction ops using List.reverseRecOn with
  | nil => exact ⟨[], by simp, nofun⟩
  | append_singleton ops op ih =>
    obtain ⟨lines, hl, hb⟩ := ih
    rw [applyAll_concat, history_apply, hl]
    split_ifs with hs
    · refine ⟨lines ++ [(e.applyAll ops).buffer], List.append_assoc .., ?_⟩
      simpa [or_imp, forall_and] using ⟨hb, hs.2⟩
    · exact ⟨lines, List.append_nil _, hb⟩

end Reached

/-! ## The draft on a walk -/

section Walk

/-- The operations that walk through the history: recall, and editing where it stops. -/
def Operation.Walks : Operation → Prop
  | .type _ | .erase | .turn _ => True
  | .submit | .pressBusy _ | .enqueue _ | .dequeue => False

instance : DecidablePred Operation.Walks
  | .type _ | .erase | .turn _ => inferInstanceAs (Decidable True)
  | .submit | .pressBusy _ | .enqueue _ | .dequeue => inferInstanceAs (Decidable False)

/-- **The line with which the place behind the history was last left.** Some step back of the walk
left that place, where this was being typed, and at no time since then was recall there. -/
def LastLeft (e : Editor) (walk : List Operation) (line : String) : Prop :=
  ∃ before after, walk = before ++ .turn .back :: after ∧
    (e.applyAll before).cursor = e.history.length ∧ (e.applyAll before).buffer = line ∧
    ∀ middle, middle <+: after →
      (e.applyAll (before ++ .turn .back :: middle)).cursor < e.history.length

/-- The place behind the history is left with what is being typed there. -/
theorem lastLeft_concat_back (hc : (e.applyAll walk).cursor = e.history.length)
    (haway : (e.applyAll (walk ++ [.turn .back])).cursor < e.history.length) :
    e.LastLeft (walk ++ [.turn .back]) (e.applyAll walk).buffer := by
  refine ⟨walk, [], rfl, hc, rfl, fun middle hm => ?_⟩
  rwa [List.prefix_nil.1 hm]

/-- As long as recall is not back behind the history, nothing else was last left there. -/
theorem LastLeft.concat (h : e.LastLeft walk line)
    (haway : (e.applyAll (walk ++ [op])).cursor < e.history.length) :
    e.LastLeft (walk ++ [op]) line := by
  obtain ⟨before, after, rfl, hc, hb, hm⟩ := h
  refine ⟨before, after ++ [op], by simp, hc, hb, fun middle hp => ?_⟩
  rcases List.prefix_concat_iff.1 hp with rfl | hp
  · simpa using haway
  · exact hm middle hp

/-- **A walk from behind the history.** The history stays as it is, and away from the place behind
it the draft is what was last left there. -/
structure Walked (e : Editor) (walk : List Operation) : Prop where
  history : (e.applyAll walk).history = e.history
  cursor : (e.applyAll walk).cursor ≤ e.history.length
  draft : (e.applyAll walk).cursor < e.history.length → e.LastLeft walk (e.applyAll walk).draft

namespace Walked

theorem start (hc : e.cursor = e.history.length) : e.Walked [] where
  history := rfl
  cursor := hc.le
  draft h := absurd hc h.ne

/-- An operation that moves neither the cursor nor the draft goes on with the walk. -/
theorem concat_of_still (h : e.Walked walk)
    (hh : ((e.applyAll walk).apply op).history = (e.applyAll walk).history)
    (hc : ((e.applyAll walk).apply op).cursor = (e.applyAll walk).cursor)
    (hd : ((e.applyAll walk).apply op).draft = (e.applyAll walk).draft) :
    e.Walked (walk ++ [op]) := by
  rw [← applyAll_concat] at hh hc hd
  refine ⟨hh.trans h.history, hc.le.trans h.cursor, fun haway => ?_⟩
  rw [hd]
  exact (h.draft (hc ▸ haway)).concat haway

theorem concat_back (h : e.Walked walk) (ht : (e.applyAll walk).turn? .back = some e') :
    e.Walked (walk ++ [.turn .back]) := by
  obtain ⟨hc, -, hd⟩ := of_turn_back ht
  have hle := h.cursor
  have he : e.applyAll (walk ++ [.turn .back]) = e' := by
    rw [applyAll_concat, apply_turn_of_some ht]
  have haway : e'.cursor < e.history.length := by omega
  refine ⟨?_, ?_, fun _ => ?_⟩
  · rw [he, history_of_turn ht, h.history]
  · rw [he]
    exact haway.le
  · rw [he, hd, h.history]
    rw [← he] at haway
    split_ifs with hend
    · exact lastLeft_concat_back hend haway
    · exact (h.draft (by omega)).concat haway

theorem concat_forth (h : e.Walked walk) (ht : (e.applyAll walk).turn? .forth = some e') :
    e.Walked (walk ++ [.turn .forth]) := by
  obtain ⟨hc, -, hkept⟩ := of_turn_forth ht
  have hin : (e.applyAll walk).cursor ≤ (e.applyAll walk).history.length := by
    rw [h.history]
    exact h.cursor
  have hne : (e.applyAll walk).cursor ≠ (e.applyAll walk).lastStop .forth := by
    rw [ne_eq, ← turn?_eq_none_iff hin, ht]
    simp
  rw [lastStop, h.history] at hne
  have hle := h.cursor
  have he : e.applyAll (walk ++ [.turn .forth]) = e' := by
    rw [applyAll_concat, apply_turn_of_some ht]
  refine ⟨?_, ?_, fun haway => ?_⟩
  · rw [he, history_of_turn ht, h.history]
  · rw [he]
    omega
  · have hdraft : e'.draft = (e.applyAll walk).draft := by
      rw [he] at haway
      refine (hkept ?_).2
      rw [h.history]
      exact haway.ne
    rw [he, hdraft]
    exact (h.draft (by omega)).concat haway

/-- **A walk goes on** with every operation that walks. -/
theorem concat (h : e.Walked walk) (hop : op.Walks) : e.Walked (walk ++ [op]) := by
  cases op with
  | type c => exact h.concat_of_still rfl rfl rfl
  | erase => apply h.concat_of_still <;> rw [apply, getD_erase?]
  | turn d =>
    cases ht : (e.applyAll walk).turn? d with
    | none => apply h.concat_of_still <;> rw [apply_turn_of_none ht]
    | some e' =>
      cases d with
      | back => exact h.concat_back ht
      | forth => exact h.concat_forth ht
  | submit | pressBusy | enqueue | dequeue => exact hop.elim

theorem of_forall (hc : e.cursor = e.history.length) (hw : ∀ op ∈ walk, op.Walks) :
    e.Walked walk := by
  induction walk using List.reverseRecOn with
  | nil => exact start hc
  | append_singleton walk op ih =>
    rw [List.forall_mem_append, List.forall_mem_singleton] at hw
    exact (ih hw.1).concat hw.2

/-- **The place behind the history** shows what it was last left with. -/
theorem lastLeft_of_turn (h : e.Walked walk) (ht : (e.applyAll walk).turn? d = some e')
    (hend : e'.cursor = e.history.length) : e.LastLeft walk e'.buffer := by
  have hle := h.cursor
  cases d with
  | back =>
    have := (of_turn_back ht).1
    omega
  | forth =>
    obtain ⟨hc, hb, -⟩ := of_turn_forth ht
    rw [h.history] at hb
    rw [hb hend]
    exact h.draft (by omega)

end Walked

end Walk

/-! ## The law of recall -/

/-- **Recall shows the history and the draft.** Whatever was done to an editor, its cursor is on the
history or right behind it, and the history grows by typed lines that are not blank, as they are. A
step of recall is not possible exactly where its direction ends, and then it does nothing; otherwise
it goes to the next place, and if that is inside the history, it shows the line there. On a walk
that starts behind the history, recall comes back to this place with the line with which it was last
left, however the recalled lines were edited in between. -/
theorem recall_shows_history_and_draft (ops : List Operation) :
    let e := ({} : Editor).applyAll ops
    e.cursor ≤ e.history.length ∧
    (∀ op, (e.apply op).history = e.history ++
      if (op = .submit ∨ op = .pressBusy .enter) ∧ Text.isBlankText e.buffer = false then [e.buffer]
      else []) ∧
    (∀ later, ∃ lines, (e.applyAll later).history = e.history ++ lines ∧
      ∀ line ∈ lines, Text.isBlankText line = false) ∧
    (∀ d, (e.turn? d = none ↔ e.cursor = e.lastStop d) ∧
      (e.turn? d = none → e.apply (.turn d) = e) ∧
      ∀ e', e.turn? d = some e' → e.apply (.turn d) = e' ∧ e'.history = e.history ∧
        (d = .back → e'.cursor + 1 = e.cursor) ∧ (d = .forth → e'.cursor = e.cursor + 1) ∧
        (e'.cursor < e.history.length → e.history[e'.cursor]? = some e'.buffer)) ∧
    (e.cursor = e.history.length → ∀ walk, (∀ op ∈ walk, op.Walks) →
      (e.applyAll walk).history = e.history ∧
      ∀ d e', (e.applyAll walk).turn? d = some e' →
        (e'.cursor < e.history.length → e.history[e'.cursor]? = some e'.buffer) ∧
        (e'.cursor = e.history.length → e.LastLeft walk e'.buffer)) := by
  intro e
  have hc : e.cursor ≤ e.history.length := cursor_applyAll_le (Nat.le_refl 0) ops
  refine ⟨hc, history_apply e, exists_history_applyAll e, fun d => ?_, fun hend walk hw => ?_⟩
  · refine ⟨turn?_eq_none_iff hc, apply_turn_of_none, fun e' ht => ?_⟩
    refine ⟨apply_turn_of_some ht, history_of_turn ht, ?_, ?_, getElem?_of_turn ht⟩
    · rintro rfl
      exact (of_turn_back ht).1
    · rintro rfl
      exact (of_turn_forth ht).1
  · have hwalk : e.Walked walk := .of_forall hend hw
    refine ⟨hwalk.history, fun d e' ht => ⟨fun hin => ?_, hwalk.lastLeft_of_turn ht⟩⟩
    rw [← hwalk.history] at hin ⊢
    exact getElem?_of_turn ht hin

/-- Two recalled lines are edited on the way, one of which was submitted while a command ran. The
next stop shows its line as it was submitted, and behind the history stands what was typed there. -/
theorem recall_shows_history_and_draft_of_edits :
    let ops : List Operation :=
      [.type 'l', .type 's', .submit, .pressBusy (.char 'c'), .pressBusy (.char 'd'),
        .pressBusy .enter]
    let e := ({} : Editor).applyAll ops
    let walk : List Operation := [.type 'x', .turn .back, .type '!', .turn .back, .erase]
    let stop := (e.applyAll walk).apply (.turn .forth)
    let behind := stop.apply (.turn .forth)
    e.history = ["ls", "cd"] ∧ e.cursor = e.history.length ∧ (∀ op ∈ walk, op.Walks) ∧
      (e.applyAll walk).turn? .forth = some stop ∧ stop.cursor < e.history.length ∧
      stop.buffer = "cd" ∧ e.history[stop.cursor]? = some stop.buffer ∧
      stop.turn? .forth = some behind ∧ behind.cursor = e.history.length ∧
      behind.buffer = "x" ∧ e.LastLeft (walk ++ [.turn .forth]) behind.buffer := by
  intro ops e walk stop behind
  have hend : e.cursor = e.history.length := by decide +kernel
  have hw : ∀ op ∈ walk, op.Walks := by decide
  have hw' : ∀ op ∈ walk ++ [.turn .forth], op.Walks := by decide
  have hstop : (e.applyAll walk).turn? .forth = some stop := by decide +kernel
  have hin : stop.cursor < e.history.length := by decide +kernel
  have hbehind : stop.turn? .forth = some behind := by decide +kernel
  have hback : behind.cursor = e.history.length := by decide +kernel
  obtain ⟨-, -, -, -, hwalk⟩ := recall_shows_history_and_draft ops
  obtain ⟨-, hshows⟩ := hwalk hend walk hw
  obtain ⟨-, hdraft⟩ := hwalk hend (walk ++ [.turn .forth]) hw'
  exact ⟨by decide +kernel, hend, hw, hstop, hin, by decide +kernel,
    (hshows .forth stop hstop).1 hin, hbehind, hback, by decide +kernel,
    (hdraft .forth behind hbehind).2 hback⟩

end AgentShell.Editor
