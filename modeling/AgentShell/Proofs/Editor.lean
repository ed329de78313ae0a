import AgentShell.Editor
import AgentShell.Proofs.Screen

/-!
# Editors that hold printable texts

Where no control character is typed, no text of an editor has one: neither the typed line nor a
recalled one, nor the draft, nor a line that waits.

## Main definitions

* `Key.Printable`: a key that types no control character
* `Editor.Printable`: an editor whose texts are printable

## Main results

* `Editor.Printable.edit`, `Editor.Printable.press`, `Editor.Printable.pressBusy`: printable keys
  keep an editor printable
-/

namespace AgentShell

/-- A key that types no control character. -/
def Key.Printable : Key → Prop
  | .char c => Text.isControl c = false
  | _ => True

instance (k : Key) : Decidable k.Printable :=
  match k with
  | .char c => inferInstanceAs (Decidable (Text.isControl c = false))
  | .enter | .backspace | .up | .down => inferInstanceAs (Decidable True)

namespace Editor

/-- Every text of the editor is printable. -/
structure Printable (e : Editor) : Prop where
  buffer : Text.Printable e.buffer
  draft : Text.Printable e.draft
  history : ∀ line ∈ e.history, Text.Printable line
  queue : ∀ line ∈ e.queue, Text.Printable line

namespace Printable

variable {e : Editor}

theorem empty : ({} : Editor).Printable where
  buffer := Text.printable_empty
  draft := Text.printable_empty
  history := nofun
  queue := nofun

theorem type (h : e.Printable) {c : Char} (hc : Text.isControl c = false) :
    (e.type c).Printable :=
  { h with buffer := Text.printable_push.2 ⟨h.buffer, hc⟩ }

theorem erase? (h : e.Printable) : (e.erase?.getD e).Printable := by
  rw [getD_erase?]
  exact { h with buffer := h.buffer.init }

theorem submit (h : e.Printable) : e.submit.1.Printable := by
  unfold Editor.submit
  split
  · exact { h with buffer := Text.printable_empty, draft := Text.printable_empty }
  · refine { h with buffer := Text.printable_empty, draft := Text.printable_empty, history := ?_ }
    intro line hl
    rcases List.mem_append.1 hl with hl | hl
    · exact h.history line hl
    · exact List.mem_singleton.1 hl ▸ h.buffer

theorem getD_history (h : e.Printable) (i : Nat) : Text.Printable (e.history[i]?.getD "") := by
  cases hi : e.history[i]? with
  | none => exact Text.printable_empty
  | some line => exact h.history line (List.mem_of_getElem? hi)

theorem previous? (h : e.Printable) : (e.previous?.getD e).Printable := by
  unfold Editor.previous?
  split
  · exact h
  · refine { h with buffer := h.getD_history _, draft := ?_ }
    show Text.Printable (if _ then _ else _)
    split
    · exact h.buffer
    · exact h.draft

theorem next? (h : e.Printable) : (e.next?.getD e).Printable := by
  unfold Editor.next?
  split
  · exact h
  · split
    · exact { h with buffer := h.draft, draft := Text.printable_empty }
    · exact { h with buffer := h.getD_history _ }

theorem edit (h : e.Printable) {k : Key} (hk : k.Printable) : (e.edit k).1.Printable := by
  cases k with
  | char c => exact h.type hk
  | backspace => exact h.erase?
  | enter => exact h.submit
  | up | down => exact h

theorem press (h : e.Printable) {k : Key} (hk : k.Printable) : (e.press k).1.Printable := by
  cases k with
  | up => exact h.previous?
  | down => exact h.next?
  | char | backspace | enter => exact h.edit hk

theorem edit_snd (h : e.Printable) {k : Key} {line : String} (hl : line ∈ (e.edit k).2.toList) :
    Text.Printable line := by
  rw [Editor.edit_snd] at hl
  split at hl
  · obtain rfl : line = e.buffer := by simpa using hl
    exact h.buffer
  · cases hl

theorem pressBusy (h : e.Printable) {k : Key} (hk : k.Printable) :
    (e.pressBusy k).1.Printable := by
  rw [pressBusy_fst]
  refine { h.edit hk with queue := ?_ }
  intro line hl
  exact (List.mem_append.1 hl).elim (h.queue line) h.edit_snd

theorem of_queue_cons (h : e.Printable) {line : String} {rest : List String}
    (hq : e.queue = line :: rest) : ({ e with queue := rest } : Editor).Printable :=
  { h with queue := fun l hl => h.queue l (hq ▸ List.mem_cons_of_mem _ hl) }

end Printable

end Editor

end AgentShell
