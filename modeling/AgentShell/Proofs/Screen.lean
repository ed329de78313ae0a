import AgentShell.Display

/-!
# Screens and printable text

A text without control characters is shown as it is, and erasing as many characters as it has takes
it back, whatever stands in front of it.

## Main definitions

* `Text.Printable`: a text without control characters

## Main results

* `Screen.put_printable`: a printable text is appended
* `Screen.put_eraseChar`, `Screen.put_repeatText_eraseChar`: erasing takes back what was appended
-/

namespace AgentShell

namespace Text

/-- No character is a control character. -/
def Printable (s : String) : Prop :=
  ∀ c ∈ s.toList, isControl c = false

theorem printable_empty : Printable "" := by
  intro c h
  simp at h

theorem printable_push {s : String} {c : Char} :
    Printable (s.push c) ↔ Printable s ∧ isControl c = false := by
  simp only [Printable, String.toList_push, List.mem_append, List.mem_singleton]
  constructor
  · exact fun h => ⟨fun d hd => h d (.inl hd), h c (.inr rfl)⟩
  · rintro ⟨hs, hc⟩ d (hd | rfl)
    · exact hs d hd
    · exact hc

theorem Printable.init {s : String} (h : Printable s) : Printable (Text.init s) := by
  intro c hc
  rw [toList_init] at hc
  exact h c (List.dropLast_subset _ hc)

@[simp] theorem init_push (s : String) (c : Char) : Text.init (s.push c) = s :=
  String.toList_injective (by simp)

/-- A text that is not empty is its `init` and a character. -/
theorem exists_eq_push {s : String} (h : s ≠ "") : ∃ c, s = (Text.init s).push c := by
  induction s using String.push_induction with
  | empty => exact absurd rfl h
  | push s c => exact ⟨c, by rw [init_push]⟩

theorem append_push (s t : String) (c : Char) : s ++ t.push c = (s ++ t).push c :=
  String.toList_injective (by simp)

theorem ne_backspace_of_not_control {c : Char} (h : isControl c = false) : c ≠ '\x08' := by
  rintro rfl
  exact absurd h (by decide)

theorem ne_newline_of_not_control {c : Char} (h : isControl c = false) : c ≠ '\n' := by
  rintro rfl
  exact absurd h (by decide)

end Text

theorem repeatText_succ (n : Nat) (s : String) : repeatText (n + 1) s = s ++ repeatText n s := by
  simp [repeatText, List.replicate_succ]

namespace Screen

theorem put_append (s : Screen) (t u : String) : s.put (t ++ u) = (s.put t).put u := by
  simp [put]

@[simp] theorem put_empty (s : Screen) : s.put "" = s := by
  simp [put]

theorem put_push (s : Screen) (t : String) (c : Char) : s.put (t.push c) = (s.put t).putChar c := by
  simp [put]

@[simp] theorem drawAll_nil (s : Screen) : s.drawAll [] = s := rfl

@[simp] theorem drawAll_cons (s : Screen) (c : DisplayCall) (cs : List DisplayCall) :
    s.drawAll (c :: cs) = (s.draw c).drawAll cs := rfl

@[simp] theorem drawAll_append (s : Screen) (cs ds : List DisplayCall) :
    s.drawAll (cs ++ ds) = (s.drawAll cs).drawAll ds :=
  List.foldl_append

theorem putChar_of_ne (s : Screen) {c : Char} (h : c ≠ '\x08') : s.putChar c = ⟨s.text.push c⟩ :=
  if_neg h

/-- **A printable text is appended.** -/
theorem put_printable (s : Screen) {t : String} (h : Text.Printable t) :
    s.put t = ⟨s.text ++ t⟩ := by
  induction t using String.push_induction with
  | empty => simp
  | push t c ih =>
    obtain ⟨ht, hc⟩ := Text.printable_push.1 h
    rw [put_push, ih ht, putChar_of_ne _ (Text.ne_backspace_of_not_control hc),
      Text.append_push]

theorem putChar_backspace (t : String) {c : Char} (h : c ≠ '\n') :
    putChar ⟨t.push c⟩ '\x08' = ⟨t⟩ := by
  simp [putChar, h]

/-- **Erasing takes back a character**: back, a blank over it, and back again. -/
theorem put_eraseChar (t : String) {c : Char} (h : c ≠ '\n') :
    put ⟨t.push c⟩ eraseChar = ⟨t⟩ := by
  have he : eraseChar.toList = ['\x08', ' ', '\x08'] := by decide
  rw [put, he, List.foldl_cons, List.foldl_cons, List.foldl_cons, List.foldl_nil,
    putChar_backspace t h, putChar_of_ne ⟨t⟩ (c := ' ') (by decide),
    putChar_backspace t (by decide)]

/-- **Erasing takes back a printable text**, whatever stands in front of it. -/
theorem put_repeatText_eraseChar (t : String) {u : String} (h : Text.Printable u) :
    put ⟨t ++ u⟩ (repeatText u.length eraseChar) = ⟨t⟩ := by
  -- Induction from the end of the text, where erasing begins.
  induction u using String.push_induction with
  | empty => simp [repeatText]
  | push u c ih =>
    obtain ⟨hu, hc⟩ := Text.printable_push.1 h
    rw [String.length_push, repeatText_succ, put_append, Text.append_push,
      put_eraseChar _ (Text.ne_newline_of_not_control hc), ih hu]

end Screen

end AgentShell
