import AgentShell.Keys.Line
import Mathlib.Tactic.SplitIfs

/-!
# What a terminal sends, read back

A terminal sends its keys in units: a character as itself, the erase key as one of two control
characters, an arrow key as an escape sequence. A line that is made of whole units is read unit by
unit: nothing is carried over from one to the next, so each means what it means alone, and reading
undoes sending. Of any other text, with sequences that are cut off or never opened, at least this is
certain: it is read as keys of a line with Enter at the end, and no control character is typed.

## Main definitions

* `LineMode.after`: the mode after some characters
* `LineMode.Reads`: characters that stand for keys, whatever is around them
* `TerminalUnit`: the units, with their characters and their meaning
* `Keyboard.sends`: what a terminal sends for a key
* `Key.InLine`: the keys that a line may hold

## Main results

* `LineMode.keys_append`: reading on from the mode that is reached
* `LineMode.Reads.flatMap`: pieces that are read one by one
* `TerminalUnit.reads`: a unit is read as its meaning
* `LineMode.inLine_of_mem_keys`: what may be read at all
* `keysOfLine_undoes_sending`: these together
-/

namespace AgentShell

/-! ## Reading characters one by one -/

namespace LineMode

variable {m : LineMode} {cs ds : List Char} {ks ls : List Key} {c : Char}

/-- The mode after some characters. -/
def after (m : LineMode) (cs : List Char) : LineMode :=
  cs.foldl (fun m c => (m.step c).1) m

@[simp] theorem after_nil (m : LineMode) : m.after [] = m := rfl

@[simp] theorem after_cons (m : LineMode) (c : Char) (cs : List Char) :
    m.after (c :: cs) = (m.step c).1.after cs := rfl

theorem after_append (m : LineMode) (cs ds : List Char) :
    m.after (cs ++ ds) = (m.after cs).after ds :=
  List.foldl_append

/-- **Reading on** from the mode that is reached. -/
theorem keys_append (m : LineMode) (cs ds : List Char) :
    m.keys (cs ++ ds) = m.keys cs ++ (m.after cs).keys ds := by
  induction cs generalizing m with
  | nil => rfl
  | cons c cs ih => rw [List.cons_append, keys, keys, ih, after_cons, List.append_assoc]

section Reads

/-- **Characters that stand for keys**, whatever is in front of them and behind them: they are read
from outside every sequence, and lead back there. -/
structure Reads (cs : List Char) (ks : List Key) : Prop where
  after_eq : ground.after cs = ground
  keys_eq : ground.keys cs = ks

theorem Reads.nil : Reads [] [] := ⟨rfl, rfl⟩

theorem Reads.append (h : Reads cs ks) (h' : Reads ds ls) : Reads (cs ++ ds) (ks ++ ls) where
  after_eq := by rw [after_append, h.after_eq, h'.after_eq]
  keys_eq := by rw [keys_append, h.after_eq, h.keys_eq, h'.keys_eq]

/-- **Pieces that are read one by one.** -/
theorem Reads.flatMap {α : Type} {text : α → List Char} {meaning : α → List Key} {as : List α}
    (h : ∀ a ∈ as, Reads (text a) (meaning a)) : Reads (as.flatMap text) (as.flatMap meaning) := by
  induction as with
  | nil => exact .nil
  | cons a as ih =>
    obtain ⟨ha, has⟩ := List.forall_mem_cons.1 h
    exact ha.append (ih has)

/-- **What stands behind whole pieces** is read as if it were alone. -/
theorem Reads.keysOfLine_append (h : Reads cs ks) (rest : List Char) :
    keysOfLine (cs ++ rest) = ks ++ keysOfLine rest := by
  rw [keysOfLine, keys_append, h.after_eq, h.keys_eq, List.append_assoc, keysOfLine]

theorem Reads.keysOfLine_eq (h : Reads cs ks) : keysOfLine cs = ks ++ [.enter] := by
  have hread := h.keysOfLine_append []
  rwa [List.append_nil] at hread

end Reads

section Step

theorem isFinal_iff : isFinal c = true ↔ '@' ≤ c ∧ c ≤ '~' := by
  simp [isFinal]

theorem plainStep_of_control (h : Text.isControl c = true)
    (hne : c ≠ '\x1b' ∧ c ≠ '\x7f' ∧ c ≠ '\x08') : plainStep c = (.ground, []) := by
  simp [plainStep, h, hne]

theorem plainStep_of_erase (h : c = '\x7f' ∨ c = '\x08') :
    plainStep c = (.ground, [.backspace]) := by
  rw [plainStep, if_pos h]

theorem plainStep_of_not_control (h : Text.isControl c = false) :
    plainStep c = (.ground, [.char c]) := by
  have hne : c ≠ '\x1b' ∧ c ≠ '\x7f' ∧ c ≠ '\x08' := by
    refine ⟨?_, ?_, ?_⟩ <;> (rintro rfl; revert h; decide)
  simp [plainStep, h, hne]

theorem reads_singleton (h : plainStep c = (.ground, ks)) : Reads [c] ks := by
  have hstep : step .ground c = (.ground, ks) := h
  constructor
  · rw [after_cons, hstep, after_nil]
  · rw [keys, hstep, keys, List.append_nil]

/-- The characters between the opening of a sequence and its final character change nothing. -/
theorem sequence_of_not_final (h : ∀ c ∈ cs, isFinal c = false) :
    sequence.after cs = sequence ∧ sequence.keys cs = [] := by
  induction cs with
  | nil => exact ⟨rfl, rfl⟩
  | cons c cs ih =>
    obtain ⟨hc, hcs⟩ := List.forall_mem_cons.1 h
    have hstep : step sequence c = (sequence, []) := by simp [step, hc]
    rw [after_cons, keys, hstep]
    exact ih hcs

/-- **An escape sequence** stands for the key of its final character. -/
theorem reads_sequence {opener final : Char} (ho : opener = '[' ∨ opener = 'O')
    (h : ∀ c ∈ cs, isFinal c = false) (hf : isFinal final = true) :
    Reads ('\x1b' :: opener :: (cs ++ [final])) (finalKey final) := by
  have hescape : step ground '\x1b' = (escape, []) := by decide
  have hopen : step escape opener = (sequence, []) := by rw [step, if_pos ho]
  have hclose : step sequence final = (ground, finalKey final) := by rw [step, if_pos hf]
  obtain ⟨hafter, hkeys⟩ := sequence_of_not_final h
  constructor
  · rw [after_cons, hescape, after_cons, hopen, after_append, hafter, after_cons, hclose, after_nil]
  · rw [keys, hescape, keys, hopen, keys_append, hkeys, hafter, keys, hclose, keys]
    simp

end Step

end LineMode

/-! ## What a terminal sends -/

section Units

/-- **What a terminal sends in one piece.** -/
inductive TerminalUnit where
  /-- A character as itself. -/
  | char (c : Char) (typed : Text.isControl c = false)
  /-- The control character of the erase key: delete or backspace. -/
  | erase (c : Char) (erases : c = '\x7f' ∨ c = '\x08')
  /-- An escape sequence: its opening, its parameters and its final character. -/
  | sequence (opener : Char) (parameters : List Char) (final : Char)
      (opens : opener = '[' ∨ opener = 'O') (inside : ∀ c ∈ parameters, ¬('@' ≤ c ∧ c ≤ '~'))
      (ends : '@' ≤ final ∧ final ≤ '~')
  /-- Another control character. -/
  | control (c : Char) (isControl : Text.isControl c = true)
      (other : c ≠ '\x1b' ∧ c ≠ '\x7f' ∧ c ≠ '\x08')

namespace TerminalUnit

/-- The characters of a unit. -/
def text : TerminalUnit → List Char
  | char c _ => [c]
  | erase c _ => [c]
  | sequence opener parameters final .. => '\x1b' :: opener :: (parameters ++ [final])
  | control c .. => [c]

/-- The key that a unit stands for, or none. -/
def meaning : TerminalUnit → List Key
  | char c _ => [.char c]
  | erase .. => [.backspace]
  | sequence _ _ final .. => if final = 'A' then [.up] else if final = 'B' then [.down] else []
  | control .. => []

/-- **A unit is read as its meaning**, whatever is around it. -/
theorem reads (u : TerminalUnit) : LineMode.Reads u.text u.meaning := by
  cases u with
  | char c h => exact LineMode.reads_singleton (LineMode.plainStep_of_not_control h)
  | erase c h => exact LineMode.reads_singleton (LineMode.plainStep_of_erase h)
  | sequence opener parameters final ho hp hf =>
    have hinside : ∀ c ∈ parameters, LineMode.isFinal c = false := by
      intro c hc
      rw [← Bool.not_eq_true, LineMode.isFinal_iff]
      exact hp c hc
    exact LineMode.reads_sequence ho hinside (LineMode.isFinal_iff.2 hf)
  | control c h hne => exact LineMode.reads_singleton (LineMode.plainStep_of_control h hne)

end TerminalUnit

end Units

/-! ## Sending keys -/

section Sending

/-- The set-up of a terminal: what its erase key sends, and what opens the sequences of its arrow
keys. -/
structure Keyboard where
  eraser : Char
  opener : Char
  erases : eraser = '\x7f' ∨ eraser = '\x08'
  opens : opener = '[' ∨ opener = 'O'

/-- The characters that a terminal sends for a key. -/
def Keyboard.sends (b : Keyboard) : Key → List Char
  | .char c => [c]
  | .enter => ['\r']
  | .backspace => [b.eraser]
  | .up => ['\x1b', b.opener, 'A']
  | .down => ['\x1b', b.opener, 'B']

/-- **The keys that a line may hold**: all but Enter, and no control character is typed. -/
def Key.InLine : Key → Prop
  | .char c => Text.isControl c = false
  | .enter => False
  | .backspace | .up | .down => True

instance : DecidablePred Key.InLine
  | .char c => inferInstanceAs (Decidable (Text.isControl c = false))
  | .enter => inferInstanceAs (Decidable False)
  | .backspace | .up | .down => inferInstanceAs (Decidable True)

/-- **A key of a line is sent as a unit** that stands for it. -/
theorem Keyboard.exists_unit (b : Keyboard) {k : Key} (h : k.InLine) :
    ∃ u : TerminalUnit, u.text = b.sends k ∧ u.meaning = [k] := by
  cases k with
  | char c => exact ⟨.char c h, rfl, rfl⟩
  | enter => exact h.elim
  | backspace => exact ⟨.erase b.eraser b.erases, rfl, rfl⟩
  | up => exact ⟨.sequence b.opener [] 'A' b.opens (by simp) (by decide), rfl, rfl⟩
  | down => exact ⟨.sequence b.opener [] 'B' b.opens (by simp) (by decide), rfl, rfl⟩

theorem Keyboard.reads_sends (b : Keyboard) {k : Key} (h : k.InLine) :
    LineMode.Reads (b.sends k) [k] := by
  obtain ⟨u, ht, hm⟩ := b.exists_unit h
  rw [← ht, ← hm]
  exact u.reads

end Sending

/-! ## Any text -/

section Anything

namespace LineMode

variable {k : Key} {c : Char}

theorem inLine_of_mem_plainStep (h : k ∈ (plainStep c).2) : k.InLine := by
  rw [plainStep] at h
  split_ifs at h with he hs hc
  · rw [List.mem_singleton.1 h]
    trivial
  · cases h
  · cases h
  · rw [List.mem_singleton.1 h]
    simpa [Key.InLine] using hc

/-- One character completes keys of a line only, in whatever mode it stands. -/
theorem inLine_of_mem_step {m : LineMode} (h : k ∈ (m.step c).2) : k.InLine := by
  cases m with
  | ground => exact inLine_of_mem_plainStep h
  | escape =>
    rw [step] at h
    split_ifs at h with ho
    · cases h
    · exact inLine_of_mem_plainStep h
  | sequence =>
    rw [step, finalKey] at h
    split_ifs at h with hf ha hb
    · rw [List.mem_singleton.1 h]
      trivial
    · rw [List.mem_singleton.1 h]
      trivial
    · cases h
    · cases h

/-- **What may be read at all**: of any characters only keys of a line are read. -/
theorem inLine_of_mem_keys {m : LineMode} {cs : List Char} (h : k ∈ m.keys cs) : k.InLine := by
  induction cs generalizing m with
  | nil => cases h
  | cons c cs ih =>
    rcases List.mem_append.1 h with h | h
    · exact inLine_of_mem_step h
    · exact ih h

end LineMode

end Anything

/-- **Reading a line undoes sending it.** Whole units are read as their meanings in turn, with Enter
at the end, and what stands behind them is read as if it were alone. Whatever a line holds,
sequences that are cut off included, it is read as keys with Enter at the end, and neither Enter nor
a control character is among them. So the keys of a line that a terminal sends, however it is set
up, are read back as they were. -/
theorem keysOfLine_undoes_sending :
    (∀ units : List TerminalUnit,
      keysOfLine (units.flatMap TerminalUnit.text) =
        units.flatMap TerminalUnit.meaning ++ [.enter]) ∧
    (∀ (units : List TerminalUnit) (rest : List Char),
      keysOfLine (units.flatMap TerminalUnit.text ++ rest) =
        units.flatMap TerminalUnit.meaning ++ keysOfLine rest) ∧
    (∀ line, ∃ keys, keysOfLine line = keys ++ [.enter] ∧ .enter ∉ keys ∧
      ∀ c, .char c ∈ keys → Text.isControl c = false) ∧
    ∀ (b : Keyboard) (keys : List Key), (∀ k ∈ keys, k.InLine) →
      keysOfLine (keys.flatMap b.sends) = keys ++ [.enter] := by
  have hunits (units : List TerminalUnit) :
      LineMode.Reads (units.flatMap TerminalUnit.text) (units.flatMap TerminalUnit.meaning) :=
    .flatMap fun u _ => u.reads
  refine ⟨fun units => (hunits units).keysOfLine_eq,
    fun units rest => (hunits units).keysOfLine_append rest, ?_, ?_⟩
  · intro line
    exact ⟨_, rfl, fun h => LineMode.inLine_of_mem_keys h, fun c h => LineMode.inLine_of_mem_keys h⟩
  · intro b keys h
    have hread : LineMode.Reads (keys.flatMap b.sends) (keys.flatMap fun k => [k]) :=
      .flatMap fun k hk => b.reads_sends (h k hk)
    rw [hread.keysOfLine_eq, List.flatMap_singleton']

/-- On a terminal that sends the other forms, brackets and letters that are typed are not mixed up
with those of the sequences around them. A sequence may hold control characters, and of one that is
cut off nothing is read, but all that stands in front of it. -/
theorem keysOfLine_undoes_sending_of_brackets :
    let b : Keyboard := ⟨'\x08', 'O', .inr rfl, .inr rfl⟩
    let keys : List Key := [.char '[', .up, .char 'A', .backspace, .down]
    (∀ k ∈ keys, k.InLine) ∧
      keys.flatMap b.sends = ['[', '\x1b', 'O', 'A', 'A', '\x08', '\x1b', 'O', 'B'] ∧
      keysOfLine (keys.flatMap b.sends) = keys ++ [.enter] ∧
      ∃ u : TerminalUnit, u.text = ['\x1b', '[', '1', '\x1b', '\n', 'B'] ∧
        keysOfLine (u.text ++ ['\x1b', '[', '2']) = [.down, .enter] := by
  intro b keys
  obtain ⟨-, hrest, -, hsend⟩ := keysOfLine_undoes_sending
  have hk : ∀ k ∈ keys, k.InLine := by decide
  let u : TerminalUnit := .sequence '[' ['1', '\x1b', '\n'] 'B' (.inl rfl) (by simp) (by decide)
  exact ⟨hk, rfl, hsend b keys hk, u, rfl, hrest [u] ['\x1b', '[', '2']⟩

end AgentShell
