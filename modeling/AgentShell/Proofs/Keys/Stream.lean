import AgentShell.Keys.Stream
import AgentShell.Proofs.Keys.Line
import AgentShell.Proofs.Text.Utf8
import Mathlib.Data.List.Induction

/-!
# Keys of an input, line by line

However an input is cut into pieces, and wherever reading it is interrupted, it stands for the keys
of its lines: octets are collected up to a line feed, and only then decoded and trimmed. Since a
line feed is a boundary of the decoder and line ends type nothing, these are the lines of the text
of the whole input. Of an input that breaks off the complete lines count and nothing else.

## Main definitions

* `Text.completeLines`, `Text.unfinished`, `Text.lines`: the lines of a text
* `octetsOf`: the octets of an input
* `SameButReturns`: two inputs that differ in the form of their line ends

## Main results

* `keysOfOctets_eq`, `keysOfOctets_concat`: line ends type nothing
* `readOctets_append`, `readOctets_eq`: reading on, and what is read in the end
* `SameButReturns.readOctets_eq`: the form of line ends makes no difference
* `keysOfStream_eq_keys_of_lines`: the keys of an input are those of its lines
-/

namespace AgentShell

/-! ## Lines of a text -/

namespace Text

variable {α : Type} [BEq α]

/-- The lines that a separator ends. -/
def completeLines (sep : α) (cs : List α) : List (List α) :=
  (cs.splitOn sep).dropLast

/-- What stands behind the last separator. -/
def unfinished (sep : α) (cs : List α) : List α :=
  (cs.splitOn sep).getLastD []

/-- **The lines of a text**: those that a separator ends, and what stands behind the last one unless
it is empty. -/
def lines (sep : α) (cs : List α) : List (List α) :=
  completeLines sep cs ++ if (unfinished sep cs).isEmpty then [] else [unfinished sep cs]

variable [LawfulBEq α] {sep : α} {as bs : List α}

theorem completeLines_of_not_mem (h : sep ∉ as) : completeLines sep as = [] := by
  rw [completeLines, List.splitOn_eq_singleton h]
  rfl

theorem unfinished_of_not_mem (h : sep ∉ as) : unfinished sep as = as := by
  rw [unfinished, List.splitOn_eq_singleton h]
  rfl

theorem completeLines_append_cons (h : sep ∉ as) (bs : List α) :
    completeLines sep (as ++ sep :: bs) = as :: completeLines sep bs := by
  rw [completeLines, List.splitOn_append_cons_self, List.splitOn_eq_singleton h,
    List.singleton_append, List.dropLast_cons_of_ne_nil (List.splitOn_ne_nil _ _)]
  rfl

theorem unfinished_append_cons (h : sep ∉ as) (bs : List α) :
    unfinished sep (as ++ sep :: bs) = unfinished sep bs := by
  rw [unfinished, List.splitOn_append_cons_self, List.splitOn_eq_singleton h,
    List.singleton_append, unfinished]
  obtain ⟨first, rest, hs⟩ := List.exists_cons_of_ne_nil (List.splitOn_ne_nil sep bs)
  rw [hs]
  rfl

end Text

/-! ## Line ends -/

section LineEnd

theorem LineMode.keys_concat {c : Char} (hc : c = '\n' ∨ c = '\r') (m : LineMode)
    (cs : List Char) : m.keys (cs ++ [c]) = m.keys cs := by
  have hc' : (m.after cs).keys [c] = [] := by
    rcases hc with rfl | rfl <;> cases m.after cs <;> rfl
  rw [keys_append, hc', List.append_nil]

theorem keysOfLine_concat {c : Char} (hc : c = '\n' ∨ c = '\r') (line : List Char) :
    keysOfLine (line ++ [c]) = keysOfLine line := by
  rw [keysOfLine, LineMode.keys_concat hc, keysOfLine]

/-- **Trimming the end of a line** changes none of its keys, an unfinished escape sequence at the
end included. -/
theorem keysOfLine_trimLineEnd (line : List Char) :
    keysOfLine (trimLineEnd line) = keysOfLine line := by
  induction line using List.reverseRecOn with
  | nil => rfl
  | append_singleton cs c ih =>
    by_cases hc : c = '\n' ∨ c = '\r'
    · have ht : trimLineEnd (cs ++ [c]) = trimLineEnd cs := by
        rcases hc with rfl | rfl <;> simp [trimLineEnd]
      rw [ht, ih, keysOfLine_concat hc]
    · rw [not_or] at hc
      simp [trimLineEnd, hc]

theorem keysOfOctets_eq (line : List UInt8) :
    keysOfOctets line = keysOfLine (Text.Utf8.decode line) :=
  keysOfLine_trimLineEnd _

/-- The octet of a carriage return. -/
def carriageReturn : UInt8 := 13

/-- **Line ends type nothing.** -/
theorem keysOfOctets_concat {b : UInt8} (h : b = lineFeed ∨ b = carriageReturn)
    (line : List UInt8) : keysOfOctets (line ++ [b]) = keysOfOctets line := by
  have hb : b.toNat ≤ 0x7F := by rcases h with rfl | rfl <;> decide
  rw [keysOfOctets_eq, Text.Utf8.decode_append_ascii hb, Text.Utf8.decode_nil, keysOfLine_concat,
    keysOfOctets_eq]
  rcases h with rfl | rfl <;> decide

end LineEnd

/-! ## Lines of octets -/

section Read

theorem readOctets_lineFeed (line bs : List UInt8) :
    readOctets line (lineFeed :: bs) =
      (keysOfOctets line ++ (readOctets [] bs).1, (readOctets [] bs).2) := by
  rw [readOctets, if_pos rfl, keysOfOctets_concat (.inl rfl)]

theorem readOctets_of_ne {b : UInt8} (h : b ≠ lineFeed) (line bs : List UInt8) :
    readOctets line (b :: bs) = readOctets (line ++ [b]) bs := by
  rw [readOctets, if_neg h]

/-- **Reading on** from where a piece of the input has led. -/
theorem readOctets_append (line as bs : List UInt8) :
    readOctets line (as ++ bs) =
      ((readOctets line as).1 ++ (readOctets (readOctets line as).2 bs).1,
        (readOctets (readOctets line as).2 bs).2) := by
  induction as generalizing line with
  | nil => rfl
  | cons a as ih =>
    rw [List.cons_append]
    by_cases ha : a = lineFeed
    · rw [ha, readOctets_lineFeed, readOctets_lineFeed, ih, List.append_assoc]
    · rw [readOctets_of_ne ha, readOctets_of_ne ha, ih]

/-- **What is read in the end**: the keys of the complete lines, and the octets of the last one. -/
theorem readOctets_eq {line : List UInt8} (h : lineFeed ∉ line) (bs : List UInt8) :
    readOctets line bs =
      ((Text.completeLines lineFeed (line ++ bs)).flatMap keysOfOctets,
        Text.unfinished lineFeed (line ++ bs)) := by
  induction bs generalizing line with
  | nil => simp [readOctets, Text.completeLines_of_not_mem h, Text.unfinished_of_not_mem h]
  | cons b bs ih =>
    by_cases hb : b = lineFeed
    · rw [hb, readOctets_lineFeed, ih List.not_mem_nil, Text.completeLines_append_cons h,
        Text.unfinished_append_cons h, List.flatMap_cons, List.nil_append]
    · have hl : lineFeed ∉ line ++ [b] := by simp [h, Ne.symm hb]
      rw [readOctets_of_ne hb, ih hl, List.append_assoc, List.singleton_append]

/-- **The form of line ends**: two inputs that differ in carriage returns in front of line feeds
only. -/
inductive SameButReturns : List UInt8 → List UInt8 → Prop where
  | nil : SameButReturns [] []
  | octet (b : UInt8) {as bs : List UInt8} (h : SameButReturns as bs) :
      SameButReturns (b :: as) (b :: bs)
  | lineEnd {as bs : List UInt8} (h : SameButReturns as bs) :
      SameButReturns (carriageReturn :: lineFeed :: as) (lineFeed :: bs)

theorem SameButReturns.refl (bs : List UInt8) : SameButReturns bs bs := by
  induction bs with
  | nil => exact .nil
  | cons b bs ih => exact .octet b ih

/-- **The form of line ends makes no difference.** -/
theorem SameButReturns.readOctets_eq {as bs : List UInt8} (h : SameButReturns as bs)
    (line : List UInt8) : readOctets line as = readOctets line bs := by
  induction h generalizing line with
  | nil => rfl
  | octet b _ ih =>
    by_cases hb : b = lineFeed
    · rw [hb, readOctets_lineFeed, readOctets_lineFeed, ih]
    · rw [readOctets_of_ne hb, readOctets_of_ne hb, ih]
  | lineEnd _ ih =>
    rw [readOctets_of_ne (by decide), readOctets_lineFeed, readOctets_lineFeed, ih,
      keysOfOctets_concat (.inr rfl)]

end Read

/-! ## Octets that arrive in pieces -/

section Arrivals

/-- The octets of an input. -/
def octetsOf (arrivals : List Arrival) : List UInt8 :=
  arrivals.flatMap fun
    | .octets bs => bs
    | .interrupted => []
    | .failed => []

variable {arrivals before : List Arrival}

theorem octetsOf_octets (bs : List UInt8) (arrivals : List Arrival) :
    octetsOf (.octets bs :: arrivals) = bs ++ octetsOf arrivals := rfl

theorem octetsOf_interrupted (arrivals : List Arrival) :
    octetsOf (.interrupted :: arrivals) = octetsOf arrivals := rfl

/-- **The keys of an input that does not break off**: it is read as one piece, and the last line
counts unless it is empty. -/
theorem keysOfArrivals_eq (h : .failed ∉ arrivals) (line : List UInt8) :
    keysOfArrivals line arrivals =
      (readOctets line (octetsOf arrivals)).1 ++
        if (readOctets line (octetsOf arrivals)).2 = [] then []
        else keysOfOctets (readOctets line (octetsOf arrivals)).2 := by
  induction arrivals generalizing line with
  | nil => rfl
  | cons a rest ih =>
    have hrest : .failed ∉ rest := fun hm => h (List.mem_cons_of_mem _ hm)
    cases a with
    | octets bs =>
      rw [keysOfArrivals, ih hrest, octetsOf_octets, readOctets_append, List.append_assoc]
    | interrupted => rw [keysOfArrivals, ih hrest, octetsOf_interrupted]
    | failed => exact absurd List.mem_cons_self h

/-- **The keys of an input that breaks off**: the last line does not count. -/
theorem keysOfArrivals_of_failed (h : .failed ∉ before) (line : List UInt8)
    (after : List Arrival) :
    keysOfArrivals line (before ++ .failed :: after) = (readOctets line (octetsOf before)).1 := by
  induction before generalizing line with
  | nil => rfl
  | cons a rest ih =>
    have hrest : .failed ∉ rest := fun hm => h (List.mem_cons_of_mem _ hm)
    cases a with
    | octets bs =>
      rw [List.cons_append, keysOfArrivals, ih hrest, octetsOf_octets, readOctets_append]
    | interrupted => rw [List.cons_append, keysOfArrivals, ih hrest, octetsOf_interrupted]
    | failed => exact absurd List.mem_cons_self h

end Arrivals

/-! ## Octets and their text -/

section Lines

open Text (completeLines unfinished lines)
open Text.Utf8 (decode)

variable (bs : List UInt8)

theorem splitOn_newline_decode :
    (decode bs).splitOn '\n' = (bs.splitOn lineFeed).map decode :=
  Text.Utf8.splitOn_decode (b := lineFeed) (by decide) (by decide) bs

theorem completeLines_decode :
    completeLines '\n' (decode bs) = (completeLines lineFeed bs).map decode := by
  rw [completeLines, splitOn_newline_decode, ← List.map_dropLast, completeLines]

theorem unfinished_decode :
    unfinished '\n' (decode bs) = decode (unfinished lineFeed bs) := by
  rw [unfinished, splitOn_newline_decode, unfinished, List.getLastD_eq_getLast?,
    List.getLastD_eq_getLast?, List.getLast?_map]
  cases (bs.splitOn lineFeed).getLast? <;> rfl

/-- The keys of the complete lines of octets are those of the complete lines of their text. -/
theorem flatMap_keysOfOctets_completeLines :
    (completeLines lineFeed bs).flatMap keysOfOctets =
      (completeLines '\n' (decode bs)).flatMap keysOfLine := by
  rw [completeLines_decode, List.flatMap_map]
  exact List.flatMap_congr fun line _ => keysOfOctets_eq line

/-- **The keys of an input are those of its lines.** -/
theorem keysOfStream_eq {arrivals : List Arrival} (h : .failed ∉ arrivals) :
    keysOfStream arrivals = (lines '\n' (decode (octetsOf arrivals))).flatMap keysOfLine := by
  rw [keysOfStream, keysOfArrivals_eq h, readOctets_eq List.not_mem_nil, List.nil_append, lines,
    List.flatMap_append, flatMap_keysOfOctets_completeLines, unfinished_decode]
  by_cases hu : unfinished lineFeed (octetsOf arrivals) = []
  · simp [hu]
  · simp [hu, Text.Utf8.decode_eq_nil_iff, keysOfOctets_eq]

/-- Of an input that breaks off the complete lines count. -/
theorem keysOfStream_of_failed {before : List Arrival} (h : .failed ∉ before)
    (after : List Arrival) :
    keysOfStream (before ++ .failed :: after) =
      (completeLines '\n' (decode (octetsOf before))).flatMap keysOfLine := by
  rw [keysOfStream, keysOfArrivals_of_failed h, readOctets_eq List.not_mem_nil, List.nil_append,
    flatMap_keysOfOctets_completeLines]

/-- **The keys of an input are those of the lines of its text**, however its octets arrive and
wherever reading is interrupted: the whole input is decoded and cut at its line feeds, and a last
line without one counts unless it is empty. Of octets that encode a text, these are the lines of
that text. Two inputs whose octets differ in carriage returns in front of line feeds only have the
same keys. If reading fails, the keys are those of the complete lines that came before, and nothing
of the last line. -/
theorem keysOfStream_eq_keys_of_lines :
    (∀ arrivals, Arrival.failed ∉ arrivals →
      keysOfStream arrivals = (lines '\n' (decode (octetsOf arrivals))).flatMap keysOfLine) ∧
    (∀ arrivals (s : String), Arrival.failed ∉ arrivals → octetsOf arrivals = Text.octets s →
      keysOfStream arrivals = (lines '\n' s.toList).flatMap keysOfLine) ∧
    (∀ a b, Arrival.failed ∉ a → Arrival.failed ∉ b → SameButReturns (octetsOf a) (octetsOf b) →
      keysOfStream a = keysOfStream b) ∧
    ∀ before after, Arrival.failed ∉ before →
      keysOfStream (before ++ .failed :: after) =
        (completeLines '\n' (decode (octetsOf before))).flatMap keysOfLine := by
  refine ⟨fun _ => keysOfStream_eq, ?_, ?_, fun _ after h => keysOfStream_of_failed h after⟩
  · intro arrivals s h hs
    rw [keysOfStream_eq h, hs, Text.Utf8.decode_octets]
  · intro a b ha hb hab
    rw [keysOfStream, keysOfStream, keysOfArrivals_eq ha, keysOfArrivals_eq hb,
      hab.readOctets_eq]

/-- A euro sign and an escape sequence are cut, with an interruption between, and the line end is
that of another system: the keys are those of the text in one piece. When reading fails the second
line does not count, though it is the same text. -/
theorem keysOfStream_of_pieces :
    let pieces : List Arrival :=
      [.octets [0x6C, 0xE2], .interrupted, .octets [0x82, 0xAC, 0x0D], .octets [0x0A, 0x1B],
        .octets [0x5B, 0x41]]
    let whole : List Arrival := [.octets [0x6C, 0xE2, 0x82, 0xAC, 0x0A, 0x1B, 0x5B, 0x41]]
    Arrival.failed ∉ pieces ∧ Arrival.failed ∉ whole ∧
      octetsOf whole = Text.octets "l€\n\x1b[A" ∧
      SameButReturns (octetsOf pieces) (octetsOf whole) ∧
      keysOfStream pieces = [.char 'l', .char '€', .enter, .up, .enter] ∧
      keysOfStream whole = [.char 'l', .char '€', .enter, .up, .enter] ∧
      keysOfStream pieces = keysOfStream whole ∧
      keysOfStream (pieces ++ [.failed]) = [.char 'l', .char '€', .enter] := by
  intro pieces whole
  obtain ⟨hlines, htext, hreturns, hfailed⟩ := keysOfStream_eq_keys_of_lines
  have hp : Arrival.failed ∉ pieces := by decide
  have hw : Arrival.failed ∉ whole := by decide
  have hs : octetsOf whole = Text.octets "l€\n\x1b[A" := by
    rw [Text.octets_eq_flatMap]
    decide
  have hr : SameButReturns (octetsOf pieces) (octetsOf whole) :=
    .octet _ (.octet _ (.octet _ (.octet _ (.lineEnd (.refl _)))))
  refine ⟨hp, hw, hs, hr, ?_, ?_, hreturns pieces whole hp hw hr, ?_⟩
  · rw [hlines pieces hp]
    decide
  · rw [htext whole _ hw hs]
    decide
  · rw [hfailed pieces [] hp]
    decide

end Lines

end AgentShell
