import AgentShell.Proofs.Text.OneLine
import AgentShell.Session

/-!
# Outputs on a terminal

A session closes each line of an output with a carriage return and a line feed. Colours and the
marks of a role add no line feeds, so a line is on one line of the terminal if its text without
styling is. Then the line feeds that are sent are those of the line ends, whatever the output asks
of the session.

## Main definitions

* `Output.IsSingleSpaced`: each line of an output is on one line

## Main results

* `Style.isOneLine_line_iff`: a line and the text that is drawn for it
* `Session.terminalText_present`: what is sent for an output
* `Session.count_feeds_present_iff`, `Session.not_hasBareFeed_present`: the line feeds in it
-/

namespace AgentShell

open Text (IsOneLine closeLines)

/-- **Each line of an output is on one line**: its text without styling has no line feed. -/
def Output.IsSingleSpaced (o : Output) : Prop :=
  ∀ l ∈ o.lines, IsOneLine l.plain

instance (o : Output) : Decidable o.IsSingleSpaced :=
  inferInstanceAs (Decidable (∀ _ ∈ _, _))

section Style

variable {text : String} {entries : List Entry}

@[simp] theorem Color.isOneLine_paint_iff (c : Color) :
    IsOneLine (c.paint text) ↔ IsOneLine text := by
  have hon : IsOneLine ("\x1b[" ++ c.code ++ "m") := by cases c <;> decide
  exact Text.isOneLine_between hon (by decide)

@[simp] theorem Entry.isOneLine_label_iff (e : Entry) : IsOneLine e.label ↔ IsOneLine e.name := by
  have hslash : IsOneLine "/" := by decide
  rw [label]
  cases e.kind <;> simp [hslash]

theorem OutputLine.isOneLine_listing_iff :
    IsOneLine (plain (.listing entries)) ↔ ∀ e ∈ entries, IsOneLine e.name := by
  rw [plain, Text.isOneLine_intercalate_iff (by decide)]
  simp

/-- **What is drawn for a line** is on one line if the line is, in colours or without. -/
theorem Style.isOneLine_line_iff (s : Style) (l : OutputLine) :
    IsOneLine (s.line l) ↔ IsOneLine l.plain := by
  rw [line]
  split
  case isFalse => rfl
  case isTrue =>
    cases l with
    | text t => rfl
    | heading t => exact Color.isOneLine_paint_iff _
    | labeled label t => simp [colored, OutputLine.plain]
    | status t =>
      have hmark : IsOneLine (Color.yellow.paint "STATUS:" ++ " ") := by decide
      exact (Text.isOneLine_behind hmark).trans (Text.isOneLine_behind (by decide)).symm
    | listing entries =>
      rw [OutputLine.isOneLine_listing_iff, colored, Text.isOneLine_intercalate_iff (by decide)]
      simp
    | error t => exact Color.isOneLine_paint_iff _

end Style

namespace Session

variable {s : Session} {o : Output}

/-- **What is sent for an output**: what its effects send, and then its lines, each with a carriage
return and a line feed behind it. -/
theorem terminalText_present (s : Session) (o : Output) :
    terminalText (s.present o).2 =
      terminalText (o.effects.flatMap effectCalls) ++ closeLines (o.lines.map s.style.line) := by
  simp [present, outputCalls, terminalText, closeLines, DisplayCall.terminal, Function.comp_def]

theorem isOneLine_terminalText_effects (effects : List Effect) :
    IsOneLine (terminalText (effects.flatMap effectCalls)) := by
  induction effects with
  | nil => decide
  | cons e effects ih =>
    have hclear : IsOneLine (DisplayCall.terminal .clear) := by decide
    cases e <;> simp_all [terminalText, effectCalls]

theorem forall_mem_lines_iff (style : Style) :
    (∀ t ∈ o.lines.map style.line, IsOneLine t) ↔ o.IsSingleSpaced := by
  simp [Output.IsSingleSpaced, Style.isOneLine_line_iff]

/-- **As many line feeds are sent as the output has lines** where each line is on one line, and only
there. -/
theorem count_feeds_present_iff :
    (terminalText (s.present o).2).toList.count '\n' = o.lines.length ↔ o.IsSingleSpaced := by
  have heffects : (terminalText (o.effects.flatMap effectCalls)).toList.count '\n' = 0 :=
    List.count_eq_zero.2 (isOneLine_terminalText_effects o.effects)
  rw [terminalText_present, String.toList_append, List.count_append, heffects, Nat.zero_add,
    ← forall_mem_lines_iff s.style, ← Text.count_closeLines_eq_length_iff, List.length_map]

/-- **No bare line feed is sent** for an output each line of which is on one line. -/
theorem not_hasBareFeed_present (h : o.IsSingleSpaced) :
    ¬Text.HasBareFeed (terminalText (s.present o).2) := by
  have hlines := (forall_mem_lines_iff s.style).2 h
  rw [terminalText_present]
  refine Text.not_hasBareFeed_append (isOneLine_terminalText_effects o.effects).not_hasBareFeed
    (Text.not_hasBareFeed_closeLines hlines) ?_
  exact Text.head?_closeLines_ne hlines

end Session

end AgentShell
