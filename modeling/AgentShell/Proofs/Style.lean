import AgentShell.Proofs.Text.Rendition
import AgentShell.Style
import Mathlib.Data.List.Basic

/-!
# One layout for both styles

A line of output is laid out in spans, each with the colour of its role or without one, and so is
the prompt. Either style draws the spans one after another, so what they draw differs only in the
sequences around the spans with a colour. Texts without escape characters begin no sequence and are
no part of one. So without its sequences, a line in colours is the plain line.

## Main definitions

* `Span`, `Span.drawAll`: a part of a line that is drawn alike, and spans as a style draws them
* `OutputLine.spans`, `OutputLine.colors`, `Style.promptSpans`: the layout of a line with its
  colours, and that of a prompt
* `OutputLine.texts`: the texts that a line is given

## Main results

* `Style.line_eq_drawAll`, `Style.prompt_eq_drawAll`: either style draws the layout
* `Span.pieces_drawAll`: what is sent for spans in colours
* `Span.visible_drawAll`, `Span.sequences_drawAll`, `Span.isSwitchedOff_drawAll`: what is left of it
  without the sequences, and what the sequences select
* `Style.plain_without_colors`: the same for every line and every prompt
-/

namespace AgentShell

open Rendition (Piece visible sequences IsSwitchedOff off)

/-! ## Colours -/

namespace Color

/-- The parameters of the sequences around a text in a colour. -/
def switches (c : Color) : List String :=
  [c.code, off]

theorem isParameter_code (c : Color) : ∀ d ∈ c.code.toList, Rendition.isParameter d = true := by
  cases c <;> simp [code, Rendition.isParameter]

theorem toList_paint (c : Color) (text : String) :
    (c.paint text).toList = Rendition.spell c.code ++ text.toList ++ Rendition.spell off := by
  simp [paint, Rendition.spell, off]

end Color

/-! ## Spans of text -/

/-- **A part of a line that is drawn alike**, in a colour or without one. -/
structure Span where
  text : String
  color : Option Color := none
deriving DecidableEq, Repr

namespace Span

variable {sp : Span} {spans : List Span}

section Drawing

/-- A span as a style draws it. -/
def draw (s : Style) (sp : Span) : String :=
  sp.color.elim sp.text fun c => s.paint c sp.text

@[simp] theorem draw_plain (sp : Span) : sp.draw { color := false } = sp.text := by
  obtain ⟨text, _ | c⟩ := sp <;> rfl

@[simp] theorem draw_colored (c : Color) (text : String) :
    draw { color := true } { text, color := some c } = c.paint text := rfl

/-- **Spans in a row**, as a style draws them. -/
def drawAll (s : Style) (spans : List Span) : String :=
  String.join (spans.map (draw s))

@[simp] theorem drawAll_nil (s : Style) : drawAll s [] = "" := rfl

@[simp] theorem drawAll_cons (s : Style) (sp : Span) (spans : List Span) :
    drawAll s (sp :: spans) = sp.draw s ++ drawAll s spans :=
  String.join_cons

/-- Spans with a gap between each two. -/
theorem drawAll_intersperse (s : Style) (gap : Span) (spans : List Span) :
    drawAll s (spans.intersperse gap) = (gap.draw s).intercalate (spans.map (draw s)) := by
  induction spans with
  | nil => rfl
  | cons sp spans ih =>
    cases spans with
    | nil => simp
    | cons sp' spans =>
      rw [List.intersperse_cons_cons, drawAll_cons, drawAll_cons, ih]
      simp only [List.map_cons, String.intercalate_cons_cons, String.append_assoc]

theorem forall_mem_intersperse {P : Span → Prop} {gap : Span} (hgap : P gap)
    (h : ∀ sp ∈ spans, P sp) : ∀ sp ∈ spans.intersperse gap, P sp := by
  induction spans with
  | nil => exact h
  | cons sp spans ih =>
    cases spans with
    | nil => exact h
    | cons sp' spans =>
      obtain ⟨hsp, hspans⟩ := List.forall_mem_cons.1 h
      rw [List.intersperse_cons_cons, List.forall_mem_cons, List.forall_mem_cons]
      exact ⟨hsp, hgap, ih hspans⟩

end Drawing

/-! ## Sequences around a span -/

section Colors

/-- **What is sent for a span in colours**: its characters and, around them, the sequences that
switch its colour on and off. -/
def pieces (sp : Span) : List Piece :=
  let shown := sp.text.toList.map Piece.char
  sp.color.elim shown fun c => .sequence c.code :: (shown ++ [.sequence off])

theorem pieces_draw_append (h : '\x1b' ∉ sp.text.toList) (behind : List Char) :
    Rendition.pieces ((sp.draw { color := true }).toList ++ behind) =
      sp.pieces ++ Rendition.pieces behind := by
  obtain ⟨text, _ | c⟩ := sp
  case none => exact Rendition.pieces_append h
  case some =>
    have hoff : ∀ d ∈ off.toList, Rendition.isParameter d = true := by
      simp [off, Rendition.isParameter]
    rw [draw_colored, Color.toList_paint, List.append_assoc, List.append_assoc,
      Rendition.pieces_spell_append c.isParameter_code, Rendition.pieces_append h,
      Rendition.pieces_spell_append hoff]
    simp [pieces]

/-- **What is sent for spans in colours** is what is sent for each of them, where no text has an
escape character. -/
theorem pieces_drawAll (h : ∀ sp ∈ spans, '\x1b' ∉ sp.text.toList) :
    Rendition.pieces (drawAll { color := true } spans).toList = spans.flatMap pieces := by
  induction spans with
  | nil => simp [Rendition.pieces]
  | cons sp spans ih =>
    obtain ⟨hsp, hspans⟩ := List.forall_mem_cons.1 h
    rw [drawAll_cons, String.toList_append, pieces_draw_append hsp, ih hspans, List.flatMap_cons]

theorem filterMap_shown?_pieces (sp : Span) :
    sp.pieces.filterMap Piece.shown? = sp.text.toList := by
  have hshown : Piece.shown? ∘ Piece.char = some := rfl
  obtain ⟨text, _ | c⟩ := sp <;> simp [pieces, hshown, List.filterMap_cons, Piece.shown?]

theorem filterMap_parameters?_pieces (sp : Span) :
    sp.pieces.filterMap Piece.parameters? = sp.color.toList.flatMap Color.switches := by
  obtain ⟨text, _ | c⟩ := sp <;> simp [pieces, Color.switches, Piece.parameters?]

/-- **Without their sequences, spans in colours are the plain spans.** -/
theorem visible_drawAll (h : ∀ sp ∈ spans, '\x1b' ∉ sp.text.toList) :
    visible (drawAll { color := true } spans) = drawAll { color := false } spans := by
  refine String.toList_injective ?_
  rw [visible, String.toList_ofList, pieces_drawAll h, List.filterMap_flatMap, drawAll,
    String.toList_join, List.flatMap_map]
  simp only [filterMap_shown?_pieces, draw_plain]

/-- **The colours of spans are switched on and off one after another.** -/
theorem sequences_drawAll (h : ∀ sp ∈ spans, '\x1b' ∉ sp.text.toList) :
    sequences (drawAll { color := true } spans) =
      (spans.filterMap color).flatMap Color.switches := by
  rw [sequences, pieces_drawAll h, List.filterMap_flatMap, List.filterMap_eq_flatMap_toList,
    List.flatMap_assoc]
  simp only [filterMap_parameters?_pieces]

theorem isSwitchedOff_drawAll (h : ∀ sp ∈ spans, '\x1b' ∉ sp.text.toList) :
    IsSwitchedOff (drawAll { color := true } spans) := by
  have hs : sequences (drawAll { color := true } spans) =
      ((spans.filterMap color).map Color.code).flatMap fun code => [code, off] := by
    rw [sequences_drawAll h, List.flatMap_map]
    rfl
  exact Rendition.isSwitchedOff_of_sequences_eq hs

end Colors

end Span

/-! ## The layout of a line -/

namespace OutputLine

variable {l : OutputLine}

/-- **The layout of a line.** -/
def spans : OutputLine → List Span
  | .text t => [{ text := t }]
  | .heading t => [{ text := t, color := some .yellow }]
  | .labeled label t => [{ text := "  " }, { text := label, color := some .green }, { text := t }]
  | .status t => [{ text := "STATUS:", color := some .yellow }, { text := " " ++ t }]
  | .listing entries =>
    (entries.map fun e => { text := e.label, color := some (Style.entryColor e) }).intersperse
      { text := gap }
  | .error t => [{ text := t, color := some .red }]

/-- The colours of a line, in order. -/
def colors (l : OutputLine) : List Color :=
  l.spans.filterMap Span.color

/-- The texts that a line is given. -/
def texts : OutputLine → List String
  | .text t => [t]
  | .heading t => [t]
  | .labeled label t => [label, t]
  | .status t => [t]
  | .listing entries => entries.map Entry.name
  | .error t => [t]

/-- The layout of a line has no escape character if the texts of the line have none. -/
theorem notMem_text_of_mem_spans (h : ∀ t ∈ l.texts, '\x1b' ∉ t.toList) :
    ∀ sp ∈ l.spans, '\x1b' ∉ sp.text.toList := by
  cases l with
  | listing entries =>
    refine Span.forall_mem_intersperse (by decide) (List.forall_mem_map.2 fun e he => ?_)
    have hname : '\x1b' ∉ e.name.toList := h _ (List.mem_map_of_mem he)
    show '\x1b' ∉ e.label.toList
    rw [Entry.label]
    cases e.kind <;> simp [hname]
  | _ => simp_all [texts, spans]

theorem plain_eq_drawAll (l : OutputLine) : l.plain = Span.drawAll { color := false } l.spans := by
  cases l with
  | status t =>
    have hmark : "STATUS: " = "STATUS:" ++ " " := by decide
    rw [plain, hmark, String.append_assoc]
    simp [spans]
  | listing entries =>
    rw [spans, Span.drawAll_intersperse, List.map_map]
    rfl
  | _ => simp [plain, spans, String.append_assoc]

theorem colored_eq_drawAll (l : OutputLine) :
    Style.colored l = Span.drawAll { color := true } l.spans := by
  cases l with
  | listing entries =>
    rw [spans, Span.drawAll_intersperse, List.map_map]
    rfl
  | _ => simp [Style.colored, Style.paint, spans, Span.draw, String.append_assoc]

end OutputLine

/-! ## Either style -/

namespace Style

variable {label cwd : String}

/-- **Either style draws the layout of a line.** -/
theorem line_eq_drawAll (s : Style) (l : OutputLine) : s.line l = Span.drawAll s l.spans := by
  obtain ⟨_ | _⟩ := s
  case false => exact l.plain_eq_drawAll
  case true => exact l.colored_eq_drawAll

/-- **The layout of a prompt.** -/
def promptSpans (label cwd : String) : List Span :=
  [{ text := label ++ ":" ++ cwd ++ "> ", color := some .cyan }]

/-- **Either style draws the layout of a prompt.** -/
theorem prompt_eq_drawAll (s : Style) (label cwd : String) :
    s.prompt label cwd = Span.drawAll s (promptSpans label cwd) := by
  simp [prompt, promptSpans, Span.draw]

theorem notMem_text_of_mem_promptSpans (hlabel : '\x1b' ∉ label.toList)
    (hcwd : '\x1b' ∉ cwd.toList) : ∀ sp ∈ promptSpans label cwd, '\x1b' ∉ sp.text.toList := by
  simp [promptSpans, hlabel, hcwd]

/-- **Without its sequences, a line in colours is the plain line.** Deleting the sequences from a
line of any kind as it is drawn in colours leaves the line as it is drawn without them, if no text
that the line is given has an escape character. A sequence that switches a colour on has a next one
in the line, and that one switches it off. They are the sequences of the colours of the line, one
after another. The same holds of a prompt, which has one colour. -/
theorem plain_without_colors :
    let colored : Style := { color := true }
    let plain : Style := { color := false }
    (∀ l : OutputLine, (∀ t ∈ l.texts, '\x1b' ∉ t.toList) →
      visible (colored.line l) = plain.line l ∧ IsSwitchedOff (colored.line l) ∧
        sequences (colored.line l) = l.colors.flatMap Color.switches) ∧
    ∀ label cwd : String, '\x1b' ∉ label.toList → '\x1b' ∉ cwd.toList →
      visible (colored.prompt label cwd) = plain.prompt label cwd ∧
        IsSwitchedOff (colored.prompt label cwd) ∧
        sequences (colored.prompt label cwd) = Color.cyan.switches := by
  intro colored plain
  refine ⟨fun l h => ?_, fun label cwd hlabel hcwd => ?_⟩
  · have hspans := OutputLine.notMem_text_of_mem_spans h
    rw [line_eq_drawAll, line_eq_drawAll]
    exact ⟨Span.visible_drawAll hspans, Span.isSwitchedOff_drawAll hspans,
      Span.sequences_drawAll hspans⟩
  · have hspans := notMem_text_of_mem_promptSpans hlabel hcwd
    rw [prompt_eq_drawAll, prompt_eq_drawAll]
    exact ⟨Span.visible_drawAll hspans, Span.isSwitchedOff_drawAll hspans,
      Span.sequences_drawAll hspans⟩

/-- Names, labels and directories may look like sequences without their escape characters. -/
theorem plain_without_colors_of_brackets :
    let l : OutputLine := .listing [⟨"[0m", .directory⟩, ⟨"[31", .file⟩]
    let line := "\x1b[34m[0m/\x1b[39m    \x1b[32m[31\x1b[39m"
    let prompt := "\x1b[36mm[:/[0m> \x1b[39m"
    (∀ t ∈ l.texts, '\x1b' ∉ t.toList) ∧ '\x1b' ∉ "m[".toList ∧ '\x1b' ∉ "/[0m".toList ∧
      Style.line { color := true } l = line ∧ Style.prompt { color := true } "m[" "/[0m" = prompt ∧
      visible line = "[0m/    [31" ∧ IsSwitchedOff line ∧
      sequences line = ["34", "39", "32", "39"] ∧
      visible prompt = "m[:/[0m> " ∧ IsSwitchedOff prompt ∧ sequences prompt = ["36", "39"] := by
  intro l line prompt
  have hl : ∀ t ∈ l.texts, '\x1b' ∉ t.toList := by decide
  have hlabel : '\x1b' ∉ "m[".toList := by decide
  have hcwd : '\x1b' ∉ "/[0m".toList := by decide
  have hline : Style.line { color := true } l = line := by decide
  have hprompt : Style.prompt { color := true } "m[" "/[0m" = prompt := by decide
  obtain ⟨hlines, hprompts⟩ := plain_without_colors
  have hl' := hlines l hl
  have hprompt' := hprompts "m[" "/[0m" hlabel hcwd
  rw [hline] at hl'
  rw [hprompt] at hprompt'
  exact ⟨hl, hlabel, hcwd, hline, hprompt, hl'.1, hl'.2.1, hl'.2.2, hprompt'⟩

end Style

end AgentShell
