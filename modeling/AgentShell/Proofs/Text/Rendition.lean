import Mathlib.Data.List.TakeWhile

/-!
# Renditions

A terminal is sent characters to show and, between them, sequences that select how characters are
shown from then on: an escape character and a bracket, parameters of digits and semicolons, and an
`m`. What is sent falls into such pieces from left to right. Where no sequence begins, a character
stands for itself, an escape character as well.

## Main definitions

* `Rendition.sequence?`: the sequence that a text begins with
* `Rendition.Piece`, `Rendition.pieces`: a character or a sequence, and the pieces of a text
* `Rendition.visible`: the text that is left when the sequences are deleted
* `Rendition.sequences`: the parameters of the sequences, in order
* `Rendition.IsSwitchedOff`: every colour is switched off again

## Main results

* `Rendition.sequence?_eq_some_iff`: which texts begin with a sequence
* `Rendition.pieces_append`, `Rendition.pieces_spell_append`: a text without escape characters, and
  a sequence, in front of any text
* `Rendition.isSwitchedOff_of_sequences_eq`: colours that are switched on and off in turn
-/

namespace AgentShell.Rendition

variable {parameters : String} {text behind : List Char}

/-- A character in the parameters of a sequence. -/
def isParameter (c : Char) : Bool :=
  c.isDigit || c == ';'

/-- The sequence with the given parameters. -/
def spell (parameters : String) : List Char :=
  '\x1b' :: '[' :: parameters.toList ++ ['m']

/-- The parameters of the sequence that a text begins with, and what stands behind the sequence. -/
def sequence? : List Char → Option (String × List Char)
  | '\x1b' :: '[' :: cs =>
    match cs.dropWhile isParameter with
    | 'm' :: behind => some (String.ofList (cs.takeWhile isParameter), behind)
    | _ => none
  | _ => none

/-- **Which texts begin with a sequence**: the sequence is spelled in front, and all its parameters
may stand in one. -/
theorem sequence?_eq_some_iff : sequence? text = some (parameters, behind) ↔
    text = spell parameters ++ behind ∧ ∀ c ∈ parameters.toList, isParameter c = true := by
  constructor
  · intro h
    rw [sequence?.eq_def] at h
    split at h
    case h_2 => cases h
    case h_1 cs =>
      split at h
      case h_2 => cases h
      case h_1 hrest =>
        cases h
        have hcs := cs.takeWhile_append_dropWhile (p := isParameter)
        rw [hrest] at hcs
        refine ⟨by simp [spell, hcs], fun c hc => ?_⟩
        rw [String.toList_ofList] at hc
        exact List.mem_takeWhile_imp hc
  · rintro ⟨rfl, h⟩
    have hm : isParameter 'm' = false := by decide
    simp only [spell, List.cons_append, List.append_assoc, List.nil_append, sequence?]
    rw [List.dropWhile_append_of_pos h, List.takeWhile_append_of_pos h]
    simp [hm]

theorem sequence?_cons_eq_none {c : Char} (h : c ≠ '\x1b') : sequence? (c :: text) = none := by
  rw [Option.eq_none_iff_forall_ne_some]
  rintro ⟨parameters, behind⟩ hs
  exact h (List.cons.inj (sequence?_eq_some_iff.1 hs).1).1

/-- A piece of what is sent to a terminal. -/
inductive Piece where
  /-- A character that is shown. -/
  | char (c : Char)
  /-- A sequence that selects how characters are shown. -/
  | sequence (parameters : String)
deriving DecidableEq, Repr

/-- **The pieces of a text**, from left to right. -/
def pieces : List Char → List Piece
  | [] => []
  | c :: text =>
    match _h : sequence? (c :: text) with
    | some (parameters, behind) => .sequence parameters :: pieces behind
    | none => .char c :: pieces text
termination_by text => text.length
decreasing_by
  · rw [(sequence?_eq_some_iff.1 _h).1]
    simp [spell]
    omega
  · simp

section Pieces

/-- **A sequence in front of a text** is a piece. -/
theorem pieces_spell_append (h : ∀ c ∈ parameters.toList, isParameter c = true) :
    pieces (spell parameters ++ behind) = .sequence parameters :: pieces behind := by
  have hs : sequence? ('\x1b' :: ('[' :: parameters.toList ++ ['m'] ++ behind)) =
      some (parameters, behind) := sequence?_eq_some_iff.2 ⟨rfl, h⟩
  rw [spell, List.cons_append, List.cons_append, pieces]
  split
  case h_1 hs' =>
    cases hs.symm.trans hs'
    rfl
  case h_2 hs' => cases hs.symm.trans hs'

theorem pieces_cons {c : Char} (h : c ≠ '\x1b') : pieces (c :: text) = .char c :: pieces text := by
  rw [pieces]
  split
  case h_1 hs => cases (sequence?_cons_eq_none h).symm.trans hs
  case h_2 => rfl

/-- **A text without escape characters** in front of a text stands for itself. -/
theorem pieces_append (h : '\x1b' ∉ text) :
    pieces (text ++ behind) = text.map .char ++ pieces behind := by
  induction text with
  | nil => rfl
  | cons c text ih =>
    obtain ⟨hc, htext⟩ : '\x1b' ≠ c ∧ '\x1b' ∉ text := by simpa using h
    rw [List.cons_append, pieces_cons hc.symm, ih htext]
    rfl

end Pieces

/-- The character that is shown for a piece. -/
def Piece.shown? : Piece → Option Char
  | .char c => some c
  | .sequence _ => none

/-- The parameters of a piece that is a sequence. -/
def Piece.parameters? : Piece → Option String
  | .char _ => none
  | .sequence parameters => some parameters

/-- **The text that is left when the sequences are deleted.** -/
def visible (text : String) : String :=
  String.ofList ((pieces text.toList).filterMap Piece.shown?)

/-- **The parameters of the sequences** of a text, in order. -/
def sequences (text : String) : List String :=
  (pieces text.toList).filterMap Piece.parameters?

/-- The parameters that select the colour that the terminal has by itself. -/
def off : String :=
  "39"

/-- **Every colour is switched off again**: a sequence that selects anything but the colour that the
terminal has by itself has a next one, and that selects it. -/
def IsSwitchedOff (text : String) : Prop :=
  ∀ front code behind, sequences text = front ++ code :: behind → code ≠ off →
    ∃ rest, behind = off :: rest

/-- Every colour is switched off again where each is switched on and off in turn. -/
theorem isSwitchedOff_of_sequences_eq {text : String} {codes : List String}
    (h : sequences text = codes.flatMap fun code => [code, off]) : IsSwitchedOff text := by
  intro front code behind hs hcode
  rw [h] at hs
  clear h
  induction codes generalizing front with
  | nil => simp at hs
  | cons first codes ih =>
    rw [List.flatMap_cons, List.cons_append, List.cons_append, List.nil_append] at hs
    rcases front with _ | ⟨_, _ | ⟨_, front⟩⟩
    · obtain ⟨-, rfl⟩ := List.cons.inj hs
      exact ⟨_, rfl⟩
    · obtain ⟨-, hrest⟩ := List.cons.inj hs
      exact absurd (List.cons.inj hrest).1.symm hcode
    · obtain ⟨-, hrest⟩ := List.cons.inj hs
      exact ih front (List.cons.inj hrest).2

end AgentShell.Rendition
