import AgentShell.Text.Class

/-!
# Trimming and words

A text without the white space at its ends, and the words of a text: its maximal runs of characters
that are not white space.

## Main definitions

* `trimStart`, `trimEnd`, `trim`: drop white space at the ends
* `isBlankText`: nothing but white space
* `words`: the words of a text, in order
* `init`: a text without its last character
-/

namespace AgentShell.Text

/-- The characters from the first that is not white space. -/
def trimStart (s : String) : String :=
  String.ofList (s.toList.dropWhile isBlank)

/-- The characters up to the last that is not white space. -/
def trimEnd (s : String) : String :=
  String.ofList (s.toList.reverse.dropWhile isBlank).reverse

/-- A text without the white space at either end. -/
def trim (s : String) : String :=
  trimEnd (trimStart s)

/-- Every character is white space; the empty text is blank. -/
def isBlankText (s : String) : Bool :=
  s.toList.all isBlank

/-- **The words of a text**: its pieces between white space, empty pieces left out. -/
def words (s : String) : List String :=
  ((s.toList.splitOnP isBlank).filter fun w => !w.isEmpty).map String.ofList

/-- A text without its last character; the empty text stays empty. -/
def init (s : String) : String :=
  String.ofList s.toList.dropLast

@[simp] theorem toList_trimStart (s : String) :
    (trimStart s).toList = s.toList.dropWhile isBlank :=
  String.toList_ofList

@[simp] theorem toList_init (s : String) : (init s).toList = s.toList.dropLast :=
  String.toList_ofList

/-- Cutting at white space gives empty pieces only where there is nothing else. -/
theorem isEmpty_splitOnP_iff (cs : List Char) :
    (∀ w ∈ cs.splitOnP isBlank, w.isEmpty) ↔ cs.all isBlank := by
  induction cs with
  | nil => simp
  | cons c cs ih =>
    rw [List.splitOnP_cons_eq_if_modifyHead]
    cases hc : isBlank c with
    | true => simpa [hc] using ih
    | false =>
      obtain ⟨w, ws, hw⟩ := List.exists_cons_of_ne_nil (List.splitOnP_ne_nil isBlank cs)
      simp [hc, hw]

/-- **A text without words is blank.** -/
theorem words_eq_nil_iff (s : String) : words s = [] ↔ isBlankText s := by
  rw [isBlankText, ← isEmpty_splitOnP_iff]
  simp [words]

end AgentShell.Text
