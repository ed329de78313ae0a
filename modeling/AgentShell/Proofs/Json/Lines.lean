import AgentShell.Text.JsonObject
import AgentShell.Text.Lines
import Mathlib.Data.List.Infix
import Mathlib.Tactic.SplitIfs

/-!
# The lines of a printed object

Line ends inside a text are escaped when it is quoted, so a printed object is cut only where it was
laid out: its braces stand on lines of their own, and each member on one of those between. Joining
the lines gives back the printed object.

## Main definitions

* `Text.isLineEnd`: a character that ends a line
* `Text.JsonObject.memberLines`: the lines between the braces

## Main results

* `Text.cutLines_intercalate`: lines that are joined and cut again
* `Text.JsonString.any_isLineEnd_quote`: a quoted text has no line ends
* `Text.JsonObject.cutLines_print`: the lines of a printed object
-/

namespace AgentShell.Text

/-- A character that ends a line, or belongs to the end of one. -/
def isLineEnd (c : Char) : Bool :=
  c == '\n' || c == '\r'

section Lines

theorem dropReturn_of_not_mem {cs : List Char} (h : '\r' ∉ cs) : dropReturn cs = cs :=
  if_neg fun hl => h (List.mem_of_getLast? hl)

theorem not_mem_of_any_isLineEnd {cs : List Char} (h : cs.any isLineEnd = false) :
    '\n' ∉ cs ∧ '\r' ∉ cs := by
  rw [List.any_eq_false] at h
  exact ⟨fun hc => h _ hc rfl, fun hc => h _ hc rfl⟩

/-- **Lines that are joined and cut again** are the same lines, if no line end is inside one, and
the last one is not empty. -/
theorem cutLines_intercalate {front : List String} {last : String} (hlast : last ≠ "")
    (h : ∀ s ∈ front ++ [last], s.toList.any isLineEnd = false) :
    cutLines ("\n".intercalate (front ++ [last])) = front ++ [last] := by
  have hpieces : ("\n".intercalate (front ++ [last])).toList.splitOn '\n' =
      front.map String.toList ++ [last.toList] := by
    rw [String.toList_intercalate, List.map_append, List.map_singleton]
    refine List.splitOn_intercalate '\n' ?_ (by simp)
    intro cs hcs
    rw [← List.map_singleton, ← List.map_append] at hcs
    obtain ⟨s, hs, rfl⟩ := List.mem_map.1 hcs
    exact (not_mem_of_any_isLineEnd (h s hs)).1
  have hfront : (front.map String.toList).map dropReturn = front.map String.toList := by
    rw [List.map_map]
    refine List.map_congr_left fun s hs => dropReturn_of_not_mem ?_
    exact (not_mem_of_any_isLineEnd (h s (List.mem_append_left _ hs))).2
  have hcs : last.toList ≠ [] := fun he => hlast (String.toList_inj.1 he)
  rw [cutLines, hpieces, List.dropLast_concat, hfront]
  simp [hcs, Function.comp_def]

end Lines

namespace JsonString

theorem any_isLineEnd_escape (c : Char) : (escape c).any isLineEnd = false := by
  have hdigit : ∀ n < 16, isLineEnd (hexDigit n) = false := by decide
  unfold escape
  split_ifs with hquote hbackslash hb hf hn hr ht hcontrol
  iterate 7 rfl
  · have hhigh := hdigit (c.toNat / 16) (by omega)
    have hlow := hdigit (c.toNat % 16) (by omega)
    have hfixed : ['\\', 'u', '0', '0'].any isLineEnd = false := rfl
    simpa [hhigh, hlow] using hfixed
  · simp [isLineEnd, hn, hr]

/-- **A quoted text has no line ends**, whatever the text is. -/
theorem any_isLineEnd_quote (s : String) : (quote s).toList.any isLineEnd = false := by
  have hquote : isLineEnd '"' = false := rfl
  simp [quote, hquote, List.any_flatMap, any_isLineEnd_escape]

end JsonString

namespace JsonObject

variable {ms : List (String × String)}

/-- **The lines between the braces**: one for each member, with a comma behind all but the last. -/
def memberLines : List (String × String) → List String
  | [] => []
  | [m] => [member m]
  | m :: m' :: ms => (member m ++ ",") :: memberLines (m' :: ms)

theorem length_memberLines (ms : List (String × String)) : (memberLines ms).length = ms.length := by
  fun_induction memberLines ms <;> simp_all

theorem memberLines_ne_nil (hne : ms ≠ []) : memberLines ms ≠ [] := by
  rwa [← List.length_pos_iff, length_memberLines, List.length_pos_iff]

theorem any_isLineEnd_member (m : String × String) :
    (member m).toList.any isLineEnd = false := by
  have hindent : "  ".toList.any isLineEnd = false := by decide
  have hcolon : ": ".toList.any isLineEnd = false := by decide
  rw [member, String.toList_append, String.toList_append, String.toList_append, List.any_append,
    List.any_append, List.any_append, hindent, hcolon, JsonString.any_isLineEnd_quote,
    JsonString.any_isLineEnd_quote]
  rfl

theorem any_isLineEnd_of_mem_memberLines {s : String} (hs : s ∈ memberLines ms) :
    s.toList.any isLineEnd = false := by
  fun_induction memberLines ms with
  | case1 => cases hs
  | case2 m =>
    rw [List.mem_singleton.1 hs]
    exact any_isLineEnd_member m
  | case3 m m' ms ih =>
    rcases List.mem_cons.1 hs with rfl | hs
    · have hcomma : ",".toList.any isLineEnd = false := by decide
      rw [String.toList_append, List.any_append, any_isLineEnd_member, hcomma]
      rfl
    · exact ih hs

/-- Members with commas between them are their lines, joined. -/
theorem intercalate_memberLines (ms : List (String × String)) :
    "\n".intercalate (memberLines ms) = ",\n".intercalate (ms.map member) := by
  fun_induction memberLines ms with
  | case1 => rfl
  | case2 m => rfl
  | case3 m m' ms ih =>
    rw [String.intercalate_cons_of_ne_nil (memberLines_ne_nil (List.cons_ne_nil m' ms)), ih,
      List.map_cons, List.map_cons, List.map_cons, String.intercalate_cons_cons]
    apply String.toList_inj.1
    simp

theorem print_eq_intercalate (hne : ms ≠ []) :
    print ms = "\n".intercalate ("\x7b" :: memberLines ms ++ ["\x7d"]) := by
  have hprint : print ms = "\x7b\n" ++ ",\n".intercalate (ms.map member) ++ "\n\x7d" := by
    cases ms with
    | nil => exact absurd rfl hne
    | cons m ms => rfl
  rw [hprint, ← intercalate_memberLines,
    String.intercalate_append_of_ne_nil (List.cons_ne_nil _ _) (List.cons_ne_nil _ _),
    String.intercalate_cons_of_ne_nil (memberLines_ne_nil hne), String.intercalate_singleton]
  apply String.toList_inj.1
  simp

theorem any_isLineEnd_of_mem_lines {s : String}
    (hs : s ∈ "\x7b" :: memberLines ms ++ ["\x7d"]) : s.toList.any isLineEnd = false := by
  rw [List.cons_append, List.mem_cons, List.mem_append, List.mem_singleton] at hs
  rcases hs with rfl | hs | rfl
  · decide
  · exact any_isLineEnd_of_mem_memberLines hs
  · decide

/-- **The lines of a printed object**: the braces, and one line for each member between them. -/
theorem cutLines_print (hne : ms ≠ []) :
    cutLines (print ms) = "\x7b" :: memberLines ms ++ ["\x7d"] := by
  rw [print_eq_intercalate hne]
  exact cutLines_intercalate (by decide) fun s hs => any_isLineEnd_of_mem_lines hs

end JsonObject

end AgentShell.Text
