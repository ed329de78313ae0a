import Mathlib.Tactic.SplitIfs

/-!
# The last entry that counts

Where later entries count more than earlier ones, a list is searched from its end. What such a
search finds is the entry behind which nothing else passes the test.

## Main results

* `find?_reverse_concat`: an entry more
* `find?_reverse_eq_some_iff`: the entry that is found
-/

namespace AgentShell

variable {α : Type} {p : α → Bool} {l : List α} {a : α}

/-- An entry more at the end is the first one to be tried. -/
theorem find?_reverse_concat (p : α → Bool) (l : List α) (a : α) :
    (l ++ [a]).reverse.find? p = if p a then some a else l.reverse.find? p := by
  rw [List.reverse_concat, List.find?_cons]
  split <;> simp_all

/-- **The last entry that passes** is one behind which none does. -/
theorem find?_reverse_eq_some_iff :
    l.reverse.find? p = some a ↔
      ∃ before after, l = before ++ a :: after ∧ p a = true ∧ ∀ b ∈ after, p b = false := by
  rw [List.find?_eq_some_iff_append]
  constructor
  · rintro ⟨ha, behind, front, hl, hbehind⟩
    refine ⟨front.reverse, behind.reverse, ?_, ha, by simpa using hbehind⟩
    rw [List.reverse_eq_iff.1 hl]
    simp
  · rintro ⟨before, after, rfl, ha, hafter⟩
    exact ⟨ha, after.reverse, before.reverse, by simp, by simpa using hafter⟩

end AgentShell
