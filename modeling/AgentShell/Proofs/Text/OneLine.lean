import AgentShell.Proofs.Text.Words

/-!
# Texts on one line

A terminal that leaves line ends alone shows a text on one line if no line feed is inside, and it
starts a line at its left edge if a carriage return stands in front of the line feed.

## Main definitions

* `IsOneLine`: a text without line feeds
* `HasBareFeed`: a text with a line feed in front of which no carriage return stands
* `closeLines`: texts, each with a line end behind it

## Main results

* `isOneLine_append`, `isOneLine_between`, `isOneLine_intercalate_iff`: texts that are joined
* `isOneLine_of_mem_words`, `isOneLine_of_mem_splitOn`, `isOneLine_toString`: texts on one line
* `count_closeLines_eq_length_iff`, `not_hasBareFeed_closeLines`: the line feeds of closed lines
-/

namespace AgentShell.Text

variable {s t gap : String} {ss : List String}

/-- **A text on one line**: no line feed is inside. -/
def IsOneLine (s : String) : Prop :=
  '\n' ∉ s.toList

instance (s : String) : Decidable (IsOneLine s) :=
  inferInstanceAs (Decidable (_ ∉ _))

/-- **A line feed in front of which no carriage return stands.** -/
def HasBareFeed (s : String) : Prop :=
  ∃ front behind, s.toList = front ++ '\n' :: behind ∧ front.getLast? ≠ some '\r'

/-- Texts in a row, each with a carriage return and a line feed behind it. -/
def closeLines (ss : List String) : String :=
  String.join (ss.map (· ++ "\r\n"))

section IsOneLine

@[simp] theorem isOneLine_append : IsOneLine (s ++ t) ↔ IsOneLine s ∧ IsOneLine t := by
  simp [IsOneLine]

theorem isOneLine_behind {front : String} (h : IsOneLine front) :
    IsOneLine (front ++ s) ↔ IsOneLine s := by
  rw [isOneLine_append, and_iff_right h]

theorem isOneLine_between {front behind : String} (hfront : IsOneLine front)
    (hbehind : IsOneLine behind) : IsOneLine (front ++ s ++ behind) ↔ IsOneLine s := by
  rw [isOneLine_append, and_iff_left hbehind, isOneLine_behind hfront]

theorem isOneLine_ofList {cs : List Char} : IsOneLine (String.ofList cs) ↔ '\n' ∉ cs := by
  simp [IsOneLine]

theorem isOneLine_intercalate_iff (hgap : IsOneLine gap) :
    IsOneLine (gap.intercalate ss) ↔ ∀ s ∈ ss, IsOneLine s := by
  induction ss with
  | nil => simp [IsOneLine]
  | cons s ss ih =>
    cases ss with
    | nil => simp
    | cons t ss =>
      rw [String.intercalate_cons_cons, isOneLine_append, isOneLine_append, ih,
        List.forall_mem_cons]
      simp [hgap]

/-- A line feed is white space, so none is inside a word. -/
theorem isOneLine_of_mem_words (h : t ∈ words s) : IsOneLine t := by
  have hblank := (isWord_of_mem_words h).2
  rw [List.any_eq_false] at hblank
  exact fun hfeed => hblank _ hfeed (by decide)

theorem isOneLine_of_mem_splitOn {cs piece : List Char} (h : piece ∈ cs.splitOn '\n') :
    IsOneLine (String.ofList piece) := by
  rw [isOneLine_ofList]
  exact fun hfeed => absurd (eq_false_of_mem_splitOnP h _ hfeed) (by decide)

theorem isOneLine_toString (n : Nat) : IsOneLine (toString n) := by
  intro hfeed
  have hdigit : '\n'.isDigit = true := Nat.isDigit_of_mem_toDigits (by decide) (by decide)
    (Nat.toList_repr ▸ hfeed)
  exact absurd hdigit (by decide)

end IsOneLine

section Feeds

theorem IsOneLine.not_hasBareFeed (h : IsOneLine s) : ¬HasBareFeed s := by
  rintro ⟨front, behind, hs, -⟩
  exact h (hs ▸ by simp)

/-- No line feed is bare in two texts in a row if none is in either, and the second one does not
begin with one. -/
theorem not_hasBareFeed_append (hs : ¬HasBareFeed s) (ht : ¬HasBareFeed t)
    (hhead : t.toList.head? ≠ some '\n') : ¬HasBareFeed (s ++ t) := by
  rintro ⟨front, behind, hst, hlast⟩
  rw [String.toList_append] at hst
  rcases List.append_eq_append_iff.1 hst with ⟨mid, rfl, hmid⟩ | ⟨mid, hmid, hbehind⟩
  · cases mid with
    | nil => exact hhead (by simp [hmid])
    | cons c mid => exact ht ⟨c :: mid, behind, hmid, by simpa using hlast⟩
  · cases mid with
    | nil => exact hhead (by simp [← show '\n' :: behind = t.toList from hbehind])
    | cons c mid =>
      obtain ⟨rfl, -⟩ := List.cons.inj hbehind
      exact hs ⟨front, mid, hmid, hlast⟩

theorem closeLines_cons (s : String) (ss : List String) :
    closeLines (s :: ss) = s ++ "\r\n" ++ closeLines ss := by
  simp [closeLines]

theorem count_closeLines_cons (s : String) (ss : List String) :
    (closeLines (s :: ss)).toList.count '\n' =
      s.toList.count '\n' + 1 + (closeLines ss).toList.count '\n' := by
  have hend : "\r\n".toList.count '\n' = 1 := by decide
  rw [closeLines_cons, String.toList_append, String.toList_append, List.count_append,
    List.count_append, hend]

theorem length_le_count_closeLines (ss : List String) :
    ss.length ≤ (closeLines ss).toList.count '\n' := by
  induction ss with
  | nil => exact Nat.zero_le _
  | cons s ss ih =>
    rw [count_closeLines_cons, List.length_cons]
    omega

/-- **There are as many line feeds as lines** where each of the lines is on one line, and only
there. -/
theorem count_closeLines_eq_length_iff :
    (closeLines ss).toList.count '\n' = ss.length ↔ ∀ s ∈ ss, IsOneLine s := by
  induction ss with
  | nil => exact iff_of_true rfl (List.forall_mem_nil _)
  | cons s ss ih =>
    have hleast := length_le_count_closeLines ss
    rw [count_closeLines_cons, List.length_cons, List.forall_mem_cons, ← ih, IsOneLine,
      ← List.count_eq_zero]
    omega

/-- A line that is closed begins with a character of the line, or with the carriage return. -/
theorem IsOneLine.head?_close_ne (h : IsOneLine s) : (s ++ "\r\n").toList.head? ≠ some '\n' := by
  cases hs : s.toList with
  | nil => simp [hs]
  | cons c cs =>
    intro hc
    simp only [String.toList_append, hs, List.cons_append, List.head?_cons,
      Option.some.injEq] at hc
    exact h (by simp [hs, hc])

theorem IsOneLine.not_hasBareFeed_close (h : IsOneLine s) : ¬HasBareFeed (s ++ "\r\n") := by
  refine not_hasBareFeed_append h.not_hasBareFeed ?_ (by decide)
  rintro ⟨front, behind, hparts, hlast⟩
  rcases front with _ | ⟨c, _ | ⟨d, front⟩⟩
  · simp at hparts
  · obtain ⟨rfl, -⟩ := List.cons.inj hparts
    exact hlast rfl
  · simp at hparts

theorem head?_closeLines_ne (h : ∀ s ∈ ss, IsOneLine s) :
    (closeLines ss).toList.head? ≠ some '\n' := by
  cases ss with
  | nil => decide
  | cons s ss =>
    have hhead := (h s List.mem_cons_self).head?_close_ne
    rw [closeLines_cons, String.toList_append]
    simpa [List.head?_append] using hhead

/-- **No line feed is bare** where lines are closed that are on one line each. -/
theorem not_hasBareFeed_closeLines (h : ∀ s ∈ ss, IsOneLine s) : ¬HasBareFeed (closeLines ss) := by
  induction ss with
  | nil => exact IsOneLine.not_hasBareFeed (by decide)
  | cons s ss ih =>
    obtain ⟨hs, hss⟩ := List.forall_mem_cons.1 h
    rw [closeLines_cons]
    exact not_hasBareFeed_append hs.not_hasBareFeed_close (ih hss) (head?_closeLines_ne hss)

end Feeds

end AgentShell.Text
