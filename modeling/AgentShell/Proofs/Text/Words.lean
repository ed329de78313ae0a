import AgentShell.Text.Words
import Mathlib.Data.List.TakeWhile

/-!
# The words of a text

White space separates the words of a text, and how much of it stands between them, in front of them
or behind them makes no difference. So the words can be read off one after another, and words that
are joined by single spaces are read again.

## Main definitions

* `IsWord`, `IsGap`: a word, and what separates two words
* `FirstWord`: the first word of a text and what stands behind it

## Main results

* `words_append_cons`, `IsGap.words_append_append`: white space separates words
* `words_append_of_isBlank`, `words_append_append_of_isBlankText`: white space at the ends
* `words_append_of_word`: a word, and what stands behind it
* `exists_parts_of_words_eq_cons`: a text with a first word is made of these parts
* `words_eq_cons_iff`, `firstWord_append`: the first of the words, and a text made of the parts
* `isWord_of_mem_words`, `words_intercalate`: words that are joined and read again
-/

namespace AgentShell.Text

variable {blanks w rest : List Char} {s verb : String} {arguments : List String}

/-! ## Words and the white space around them -/

theorem eq_false_of_mem_splitOnP {α : Type} {p : α → Bool} {as piece : List α}
    (h : piece ∈ as.splitOnP p) : ∀ a ∈ piece, p a = false := by
  -- Induction on the list: its head opens a piece, or goes in front of the first one.
  induction as generalizing piece with
  | nil =>
    rw [List.splitOnP_nil, List.mem_singleton] at h
    simp [h]
  | cons x as ih =>
    rw [List.splitOnP_cons_eq_if_modifyHead] at h
    split at h
    · rcases List.mem_cons.1 h with rfl | h
      · simp
      · exact ih h
    · rename_i hx
      obtain ⟨first, others, hs⟩ := List.exists_cons_of_ne_nil (List.splitOnP_ne_nil p as)
      rw [hs] at h ih
      rcases List.mem_cons.1 h with rfl | h
      · exact List.forall_mem_cons.2 ⟨by simpa using hx, ih List.mem_cons_self⟩
      · exact ih (List.mem_cons_of_mem _ h)

/-- **White space separates words**, whatever is in front of it and behind it. -/
theorem words_append_cons {c : Char} (hc : isBlank c = true) (front rest : List Char) :
    words (String.ofList (front ++ c :: rest)) =
      words (String.ofList front) ++ words (String.ofList rest) := by
  simp [words, List.splitOnP_append_cons front rest hc]

@[simp] theorem words_empty : words "" = [] := by
  simp [words]

theorem words_cons {c : Char} (hc : isBlank c = true) (rest : List Char) :
    words (String.ofList (c :: rest)) = words (String.ofList rest) := by
  simpa using words_append_cons hc [] rest

theorem words_append_of_isBlank (h : ∀ c ∈ blanks, isBlank c = true) (rest : List Char) :
    words (String.ofList (blanks ++ rest)) = words (String.ofList rest) := by
  induction blanks with
  | nil => rfl
  | cons c blanks ih =>
    obtain ⟨hc, hb⟩ := List.forall_mem_cons.1 h
    rw [List.cons_append, words_cons hc, ih hb]

/-- **A word, and what stands behind it**: the word ends where white space begins. -/
theorem words_append_of_word (hne : w ≠ []) (hw : ∀ c ∈ w, isBlank c = false)
    (hr : ∀ c ∈ rest.head?, isBlank c = true) :
    words (String.ofList (w ++ rest)) = String.ofList w :: words (String.ofList rest) := by
  have hword : words (String.ofList w) = [String.ofList w] := by
    simp [words, List.splitOnP_eq_singleton hw, hne]
  cases rest with
  | nil => simpa using hword
  | cons c cs =>
    have hc : isBlank c = true := hr c rfl
    rw [words_append_cons hc, words_cons hc, hword, List.singleton_append]

/-- **The parts of a text with a first word**: white space, the word, and what stands behind it. -/
theorem exists_parts_of_words_eq_cons (h : words s = verb :: arguments) :
    ∃ blanks rest, s.toList = blanks ++ verb.toList ++ rest ∧ (∀ c ∈ blanks, isBlank c = true) ∧
      verb.toList ≠ [] ∧ (∀ c ∈ verb.toList, isBlank c = false) ∧
      (∀ c ∈ rest.head?, isBlank c = true) ∧ words (String.ofList rest) = arguments := by
  let blanks := s.toList.takeWhile isBlank
  let behind := s.toList.dropWhile isBlank
  let w := behind.takeWhile fun c => !isBlank c
  let rest := behind.dropWhile fun c => !isBlank c
  have hblanks : ∀ c ∈ blanks, isBlank c = true := fun c hc => List.mem_takeWhile_imp hc
  have hw : ∀ c ∈ w, isBlank c = false := fun c hc => by simpa using List.mem_takeWhile_imp hc
  have hrest : ∀ c ∈ rest.head?, isBlank c = true := by
    intro c hc
    have := List.head?_dropWhile_not (fun c => !isBlank c) behind
    rw [Option.mem_def.1 hc] at this
    simpa using this
  have hs : s.toList = blanks ++ w ++ rest := by
    rw [List.append_assoc, List.takeWhile_append_dropWhile, List.takeWhile_append_dropWhile]
  have hwords : words s = words (String.ofList (w ++ rest)) := by
    rw [← words_append_of_isBlank hblanks, ← List.append_assoc, ← hs, String.ofList_toList]
  have hne : w ≠ [] := by
    have hbehind : behind ≠ [] := by
      intro hn
      have : words s = [] := by
        rw [words_eq_nil_iff, isBlankText, List.all_eq_true]
        exact List.dropWhile_eq_nil_iff.1 hn
      rw [h] at this
      cases this
    obtain ⟨c, cs, hc⟩ := List.exists_cons_of_ne_nil hbehind
    have hfirst := List.head?_dropWhile_not isBlank s.toList
    rw [show s.toList.dropWhile isBlank = c :: cs from hc] at hfirst
    have hcblank : isBlank c = false := hfirst
    simp [w, hc, hcblank]
  rw [hwords, words_append_of_word hne hw hrest] at h
  obtain ⟨rfl, rfl⟩ := List.cons.inj h
  rw [String.toList_ofList]
  exact ⟨blanks, rest, hs, hblanks, hne, hw, hrest, rfl⟩

/-! ## The first word -/

section FirstWord

/-- A word: not empty, and without white space. -/
def IsWord (s : String) : Prop :=
  s ≠ "" ∧ s.toList.any isBlank = false

instance (s : String) : Decidable (IsWord s) :=
  inferInstanceAs (Decidable (_ ∧ _))

/-- What separates two words: white space, and some of it. -/
def IsGap (s : String) : Prop :=
  s ≠ "" ∧ isBlankText s = true

instance (s : String) : Decidable (IsGap s) :=
  inferInstanceAs (Decidable (_ ∧ _))

/-- **The first word of a text**, behind white space, and what stands behind the word: it is empty
or begins with white space. -/
structure FirstWord (s verb rest : String) : Prop where
  isWord : IsWord verb
  ends : ∀ c ∈ rest.toList.head?, isBlank c = true
  parts : ∃ blanks, isBlankText blanks = true ∧ s = blanks ++ verb ++ rest

variable {t gap : String}

theorem IsWord.ne_nil (h : IsWord s) : s.toList ≠ [] :=
  fun he => h.1 (String.toList_inj.1 he)

theorem IsWord.isBlank_eq_false (h : IsWord s) : ∀ c ∈ s.toList, isBlank c = false := by
  simpa using h.2

theorem IsWord.append (h : IsWord s) (ht : t.toList.any isBlank = false) : IsWord (s ++ t) := by
  refine ⟨by simp [h.1], ?_⟩
  rw [String.toList_append, List.any_append, h.2, ht, Bool.or_false]

theorem FirstWord.words_eq (h : FirstWord s verb t) : words s = verb :: words t := by
  obtain ⟨blanks, hb, rfl⟩ := h.parts
  have hs : blanks ++ verb ++ t = String.ofList (blanks.toList ++ (verb.toList ++ t.toList)) := by
    rw [String.ofList_append, String.ofList_append, String.ofList_toList, String.ofList_toList,
      String.ofList_toList, String.append_assoc]
  rw [hs, words_append_of_isBlank (by simpa [isBlankText] using hb),
    words_append_of_word h.isWord.ne_nil h.isWord.isBlank_eq_false h.ends, String.ofList_toList,
    String.ofList_toList]

/-- White space at the ends leaves the first word where it is. -/
theorem FirstWord.append_append {before after : String} (h : FirstWord s verb t)
    (hb : isBlankText before = true) (ha : isBlankText after = true) :
    FirstWord (before ++ s ++ after) verb (t ++ after) where
  isWord := h.isWord
  ends := by
    intro c hc
    rw [String.toList_append] at hc
    cases ht : t.toList with
    | nil =>
      rw [ht, List.nil_append] at hc
      exact List.all_eq_true.1 ha c (List.mem_of_head? hc)
    | cons d ds =>
      rw [ht, List.cons_append, List.head?_cons] at hc
      exact h.ends c (by rwa [ht, List.head?_cons])
  parts := by
    obtain ⟨blanks, hblanks, rfl⟩ := h.parts
    refine ⟨before ++ blanks, ?_, by simp only [String.append_assoc]⟩
    rw [isBlankText, String.toList_append, List.all_append, Bool.and_eq_true]
    exact ⟨hb, hblanks⟩

/-- **The first of the words of a text**, and the others. -/
theorem words_eq_cons_iff :
    words s = verb :: arguments ↔ ∃ rest, FirstWord s verb rest ∧ words rest = arguments := by
  constructor
  · intro h
    obtain ⟨blanks, rest, hs, hb, hne, hw, hr, ha⟩ := exists_parts_of_words_eq_cons h
    have hword : IsWord verb := ⟨fun he => hne (he ▸ rfl), by simpa using hw⟩
    refine ⟨String.ofList rest, ⟨hword, ?_, String.ofList blanks, ?_, ?_⟩, ha⟩
    · rwa [String.toList_ofList]
    · simpa [isBlankText] using hb
    · rw [← String.ofList_toList (s := s), hs, String.ofList_append, String.ofList_append,
        String.ofList_toList]
  · rintro ⟨rest, h, rfl⟩
    exact h.words_eq

/-- **A text made of the parts**: white space, a word, a gap, and anything. -/
theorem firstWord_append {blanks : String} (hb : isBlankText blanks = true) (hw : IsWord verb)
    (hg : IsGap gap) (t : String) : FirstWord (blanks ++ verb ++ (gap ++ t)) verb (gap ++ t) where
  isWord := hw
  ends := by
    have hne : gap.toList ≠ [] := fun he => hg.1 (String.toList_inj.1 he)
    obtain ⟨c, cs, hc⟩ := List.exists_cons_of_ne_nil hne
    have hblank := hg.2
    rw [isBlankText, hc, List.all_cons, Bool.and_eq_true] at hblank
    simpa [hc] using hblank.1
  parts := ⟨blanks, hb, rfl⟩

/-- **A gap separates the words** in front of it and behind it. -/
theorem IsGap.words_append_append (h : IsGap gap) (s t : String) :
    words (s ++ gap ++ t) = words s ++ words t := by
  obtain ⟨c, cs, hc⟩ := List.exists_cons_of_ne_nil fun he => h.1 (String.toList_inj.1 he)
  have hblank := h.2
  rw [isBlankText, hc, List.all_cons, Bool.and_eq_true, List.all_eq_true] at hblank
  have hs : s ++ gap ++ t = String.ofList (s.toList ++ c :: (cs ++ t.toList)) := by
    apply String.toList_inj.1
    simp [hc]
  rw [hs, words_append_cons hblank.1, words_append_of_isBlank hblank.2, String.ofList_toList,
    String.ofList_toList]

theorem IsGap.words_append (h : IsGap gap) (t : String) : words (gap ++ t) = words t := by
  simpa using h.words_append_append "" t

/-- **White space at the ends makes no difference.** -/
theorem words_append_append_of_isBlankText {before after : String}
    (hb : isBlankText before = true) (ha : isBlankText after = true) (s : String) :
    words (before ++ s ++ after) = words s := by
  have hbefore : words (before ++ s) = words s := by
    by_cases hne : before = ""
    · rw [hne, String.empty_append]
    · exact IsGap.words_append ⟨hne, hb⟩ s
  by_cases hne : after = ""
  · rw [hne, String.append_empty, hbefore]
  · have hgap := IsGap.words_append_append ⟨hne, ha⟩ (before ++ s) ""
    rwa [String.append_empty, words_empty, List.append_nil, hbefore] at hgap

theorem isWord_of_mem_words (h : verb ∈ words s) : IsWord verb := by
  obtain ⟨piece, hp, rfl⟩ := List.mem_map.1 h
  rw [List.mem_filter] at hp
  refine ⟨fun he => ?_, ?_⟩
  · have : piece = [] := by simpa using congrArg String.toList he
    simp [this] at hp
  · rw [String.toList_ofList, List.any_eq_false]
    exact fun c hc => by simp [eq_false_of_mem_splitOnP hp.1 c hc]

theorem IsWord.words_eq (h : IsWord s) : words s = [s] := by
  have hf : FirstWord s s "" := ⟨h, by simp, "", rfl, by simp⟩
  exact hf.words_eq

/-- **Words that are joined by single spaces** are read again. -/
theorem words_intercalate {ws : List String} (h : ∀ w ∈ ws, IsWord w) :
    words (" ".intercalate ws) = ws := by
  induction ws with
  | nil => simp
  | cons w ws ih =>
    obtain ⟨hw, hws⟩ := List.forall_mem_cons.1 h
    cases ws with
    | nil => simpa using hw.words_eq
    | cons v ws =>
      rw [String.intercalate_cons_cons, IsGap.words_append_append (by decide), hw.words_eq, ih hws,
        List.singleton_append]

/-- **Two words and a space between them.** -/
theorem words_pair (hs : IsWord s) (ht : IsWord t) : words (s ++ " " ++ t) = [s, t] := by
  rw [IsGap.words_append_append (by decide), hs.words_eq, ht.words_eq, List.singleton_append]

end FirstWord

end AgentShell.Text
