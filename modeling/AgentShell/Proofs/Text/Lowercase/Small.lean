import AgentShell.Text.Lowercase

/-!
# Texts in lower case

Taking the lower-case form of a text twice is taking it once, since the form holds nothing that
could change again. Neither of the two exceptions is an obstacle: both sigmas that a capital sigma
may become are small letters wherever they stand, and so are the two characters that a capital I
with a dot becomes. That the table sends no character to one of which it speaks is decided row by
row. Of two rows, the images under one stay clear of the characters of the other if they lie in
front of them or behind them, or if both take every second code point and start at an odd distance,
as the rows of alternating capitals and small letters do.

## Main definitions

* `CaseRow.staysClear`: the test that is made of two rows
* `IsSmall`: a character that has no other lower-case form
* `otherSmall`: the small letters that do not come from the table

## Main results

* `CaseRow.covers_apply`: what the test is good for
* `isSmall_of_mem_lowercaseAfter`: a lower-case form holds small letters only
* `lowercase_eq_self_iff`: the texts in lower case
* `lowercase_lowercase`: a lower-case form is its own
-/

namespace AgentShell.Text

namespace CaseRow

variable {r r' : CaseRow} {n : Nat}

theorem covers_iff :
    r.covers n = true ↔ r.first ≤ n ∧ n ≤ r.last ∧ (n - r.first) % r.stride = 0 := by
  simp [covers, and_assoc]

/-- The row with one code point, which it does not move. -/
def only (n : Nat) : CaseRow :=
  ⟨n, n, 1, 0⟩

/-- A character that the row of another one does not cover is not that one. -/
theorem ne_of_covers_only {c d : Char} (h : (only d.toNat).covers c.toNat = false) : c ≠ d := by
  rintro rfl
  simp [covers, only] at h

/-- The images under the row `r` lie in front of the characters of the row `r'`, behind them, or at
odd distances from them. The distances between the characters of a row are known to be even where
the row takes every second code point, or one only. -/
def staysClear (r r' : CaseRow) : Bool :=
  Nat.blt (r.apply r.last) r'.first || Nat.blt r'.last (r.apply r.first) ||
    (r'.stride == 2 && (r.stride == 2 || r.first == r.last) &&
      (r.apply r.first - r'.first) % 2 == 1)

theorem staysClear_iff :
    r.staysClear r' = true ↔ r.apply r.last < r'.first ∨ r'.last < r.apply r.first ∨
      r'.stride = 2 ∧ (r.stride = 2 ∨ r.first = r.last) ∧
        (r.apply r.first - r'.first) % 2 = 1 := by
  simp [staysClear, or_assoc, and_assoc, Nat.blt_eq]

/-- **No image under a row is a character of a row that it stays clear of.** -/
theorem covers_apply (h : r.staysClear r' = true) (hn : r.covers n = true) :
    r'.covers (r.apply n) = false := by
  obtain ⟨hfirst, hlast, hstride⟩ := covers_iff.1 hn
  rw [← Bool.not_eq_true, covers_iff]
  rintro ⟨hfirst', hlast', hstride'⟩
  rw [staysClear_iff] at h
  simp only [apply] at h hfirst' hlast' hstride'
  rcases h with hfront | hbehind | ⟨htwo', htwo | hone, hodd⟩
  · omega
  · omega
  · rw [htwo] at hstride
    rw [htwo'] at hstride'
    omega
  · rw [htwo'] at hstride'
    omega

end CaseRow

/-- **The table sends no character to one of which it speaks**, nor to one of the two exceptions. -/
theorem staysClear_of_mem_lowercaseRows {r r' : CaseRow} (hr : r ∈ lowercaseRows)
    (hr' : r' ∈ .only 'İ'.toNat :: .only capitalSigma.toNat :: lowercaseRows) :
    r.staysClear r' = true := by
  have hall : (lowercaseRows.all fun r =>
      (.only 'İ'.toNat :: .only capitalSigma.toNat :: lowercaseRows : List CaseRow).all
        r.staysClear) = true := by decide +kernel
  exact List.all_eq_true.1 (List.all_eq_true.1 hall r hr) r' hr'

section Small

variable {c d : Char} {cs : List Char}

/-- A character that has no other lower-case form. -/
def IsSmall (c : Char) : Prop :=
  lowercaseChar c = [c] ∧ c ≠ capitalSigma
deriving Decidable

theorem isSmall_of_uncovered (hdot : c ≠ 'İ') (hsigma : c ≠ capitalSigma)
    (h : ∀ r ∈ lowercaseRows, r.covers c.toNat = false) : IsSmall c := by
  have hnone : lowercaseRows.find? (·.covers c.toNat) = none := by simpa using h
  exact ⟨by rw [lowercaseChar, if_neg hdot, hnone], hsigma⟩

/-- The small letters that do not come from the table: the two parts of a capital I with a dot, the
two sigmas, and the character that stands for what is no code point. -/
def otherSmall : List Char :=
  ['i', '\u0307', 'ς', 'σ', '\x00']

theorem isSmall_of_mem_otherSmall (h : c ∈ otherSmall) : IsSmall c := by
  have hrows : (lowercaseRows.all fun r => otherSmall.all fun c => !r.covers c.toNat) = true := by
    decide +kernel
  have hothers : ∀ c ∈ otherSmall, c ≠ 'İ' ∧ c ≠ capitalSigma := by
    simp [otherSmall, capitalSigma]
  refine isSmall_of_uncovered (hothers c h).1 (hothers c h).2 fun r hr => ?_
  simpa using List.all_eq_true.1 (List.all_eq_true.1 hrows r hr) c h

/-- A row of the table sends its characters to small letters. -/
theorem isSmall_apply {r : CaseRow} (hr : r ∈ lowercaseRows) {n : Nat} (hn : r.covers n = true) :
    IsSmall (Char.ofNat (r.apply n)) := by
  by_cases hvalid : (r.apply n).isValidChar
  · have htoNat : (Char.ofNat (r.apply n)).toNat = r.apply n := by
      rw [Char.ofNat, dif_pos hvalid]
      rfl
    have hclear : ∀ r' ∈ .only 'İ'.toNat :: .only capitalSigma.toNat :: lowercaseRows,
        r'.covers (Char.ofNat (r.apply n)).toNat = false := fun r' hr' => by
      rw [htoNat]
      exact CaseRow.covers_apply (staysClear_of_mem_lowercaseRows hr hr') hn
    simp only [List.forall_mem_cons] at hclear
    refine isSmall_of_uncovered ?_ ?_ hclear.2.2
    · exact CaseRow.ne_of_covers_only hclear.1
    · exact CaseRow.ne_of_covers_only hclear.2.1
  · have hzero : Char.ofNat (r.apply n) = '\x00' := by
      rw [Char.ofNat, dif_neg hvalid]
      rfl
    rw [hzero]
    exact isSmall_of_mem_otherSmall (by simp [otherSmall])

theorem isSmall_of_mem_lowercaseChar (hc : c ≠ capitalSigma) (h : d ∈ lowercaseChar c) :
    IsSmall d := by
  rw [lowercaseChar] at h
  split at h
  case isTrue =>
    have hparts : ∀ d ∈ ['i', '\u0307'], d ∈ otherSmall := by simp [otherSmall]
    exact isSmall_of_mem_otherSmall (hparts d h)
  case isFalse hdot =>
    cases hrow : lowercaseRows.find? (·.covers c.toNat) with
    | some r =>
      rw [hrow] at h
      obtain rfl := List.mem_singleton.1 h
      have hcovers := List.find?_some hrow
      exact isSmall_apply (List.mem_of_find?_eq_some hrow) hcovers
    | none =>
      rw [hrow] at h
      obtain rfl := List.mem_singleton.1 h
      exact isSmall_of_uncovered hdot hc (by simpa using hrow)

/-- **A lower-case form holds small letters only**, whatever stands in front of it. -/
theorem isSmall_of_mem_lowercaseAfter {before : List Char} (h : d ∈ lowercaseAfter before cs) :
    IsSmall d := by
  induction cs generalizing before with
  | nil => cases h
  | cons c cs ih =>
    rw [lowercaseAfter] at h
    rcases List.mem_append.1 h with hc | hcs
    · split at hc
      case isTrue =>
        have hsigmas : ∀ d ∈ ['ς', 'σ'], d ∈ otherSmall := by simp [otherSmall]
        refine isSmall_of_mem_otherSmall (hsigmas d ?_)
        split at hc <;> simp_all
      case isFalse hsigma => exact isSmall_of_mem_lowercaseChar hsigma hc
    · exact ih hcs

theorem lowercaseAfter_eq_self (before : List Char) (h : ∀ c ∈ cs, IsSmall c) :
    lowercaseAfter before cs = cs := by
  induction cs generalizing before with
  | nil => rfl
  | cons c cs ih =>
    obtain ⟨⟨hself, hsigma⟩, hcs⟩ := List.forall_mem_cons.1 h
    rw [lowercaseAfter, if_neg hsigma, hself, ih _ hcs, List.singleton_append]

end Small

/-- **The texts in lower case** are those of small letters. -/
theorem lowercase_eq_self_iff {s : String} : lowercase s = s ↔ ∀ c ∈ s.toList, IsSmall c := by
  constructor
  · intro h c hc
    rw [← h, lowercase, String.toList_ofList] at hc
    exact isSmall_of_mem_lowercaseAfter hc
  · intro h
    rw [lowercase, lowercaseAfter_eq_self [] h, String.ofList_toList]

/-- **A lower-case form is its own.** -/
@[simp] theorem lowercase_lowercase (s : String) : lowercase (lowercase s) = lowercase s := by
  refine lowercase_eq_self_iff.2 fun c hc => ?_
  rw [lowercase, String.toList_ofList] at hc
  exact isSmall_of_mem_lowercaseAfter hc

end AgentShell.Text
