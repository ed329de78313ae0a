import AgentShell.Text.Lowercase

/-!
# The two lower-case forms

The form that changes the letters A to Z only is the coarser way to read a text: two texts that
agree in it agree in the full form too. The full form of a text of ASCII characters changes
nothing else, so for such texts the two forms are one.

## Main results

* `lowercase_lowercaseAscii`: the full form does not see the case of the letters A to Z
* `lowercase_eq_of_lowercaseAscii_eq`: texts that agree up to the case of A to Z have one full form
* `lowercase_eq_lowercaseAscii`: the full form of an ASCII text
-/

namespace AgentShell.Text

variable {s t : String} {c : Char}

theorem exists_of_toLower_ne (h : c.toLower ≠ c) : ∃ n < 26, c = Char.ofNat (0x41 + n) := by
  by_cases hc : c.val ≥ 'A'.val ∧ c.val ≤ 'Z'.val
  · have hlo : 0x41 ≤ c.toNat := UInt32.le_iff_toNat_le.1 hc.1
    have hhi : c.toNat ≤ 0x5A := UInt32.le_iff_toNat_le.1 hc.2
    refine ⟨c.toNat - 0x41, by omega, ?_⟩
    rw [show 0x41 + (c.toNat - 0x41) = c.toNat by omega, Char.ofNat_toNat]
  · exact absurd (dif_neg hc) h

/-- What the tables tell of a character, they tell of its small letter: the letters A to Z are
looked up, and other characters are small letters themselves. -/
theorem tables_toLower (c : Char) :
    lowercaseChar c.toLower = lowercaseChar c ∧ isCased c.toLower = isCased c ∧
      isCaseIgnorable c.toLower = isCaseIgnorable c ∧
      (c.toLower = capitalSigma ↔ c = capitalSigma) := by
  by_cases h : c.toLower = c
  · simp [h]
  · have hcapitals : ∀ n < 26, let c := Char.ofNat (0x41 + n)
        lowercaseChar c.toLower = lowercaseChar c ∧ isCased c.toLower = isCased c ∧
          isCaseIgnorable c.toLower = isCaseIgnorable c ∧
          (c.toLower = capitalSigma ↔ c = capitalSigma) := by decide +kernel
    obtain ⟨n, hn, rfl⟩ := exists_of_toLower_ne h
    exact hcapitals n hn

@[simp] theorem lowercaseChar_toLower (c : Char) : lowercaseChar c.toLower = lowercaseChar c :=
  (tables_toLower c).1

@[simp] theorem isCased_toLower (c : Char) : isCased c.toLower = isCased c :=
  (tables_toLower c).2.1

@[simp] theorem isCaseIgnorable_toLower (c : Char) :
    isCaseIgnorable c.toLower = isCaseIgnorable c :=
  (tables_toLower c).2.2.1

@[simp] theorem toLower_eq_capitalSigma_iff (c : Char) :
    c.toLower = capitalSigma ↔ c = capitalSigma :=
  (tables_toLower c).2.2.2

@[simp] theorem meetsCased_map_toLower (cs : List Char) :
    meetsCased (cs.map Char.toLower) = meetsCased cs := by
  have hskip : isCaseIgnorable ∘ Char.toLower = isCaseIgnorable :=
    funext isCaseIgnorable_toLower
  rw [meetsCased, meetsCased, List.dropWhile_map, hskip]
  cases cs.dropWhile isCaseIgnorable <;> simp

theorem lowercaseAfter_map_toLower (before cs : List Char) :
    lowercaseAfter (before.map Char.toLower) (cs.map Char.toLower) = lowercaseAfter before cs := by
  induction cs generalizing before with
  | nil => rfl
  | cons c cs ih =>
    have hcs := ih (c :: before)
    simp only [List.map_cons] at hcs
    simp [lowercaseAfter, hcs]

/-- **The full form does not see the case of the letters A to Z.** -/
@[simp] theorem lowercase_lowercaseAscii (s : String) :
    lowercase (lowercaseAscii s) = lowercase s := by
  rw [lowercase, lowercase, lowercaseAscii, String.toList_map]
  exact congrArg String.ofList (lowercaseAfter_map_toLower [] s.toList)

theorem lowercase_eq_of_lowercaseAscii_eq (h : lowercaseAscii s = lowercaseAscii t) :
    lowercase s = lowercase t := by
  rw [← lowercase_lowercaseAscii s, h, lowercase_lowercaseAscii]

/-- The characters of ASCII map one by one, and none of them is a sigma. -/
theorem lowercaseChar_of_ascii (h : c.toNat < 0x80) :
    lowercaseChar c = [c.toLower] ∧ c ≠ capitalSigma := by
  have hall : ∀ n < 0x80, lowercaseChar (Char.ofNat n) = [(Char.ofNat n).toLower] ∧
      Char.ofNat n ≠ capitalSigma := by decide +kernel
  simpa using hall c.toNat h

theorem lowercaseAfter_of_ascii (before : List Char) {cs : List Char}
    (h : ∀ c ∈ cs, c.toNat < 0x80) : lowercaseAfter before cs = cs.map Char.toLower := by
  induction cs generalizing before with
  | nil => rfl
  | cons c cs ih =>
    obtain ⟨hc, hcs⟩ := List.forall_mem_cons.1 h
    obtain ⟨hchar, hsigma⟩ := lowercaseChar_of_ascii hc
    rw [lowercaseAfter, if_neg hsigma, hchar, ih _ hcs, List.map_cons, List.singleton_append]

/-- **The two forms of an ASCII text are one.** -/
theorem lowercase_eq_lowercaseAscii (h : ∀ c ∈ s.toList, c.toNat < 0x80) :
    lowercase s = lowercaseAscii s := by
  rw [lowercase, lowercaseAfter_of_ascii [] h, lowercaseAscii, ← String.toList_map,
    String.ofList_toList]

end AgentShell.Text
