import AgentShell.Proofs.Text.Octets
import AgentShell.Text.Utf8

/-!
# Decoding in pieces

The decoder gives back every text from its octets, and an octet of ASCII is a boundary in whatever
octets it stands: a character that was begun before it ends there as a replacement character. No
character of ASCII comes from other octets, so cutting octets at an octet of ASCII and cutting their
text at its character come to the same pieces.

## Main definitions

* `Utf8.Partial.Sound`: the characters begun that the decoder comes to

## Main results

* `Utf8.decode_append_ascii`: octets in front of an octet of ASCII and behind it
* `Utf8.decode_eq_nil_iff`: no octets are lost
* `Utf8.decode_octets`: decoding undoes encoding
* `Utf8.mem_of_mem_decode`: where a character of ASCII comes from
* `Utf8.splitOn_decode`: cutting a decoded text
-/

namespace AgentShell.Text.Utf8

/-- **The characters begun that the decoder comes to.** The next octet is none of ASCII, and with
the least octets that are still owed the code point is above ASCII. -/
structure Partial.Sound (p : Partial) : Prop where
  low : 0x80 ≤ p.low
  high : p.high ≤ 0xBF
  last : p.owed ≤ 1 → 2 ≤ p.bits
  more : 1 < p.owed → 1 ≤ p.bits ∨ 0x90 ≤ p.low

variable {p : Option Partial} {q : Partial} {b : UInt8} {bs : List UInt8}

/-! ## One octet -/

section Step

theorem first_of_ascii (h : b.toNat ≤ 0x7F) : first b = ([Char.ofNat b.toNat], none) := by
  rw [first, if_pos h]

/-- An octet of ASCII ends a character begun, and is a character itself. -/
theorem step_of_ascii (hp : ∀ q ∈ p, q.Sound) (h : b.toNat ≤ 0x7F) :
    step p b = (flush p ++ [Char.ofNat b.toNat], none) := by
  cases p with
  | none => exact first_of_ascii h
  | some q =>
    have hq := (hp q rfl).low
    rw [step, if_neg (by omega), first_of_ascii h]
    rfl

theorem sound_of_mem_first (h : q ∈ (first b).2) : q.Sound := by
  unfold first at h
  dsimp only at h
  split_ifs at h <;> cases h <;> constructor <;> dsimp only <;> omega

/-- **What is begun behind an octet is sound.** -/
theorem sound_of_mem_step (hp : ∀ q ∈ p, q.Sound) (h : q ∈ (step p b).2) : q.Sound := by
  cases p with
  | none => exact sound_of_mem_first h
  | some r =>
    obtain ⟨hl, hh, -, hm⟩ := hp r rfl
    rw [step] at h
    dsimp only at h
    split_ifs at h with hb ho
    · cases h
    · cases h
      constructor <;> dsimp only <;> omega
    · exact sound_of_mem_first h

/-- What is no code point becomes NUL. -/
theorem toNat_ofNat_eq (n : Nat) : (Char.ofNat n).toNat = n ∨ (Char.ofNat n).toNat = 0 := by
  by_cases h : n.isValidChar
  · rw [Char.ofNat, dif_pos h]
    exact .inl rfl
  · rw [Char.ofNat, dif_neg h]
    exact .inr rfl

theorem toNat_ofNat_of_ascii {n : Nat} (h : n ≤ 0x7F) : (Char.ofNat n).toNat = n := by
  rw [Char.ofNat, dif_pos (.inl (by omega))]
  rfl

theorem toNat_eq_of_mem_first {c : Char} (hc : c.toNat ≤ 0x7F) (h : c ∈ (first b).1) :
    b.toNat = c.toNat := by
  by_cases hb : b.toNat ≤ 0x7F
  · rw [first_of_ascii hb] at h
    rw [List.mem_singleton.1 h, toNat_ofNat_of_ascii hb]
  · exfalso
    unfold first at h
    dsimp only at h
    split_ifs at h
    all_goals first
      | exact absurd h List.not_mem_nil
      | obtain rfl := List.mem_singleton.1 h
        exact absurd hc (by decide)

/-- **A character of ASCII comes from an octet of its own**, NUL apart. -/
theorem toNat_eq_of_mem_step (hp : ∀ q ∈ p, q.Sound) {c : Char} (h0 : 0 < c.toNat)
    (hc : c.toNat ≤ 0x7F) (h : c ∈ (step p b).1) : b.toNat = c.toNat := by
  cases p with
  | none => exact toNat_eq_of_mem_first hc h
  | some r =>
    obtain ⟨hl, hh, hlast, -⟩ := hp r rfl
    rw [step] at h
    dsimp only at h
    split_ifs at h with hb ho
    · obtain rfl := List.mem_singleton.1 h
      have := hlast ho
      rcases toNat_ofNat_eq (r.bits * 64 + b.toNat % 64) with he | he <;> omega
    · cases h
    · rcases List.mem_cons.1 h with rfl | h
      · exact absurd hc (by decide)
      · exact toNat_eq_of_mem_first hc h

end Step

/-! ## Octets of ASCII between others -/

section Decode

@[simp] theorem decodeFrom_nil (p : Option Partial) : decodeFrom p [] = flush p := rfl

theorem decodeFrom_cons (p : Option Partial) (b : UInt8) (bs : List UInt8) :
    decodeFrom p (b :: bs) = (step p b).1 ++ decodeFrom (step p b).2 bs := rfl

/-- Octets in front of an octet of ASCII and behind it are decoded apart. -/
theorem decodeFrom_append_ascii (hp : ∀ q ∈ p, q.Sound) (h : b.toNat ≤ 0x7F) (as bs : List UInt8) :
    decodeFrom p (as ++ b :: bs) = decodeFrom p as ++ Char.ofNat b.toNat :: decode bs := by
  induction as generalizing p with
  | nil =>
    rw [List.nil_append, decodeFrom_cons, step_of_ascii hp h, decodeFrom_nil, List.append_assoc]
    rfl
  | cons a as ih =>
    rw [List.cons_append, decodeFrom_cons, decodeFrom_cons, ih fun q hq => sound_of_mem_step hp hq,
      List.append_assoc]

theorem mem_of_mem_decodeFrom (hp : ∀ q ∈ p, q.Sound) {c : Char} (h0 : 0 < c.toNat)
    (hc : c.toNat ≤ 0x7F) (h : c ∈ decodeFrom p bs) : ∃ b ∈ bs, b.toNat = c.toNat := by
  induction bs generalizing p with
  | nil =>
    cases p with
    | none => cases h
    | some r =>
      obtain rfl := List.mem_singleton.1 h
      exact absurd hc (by decide)
  | cons b bs ih =>
    rw [decodeFrom_cons, List.mem_append] at h
    rcases h with h | h
    · exact ⟨b, List.mem_cons_self, toNat_eq_of_mem_step hp h0 hc h⟩
    · obtain ⟨a, ha, hac⟩ := ih (fun q hq => sound_of_mem_step hp hq) h
      exact ⟨a, List.mem_cons_of_mem _ ha, hac⟩

@[simp] theorem decode_nil : decode [] = [] := rfl

/-- **Octets in front of an octet of ASCII and behind it** are decoded apart. -/
theorem decode_append_ascii (h : b.toNat ≤ 0x7F) (as bs : List UInt8) :
    decode (as ++ b :: bs) = decode as ++ Char.ofNat b.toNat :: decode bs :=
  decodeFrom_append_ascii (by simp) h as bs

theorem step_ne_nil_or_isSome (p : Option Partial) (b : UInt8) :
    (step p b).1 ≠ [] ∨ (step p b).2.isSome := by
  have hf : (first b).1 ≠ [] ∨ (first b).2.isSome := by
    unfold first
    dsimp only
    split_ifs <;> simp
  cases p with
  | none => exact hf
  | some q =>
    rw [step]
    dsimp only
    split_ifs <;> simp

theorem decodeFrom_ne_nil (h : p.isSome ∨ bs ≠ []) : decodeFrom p bs ≠ [] := by
  induction bs generalizing p with
  | nil =>
    cases p with
    | none => simp at h
    | some q => exact List.cons_ne_nil _ _
  | cons b bs ih =>
    rw [decodeFrom_cons]
    rcases step_ne_nil_or_isSome p b with hs | hs
    · exact List.append_ne_nil_of_left_ne_nil hs _
    · exact List.append_ne_nil_of_right_ne_nil _ (ih (.inl hs))

/-- **No octets are lost**: only an empty text comes from none. -/
theorem decode_eq_nil_iff : decode bs = [] ↔ bs = [] := by
  refine ⟨?_, fun h => h ▸ rfl⟩
  intro h
  by_contra hb
  exact decodeFrom_ne_nil (.inr hb) h

end Decode

/-! ## Decoding what was encoded -/

section Encode

theorem decode_cons (b : UInt8) (bs : List UInt8) :
    decode (b :: bs) = (first b).1 ++ decodeFrom (first b).2 bs := rfl

theorem decodeFrom_last {low high bits : Nat} (h : low ≤ b.toNat ∧ b.toNat ≤ high)
    (bs : List UInt8) :
    decodeFrom (some ⟨1, low, high, bits⟩) (b :: bs) =
      Char.ofNat (bits * 64 + b.toNat % 64) :: decode bs := by
  rw [decodeFrom_cons, step, if_pos h, if_pos (Nat.le_refl 1)]
  rfl

theorem decodeFrom_more {owed low high bits : Nat} (h : low ≤ b.toNat ∧ b.toNat ≤ high)
    (bs : List UInt8) :
    decodeFrom (some ⟨owed + 2, low, high, bits⟩) (b :: bs) =
      decodeFrom (some ⟨owed + 1, 0x80, 0xBF, bits * 64 + b.toNat % 64⟩) bs := by
  rw [decodeFrom_cons, step, if_pos h, if_neg (by dsimp only; omega)]
  rfl

theorem toNat_ofNat_of_lt {n : Nat} (h : n < 256) : (UInt8.ofNat n).toNat = n := by
  rw [UInt8.toNat_ofNat', Nat.mod_eq_of_lt h]

theorem first_of_two {k : Nat} (h : 2 ≤ k) (hk : k < 32) :
    first (UInt8.ofNat (k + 192)) = ([], some ⟨1, 0x80, 0xBF, k⟩) := by
  have hb : k + 192 - 0xC0 = k := by omega
  rw [first, toNat_ofNat_of_lt (by omega), if_neg (by omega), if_pos (by omega), hb]

/-- The first of three octets. The bounds of the next one keep out what two octets encode, and the
surrogates. -/
theorem first_of_three : ∀ k < 16, first (UInt8.ofNat (k + 224)) =
    ([], some ⟨2, if k = 0 then 0xA0 else 0x80, if k = 13 then 0x9F else 0xBF, k⟩) := by
  decide

/-- The first of four octets. The bounds of the next one keep out what three octets encode, and what
is above the last code point. -/
theorem first_of_four : ∀ k < 5, first (UInt8.ofNat (k + 240)) =
    ([], some ⟨3, if k = 0 then 0x90 else 0x80, if k = 4 then 0x8F else 0xBF, k⟩) := by
  decide

/-- **A character is decoded from its octets.** -/
theorem decode_utf8EncodeChar_append (c : Char) (bs : List UInt8) :
    decode (String.utf8EncodeChar c ++ bs) = c :: decode bs := by
  have hc : Char.ofNat c.val.toNat = c := Char.ofNat_toNat c
  have hn := toNat_val_lt c
  have hs : c.val.toNat < 0xD800 ∨ 0xDFFF < c.val.toNat := c.valid.imp (fun h => h) fun h => h.1
  unfold String.utf8EncodeChar
  dsimp only
  generalize c.val.toNat = n at hc hn hs
  -- The octets hold the digits of the code point to the base 64.
  have h64 : n / 64 * 64 + n % 64 = n := Nat.div_add_mod' n 64
  have h4096 : n / 4096 * 64 + n / 64 % 64 = n / 64 := by omega
  have h262144 : n / 262144 * 64 + n / 4096 % 64 = n / 4096 := by omega
  have htail (k : Nat) : (UInt8.ofNat (k % 64 + 128)).toNat = k % 64 + 128 :=
    toNat_ofNat_of_lt (by omega)
  have hmod (k : Nat) : (k % 64 + 128) % 64 = k % 64 := by omega
  split_ifs with h₁ h₂ h₃ <;> simp only [List.cons_append, List.nil_append, decode_cons]
  · have hb : (UInt8.ofNat n).toNat = n := toNat_ofNat_of_lt (by omega)
    rw [first_of_ascii (hb.trans_le h₁), hb, hc]
    rfl
  · rw [Nat.mod_eq_of_lt (by omega), first_of_two (by omega) (by omega), decodeFrom_last, htail,
      hmod, h64, hc]
    · rfl
    · rw [htail]
      omega
  · rw [Nat.mod_eq_of_lt (by omega), first_of_three _ (by omega), decodeFrom_more, decodeFrom_last,
      htail, htail, hmod, hmod, h4096, h64, hc]
    · rfl
    · rw [htail]
      omega
    · rw [htail]
      split_ifs <;> omega
  · rw [Nat.mod_eq_of_lt (by omega), first_of_four _ (by omega), decodeFrom_more, decodeFrom_more,
      decodeFrom_last, htail, htail, htail, hmod, hmod, hmod, h262144, h4096, h64, hc]
    · rfl
    · rw [htail]
      omega
    · rw [htail]
      omega
    · rw [htail]
      split_ifs <;> omega

/-- **Decoding undoes encoding.** -/
theorem decode_octets (s : String) : decode (octets s) = s.toList := by
  rw [octets_eq_flatMap]
  induction s.toList with
  | nil => rfl
  | cons c cs ih => rw [List.flatMap_cons, decode_utf8EncodeChar_append, ih]

end Encode

/-! ## Cutting at an octet -/

section Split

variable (h0 : 0 < b.toNat) (hb : b.toNat ≤ 0x7F)

include h0 hb

/-- **A character of ASCII comes from its octet**, NUL apart. -/
theorem mem_of_mem_decode (h : Char.ofNat b.toNat ∈ decode bs) : b ∈ bs := by
  have hc := toNat_ofNat_of_ascii hb
  obtain ⟨a, ha, hac⟩ := mem_of_mem_decodeFrom (by simp) (by omega) (by omega) h
  rwa [← UInt8.toNat_inj.1 (hac.trans hc)]

/-- **Cutting a decoded text** at a character of ASCII is cutting its octets. -/
theorem splitOn_decode (bs : List UInt8) :
    (decode bs).splitOn (Char.ofNat b.toNat) = (bs.splitOn b).map decode := by
  by_cases h : b ∈ bs
  · obtain ⟨as, cs, hbs⟩ := List.append_of_mem h
    have hl : bs.length = as.length + (cs.length + 1) := by
      rw [hbs, List.length_append, List.length_cons]
    rw [hbs, decode_append_ascii hb, List.splitOn_append_cons_self, List.splitOn_append_cons_self,
      List.map_append, splitOn_decode as, splitOn_decode cs]
  · have hc : Char.ofNat b.toNat ∉ decode bs := fun hm => h (mem_of_mem_decode h0 hb hm)
    rw [List.splitOn_eq_singleton hc, List.splitOn_eq_singleton h, List.map_singleton]
termination_by bs.length

end Split

end AgentShell.Text.Utf8
