import AgentShell.NameTable
import Mathlib.Data.List.Lex
import Mathlib.Tactic.SplitIfs

/-!
# The order of texts by octets

Texts are ordered by the code points of their characters. Their encodings in UTF-8 are in the same
order, octet by octet: a smaller character has an encoding that is smaller at the first octet where
the two differ, so what follows it plays no part. Whether the names of a table ascend can be read
from either.

## Main definitions

* `Text.octets`: the octets of a text

## Main results

* `Text.utf8EncodeChar_append_lt`: a smaller character has a smaller encoding
* `Text.octets_lt_octets_iff`: texts and their octets are in the same order
* `NameTable.sorted_iff_octets`: the names of a table ascend by octets
-/

namespace AgentShell

namespace Text

/-- The octets of a text in UTF-8. -/
def octets (s : String) : List UInt8 :=
  s.toUTF8.data.toList

theorem octets_eq_flatMap (s : String) : octets s = s.toList.flatMap String.utf8EncodeChar := by
  rw [octets, String.toUTF8_eq_toByteArray, ← String.utf8Encode_toList, List.utf8Encode]
  simp

theorem ofNat_cons_lt_iff {m n : Nat} (hm : m < 256) (hn : n < 256) {xs ys : List UInt8} :
    UInt8.ofNat m :: xs < UInt8.ofNat n :: ys ↔ m < n ∨ m = n ∧ xs < ys := by
  rw [List.cons_lt_cons_iff, UInt8.lt_iff_toNat_lt, ← UInt8.toNat_inj, UInt8.toNat_ofNat',
    UInt8.toNat_ofNat', Nat.mod_eq_of_lt hm, Nat.mod_eq_of_lt hn]

theorem toNat_val_lt (c : Char) : c.val.toNat < 0x110000 := by
  rcases c.valid with h | h
  · have : c.val.toNat < 0xd800 := h
    omega
  · exact h.2

/-- **A smaller character has a smaller encoding**, whatever follows the two. -/
theorem utf8EncodeChar_append_lt {c d : Char} (h : c < d) (xs ys : List UInt8) :
    String.utf8EncodeChar c ++ xs < String.utf8EncodeChar d ++ ys := by
  have hcd : c.val.toNat < d.val.toNat := h
  have hd := toNat_val_lt d
  unfold String.utf8EncodeChar
  generalize c.val.toNat = m at hcd
  generalize d.val.toNat = n at hcd hd
  have hbits (k : Nat) : k / 64 / 64 = k / 4096 ∧ k / 4096 / 64 = k / 262144 := by omega
  have hm := hbits m
  have hn := hbits n
  have hm' : m / 262144 / 8 = 0 := by omega
  have hn' : n / 262144 / 8 = 0 := by omega
  -- A longer encoding begins with a greater octet; two of one length differ in some octet.
  simp only
  split_ifs <;> simp only [List.cons_append, List.nil_append]
  all_goals try omega
  all_goals simp (disch := omega) only [ofNat_cons_lt_iff]
  all_goals omega

theorem flatMap_utf8EncodeChar_lt {cs ds : List Char} (h : cs < ds) :
    cs.flatMap String.utf8EncodeChar < ds.flatMap String.utf8EncodeChar := by
  induction h with
  | @nil d ds =>
    obtain ⟨o, os, ho⟩ := List.exists_cons_of_ne_nil (String.utf8EncodeChar_ne_nil (c := d))
    rw [List.flatMap_cons, ho]
    exact List.nil_lt_cons ..
  | rel h =>
    rw [List.flatMap_cons, List.flatMap_cons]
    exact utf8EncodeChar_append_lt h _ _
  | cons h ih =>
    rw [List.flatMap_cons, List.flatMap_cons]
    exact List.append_left_lt ih

/-- **Texts and their octets are in the same order.** -/
theorem octets_lt_octets_iff (a b : String) : octets a < octets b ↔ a < b := by
  have hlt {a b : String} (h : a < b) : octets a < octets b := by
    rw [octets_eq_flatMap, octets_eq_flatMap]
    exact flatMap_utf8EncodeChar_lt h
  refine ⟨?_, hlt⟩
  intro h
  by_contra hn
  by_cases hba : b < a
  · exact List.lt_asymm h (hlt hba)
  · obtain rfl := String.le_antisymm (String.not_lt.1 hba) (String.not_lt.1 hn)
    exact List.lt_irrefl _ h

end Text

/-- **The names of a table ascend by octets.** -/
theorem NameTable.sorted_iff_octets {α : Type} (t : NameTable α) :
    t.Sorted ↔ t.names.Pairwise fun a b => Text.octets a < Text.octets b := by
  simp only [Text.octets_lt_octets_iff]
  rfl

end AgentShell
