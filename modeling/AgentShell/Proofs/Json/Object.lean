import AgentShell.Proofs.Json.Document
import AgentShell.Proofs.Text.Reader
import AgentShell.Text.JsonObject
import Mathlib.Tactic.SplitIfs

/-!
# Printed objects, read back

Reading a text undoes quoting it, whatever characters are in it: each is escaped by itself, and read
back by itself. So an object of texts is read back from its printed form, with its members in order
and each text character for character.

## Main results

* `JsonReader.character_escape`, `JsonReader.text_quote`: an escaped character and a quoted text
* `JsonReader.value_print`: a printed object, in front of whatever stands there
* `Json.decode?_print`: a printed object as a document
-/

namespace AgentShell

namespace JsonReader

open Text (JsonObject.member JsonObject.print)
open Text.JsonString (escape quote hexDigit)
open Text.Reader

variable {c d : Char} {cs rest : List Char} {m : String × String} {ms : List (String × String)}

section Text

theorem hexDigit?_hexDigit : ∀ n < 16, Text.hexDigit? (hexDigit n) = some n := by
  decide

theorem coded_of_lt (h : c.toNat < 0x20) (rest : List Char) :
    coded ('0' :: '0' :: hexDigit (c.toNat / 16) ::
      hexDigit (c.toNat % 16) :: rest) = some (c, rest) := by
  have hcode : Text.hexDigits 4 0 ('0' :: '0' :: hexDigit (c.toNat / 16) ::
      hexDigit (c.toNat % 16) :: rest) = some (c.toNat, rest) := by
    have hzero : Text.hexDigit? '0' = some 0 := by decide
    have hhigh := hexDigit?_hexDigit (c.toNat / 16) (by omega)
    have hlow := hexDigit?_hexDigit (c.toNat % 16) (by omega)
    rw [Text.hexDigits_cons hzero, Text.hexDigits_cons hzero, Text.hexDigits_cons hhigh,
      Text.hexDigits_cons hlow]
    show some (_, rest) = _
    rw [Option.some.injEq, Prod.mk.injEq]
    exact ⟨by omega, rfl⟩
  have hvalid : (guard c.toNat.isValidChar : Text.Reader Unit) = pure () := if_pos c.valid
  rw [coded, bind_of_some hcode, if_neg (by omega), hvalid]
  show some (Char.ofNat c.toNat, rest) = _
  rw [Char.ofNat_toNat]

/-- **An escaped character is read back.** -/
theorem character_escape (c : Char) (rest : List Char) :
    character (escape c ++ rest) = some (c, rest) := by
  unfold escape
  split_ifs with hquote hbackslash hb hf hn hr ht hcontrol
  iterate 7 subst c; rfl
  · have hcode := coded_of_lt hcontrol rest
    exact (orElse_of_none rfl).trans hcode
  · refine orElse_of_some (satisfying_of_pos ?_ rest)
    simp [isPlain, hquote, hbackslash, Nat.not_lt.1 hcontrol]

/-- **A quoted text is read back**, and what stands behind it is left. -/
theorem text_quote (s : String) (rest : List Char) :
    text ((quote s).toList ++ rest) = some (s, rest) := by
  have hmany : many character (s.toList.flatMap escape ++ '"' :: rest) =
      some (s.toList.map id, '"' :: rest) := by
    refine many_flatMap (fun c _ => character_escape c) rfl fun c _ => ?_
    unfold escape
    split_ifs <;> simp
  have hq : (quote s).toList ++ rest =
      '"' :: (s.toList.flatMap escape ++ '"' :: rest) := by
    simp [quote]
  rw [hq, text, bind_of_some (char_cons ..), bind_of_some hmany, bind_of_some (char_cons ..),
    List.map_id, String.ofList_toList]
  rfl

end Text

section Blank

theorem blanks_append (h : cs.all isBlank = true) (hr : rest.head?.any isBlank = false) :
    blanks (cs ++ rest) = some ((), rest) :=
  bind_of_some (spanOf_append h hr)

theorem mark_append (h : cs.all isBlank = true) (hc : isBlank c = false) (rest : List Char) :
    mark c (cs ++ c :: rest) = some ((), rest) := by
  have hblanks : blanks (cs ++ c :: rest) = some ((), c :: rest) := blanks_append h hc
  rw [mark, bind_of_some hblanks, char_cons]

theorem mark_of_ne (h : cs.all isBlank = true) (hd : isBlank d = false) (hne : c ≠ d)
    (rest : List Char) : mark c (cs ++ d :: rest) = none := by
  have hblanks : blanks (cs ++ d :: rest) = some ((), d :: rest) := blanks_append h hd
  rw [mark, bind_of_some hblanks, char_of_ne hne]

end Blank

section Object

/-- A quoted text starts with a quote, so it does not start with white space. -/
theorem head?_quote (s : String) (rest : List Char) :
    ((quote s).toList ++ rest).head? = some '"' := by
  simp [quote]

theorem blanks_quote (h : cs.all isBlank = true) (s : String) (rest : List Char) :
    blanks (cs ++ ((quote s).toList ++ rest)) = some ((), (quote s).toList ++ rest) := by
  refine blanks_append h ?_
  rw [head?_quote]
  rfl

/-- A quoted text is a value, however deep values may be nested. -/
theorem value_quote (depth : Nat) (s : String) (rest : List Char) :
    value depth ([' '] ++ ((quote s).toList ++ rest)) = some (.string s, rest) := by
  have hspace : [' '].all isBlank = true := rfl
  have hblanks := blanks_quote hspace s rest
  have hscalar : scalar ((quote s).toList ++ rest) = some (.string s, rest) :=
    orElse_of_some (bind_of_some (text_quote s rest))
  cases depth with
  | zero => rw [value, bind_of_some hblanks, hscalar]
  | succ depth =>
    rw [value, bind_of_some hblanks]
    exact orElse_of_some hscalar

/-- **A printed member is read back**, with the line feed in front of it. -/
theorem member_print (depth : Nat) (m : String × String) (rest : List Char) :
    member (value depth) ('\n' :: (JsonObject.member m).toList ++ rest) =
      some ((m.1, .string m.2), rest) := by
  have hparts : '\n' :: (JsonObject.member m).toList ++ rest =
      ['\n', ' ', ' '] ++ ((quote m.1).toList ++
        ([] ++ ':' :: ([' '] ++ ((quote m.2).toList ++ rest)))) := by
    simp [JsonObject.member]
  have hindent : ['\n', ' ', ' '].all isBlank = true := rfl
  rw [hparts, member, bind_of_some (blanks_quote hindent m.1 _), bind_of_some (text_quote m.1 _),
    bind_of_some (mark_append rfl (by decide) _), bind_of_some (value_quote depth m.2 rest)]
  rfl

theorem toList_print_cons (m : String × String) (ms : List (String × String)) :
    (JsonObject.print (m :: ms)).toList =
      '\x7b' :: ('\n' :: (JsonObject.member m).toList ++
        (ms.flatMap (fun m => [','] ++ '\n' :: (JsonObject.member m).toList) ++
          ['\n', '\x7d'])) := by
  have hmore : ∀ m ms, (",\n".intercalate (List.map JsonObject.member (m :: ms))).toList =
      (JsonObject.member m).toList ++
        ms.flatMap fun m => [','] ++ '\n' :: (JsonObject.member m).toList := by
    intro m ms
    induction ms generalizing m with
    | nil => simp
    | cons m' ms ih =>
      rw [List.map_cons, List.map_cons, String.intercalate_cons_cons, ← List.map_cons,
        String.toList_append, String.toList_append, ih]
      simp
  have hprint : JsonObject.print (m :: ms) =
      "\x7b\n" ++ ",\n".intercalate (List.map JsonObject.member (m :: ms)) ++ "\n\x7d" := rfl
  rw [hprint, String.toList_append, String.toList_append, hmore]
  simp

/-- **The members of a printed object are read back**, in front of whatever stands there. -/
theorem enclosed_print (depth : Nat) (ms : List (String × String)) (rest : List Char) :
    enclosed '\x7b' '\x7d' (member (value depth)) ((JsonObject.print ms).toList ++ rest) =
      some (ms.map fun m => (m.1, .string m.2), rest) := by
  cases ms with
  | nil => rfl
  | cons m ms =>
    have hopen : ∀ tail, mark '\x7d' ('\n' :: (JsonObject.member m).toList ++ tail) = none := by
      intro tail
      have hparts : '\n' :: (JsonObject.member m).toList ++ tail = ['\n', ' ', ' '] ++ '"' ::
          (m.1.toList.flatMap escape ++ '"' :: ':' :: ' ' :: ((quote m.2).toList ++ tail)) := by
        simp [JsonObject.member, quote]
      rw [hparts, mark_of_ne (by decide) (by decide) (by decide)]
    have hclose : mark '\x7d' (['\n'] ++ '\x7d' :: rest) = some ((), rest) :=
      mark_append (by decide) (by decide) rest
    have hcomma : ∀ tail, mark ',' ([','] ++ tail) = some ((), tail) := by
      intro tail
      show mark ',' ([] ++ ',' :: tail) = _
      exact mark_append rfl (by decide) tail
    have hend : mark ',' (['\n'] ++ '\x7d' :: rest) = none :=
      mark_of_ne (by decide) (by decide) (by decide) rest
    have hmembers := separated_flatMap (fun m' (_ : m' ∈ m :: ms) => member_print depth m') hcomma
      (by simp) hend
    rw [toList_print_cons, List.cons_append, List.append_assoc, List.append_assoc, enclosed,
      bind_of_some (char_cons ..), orElse_of_none (bind_of_none (hopen _))]
    exact (bind_of_some hmembers).trans (bind_of_some hclose)

/-- **A printed object is read back**, in front of whatever stands there. -/
theorem value_print (depth : Nat) (ms : List (String × String)) (rest : List Char) :
    value (depth + 1) ((JsonObject.print ms).toList ++ rest) =
      some (.object (ms.map fun m => (m.1, .string m.2)), rest) := by
  have hobject := enclosed_print depth ms rest
  obtain ⟨tail, ht⟩ : ∃ tail, (JsonObject.print ms).toList ++ rest = '\x7b' :: tail := by
    cases ms with
    | nil => exact ⟨'\x7d' :: rest, rfl⟩
    | cons m ms =>
      rw [toList_print_cons]
      exact ⟨_, rfl⟩
  rw [ht] at hobject ⊢
  have hblanks : blanks ([] ++ '\x7b' :: tail) = some ((), '\x7b' :: tail) :=
    blanks_append rfl rfl
  have hscalar : scalar ('\x7b' :: tail) = none := rfl
  have harray : enclosed '[' ']' (value depth) ('\x7b' :: tail) = none :=
    bind_of_none (char_of_ne (by decide) tail)
  rw [List.nil_append] at hblanks
  rw [value, bind_of_some hblanks, orElse_of_none hscalar, orElse_of_none (bind_of_none harray),
    bind_of_some hobject]
  rfl

end Object

end JsonReader

/-- **A printed object is a document**, of the object with its members in order and their texts. -/
theorem Json.decode?_print (ms : List (String × String)) :
    decode? (Text.JsonObject.print ms) = some (.object (ms.map fun m => (m.1, .string m.2))) := by
  obtain ⟨depth, hd⟩ : ∃ depth, (Text.JsonObject.print ms).length = depth + 1 := by
    rw [← String.length_toList]
    cases ms with
    | nil => exact ⟨1, rfl⟩
    | cons m ms =>
      rw [JsonReader.toList_print_cons]
      exact ⟨_, rfl⟩
  have hread := JsonReader.value_print depth ms []
  rw [List.append_nil] at hread
  rw [decode?, hd, Text.Reader.readAll, JsonReader.document, Text.Reader.bind_of_some hread]
  rfl

/-- Documents need not be printed objects, but a line feed inside a text has to be escaped. -/
example : (Json.decode? "[0, \"\\ud83d\\ude00\"]").isSome ∧ (Json.decode? "\"a\nb\"").isNone := by
  decide +kernel

end AgentShell
