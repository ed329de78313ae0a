import AgentShell.Text.Reader

/-!
# What readers take

A reader that is put together from others takes what they take, one after the other. A repeated
reader takes whole pieces for as long as there are some, and it stops in front of what is no piece.

## Main results

* `Text.Reader.bind_of_some`, `Text.Reader.orElse_of_none`: one reader behind another, or instead of
  it
* `Text.Reader.many_flatMap`, `Text.Reader.separated_flatMap`: a repeated reader takes all pieces
* `Text.hexDigits_cons`: a number of hexadecimal digits
-/

namespace AgentShell.Text

namespace Reader

variable {α β : Type} {r r' : Reader α} {f : α → Reader β} {a : α} {c d : Char}
  {cs input rest : List Char} {p : Char → Bool}

theorem bind_of_some (h : r input = some (a, rest)) : (r >>= f) input = f a rest := by
  show (r input).bind _ = _
  rw [h]
  rfl

theorem bind_of_none (h : r input = none) : (r >>= f) input = none := by
  show (r input).bind _ = _
  rw [h]
  rfl

theorem orElse_of_some (h : r input = some (a, rest)) : (r <|> r') input = some (a, rest) := by
  show (r input <|> r' input) = _
  rw [h]
  rfl

theorem orElse_of_none (h : r input = none) : (r <|> r') input = r' input := by
  show (r input <|> r' input) = _
  rw [h]
  rfl

@[simp] theorem char_cons (c : Char) (cs : List Char) : char c (c :: cs) = some ((), cs) := by
  simp [char, literal]

theorem char_of_ne (h : c ≠ d) (cs : List Char) : char c (d :: cs) = none := by
  simp [char, literal, h]

theorem satisfying_of_pos (h : p c = true) (cs : List Char) :
    satisfying p (c :: cs) = some (c, cs) := by
  simp [satisfying, h]

/-- A run is taken whole, up to a character that does not belong to it. -/
theorem spanOf_append (h : cs.all p = true) (hr : rest.head?.any p = false) :
    spanOf p (cs ++ rest) = some (cs, rest) := by
  have hrest : rest.takeWhile p = [] ∧ rest.dropWhile p = rest := by
    cases rest with
    | nil => exact ⟨rfl, rfl⟩
    | cons c rest =>
      have hc : p c = false := hr
      simp [hc]
  rw [List.all_eq_true] at h
  rw [spanOf, List.takeWhile_append_of_pos h, List.dropWhile_append_of_pos h, hrest.1, hrest.2,
    List.append_nil]

section Many

variable {γ : Type} {gs : List γ} {piece : γ → List Char} {meaning : γ → α}
  (hr : ∀ g ∈ gs, ∀ tail, r (piece g ++ tail) = some (meaning g, tail)) (hend : r rest = none)

include hr hend

/-- A reader that may be repeated often enough takes all pieces in front of what is none. -/
theorem upTo_flatMap {n : Nat} (hn : gs.length ≤ n) :
    upTo r n (gs.flatMap piece ++ rest) = some (gs.map meaning, rest) := by
  induction gs generalizing n with
  | nil =>
    cases n with
    | zero => rfl
    | succ n => exact orElse_of_none (bind_of_none hend)
  | cons g gs ih =>
    cases n with
    | zero => simp at hn
    | succ n =>
      obtain ⟨hg, hgs⟩ := List.forall_mem_cons.1 hr
      have htail := ih hgs (Nat.le_of_succ_le_succ hn)
      rw [List.flatMap_cons, List.append_assoc, upTo]
      apply orElse_of_some
      rw [bind_of_some (hg _), bind_of_some htail]
      rfl

/-- **A repeated reader takes all pieces** in front of what is none, if none of them is empty. -/
theorem many_flatMap (hne : ∀ g ∈ gs, piece g ≠ []) :
    many r (gs.flatMap piece ++ rest) = some (gs.map meaning, rest) := by
  have hlength : gs.length ≤ (gs.flatMap piece).length := by
    clear hr hend
    induction gs with
    | nil => simp
    | cons g gs ih =>
      obtain ⟨hg, hgs⟩ := List.forall_mem_cons.1 hne
      have hpos := List.length_pos_iff.2 hg
      have htail := ih hgs
      rw [List.flatMap_cons, List.length_append, List.length_cons]
      omega
  refine upTo_flatMap hr hend ?_
  rw [List.length_append]
  omega

omit hr hend in
/-- **Separated pieces are all taken**, in front of what is no separator. -/
theorem separated_flatMap {g : γ} {separator : Reader Unit} {between : List Char}
    (hr : ∀ h ∈ g :: gs, ∀ tail, r (piece h ++ tail) = some (meaning h, tail))
    (hs : ∀ tail, separator (between ++ tail) = some ((), tail)) (hne : between ≠ [])
    (hend : separator rest = none) :
    separated r separator (piece g ++ (gs.flatMap (fun h => between ++ piece h) ++ rest)) =
      some ((g :: gs).map meaning, rest) := by
  obtain ⟨hg, hgs⟩ := List.forall_mem_cons.1 hr
  have hmore : many (do
      separator
      r) (gs.flatMap (fun h => between ++ piece h) ++ rest) = some (gs.map meaning, rest) := by
    refine many_flatMap ?_ (bind_of_none hend) fun h _ => by simp [hne]
    intro h hmem tail
    rw [List.append_assoc, bind_of_some (hs _), hgs h hmem]
  rw [separated, bind_of_some (hg _), bind_of_some hmore]
  rfl

end Many

end Reader

/-- **A number of hexadecimal digits** is read from the left. -/
theorem hexDigits_cons {c : Char} {d : Nat} (h : hexDigit? c = some d) (n value : Nat)
    (cs : List Char) : hexDigits (n + 1) value (c :: cs) = hexDigits n (16 * value + d) cs := by
  rw [hexDigits, Reader.bind_of_some (Reader.satisfying_of_pos (by simp [h]) cs), h,
    Option.getD_some]

end AgentShell.Text
