import AgentShell.Proofs.Tree.WellFormed

/-!
# Putting in, taking out, and the way back

What is put in is found at its place with all that is in it, and no other node changes but the
directories on the way, each in the one entry that is walked through. So nothing is lost that is not
given back: a node that was put in can be taken out again, one that was replaced can be put in
again, and one that was taken out can be put back, and the tree is the same as it was before.

## Main results

* `Tree.lookup_of_insert_below`, `Tree.lookup_of_insert_aside`, `Tree.lookup_of_insert_on_the_way`:
  what is found after a node was put in
* `Tree.WellFormed.remove_of_insert`, `Tree.WellFormed.insert_of_insert`: a node that was put in,
  taken out again or replaced by the one that was there before
* `Tree.WellFormed.insert_of_remove`: a node that was taken out, put back
* `Tree.insert_changes_one_place_and_is_undone`: these together
-/

namespace AgentShell.Tree

variable {t t' : Tree} {n : Node} {old : Option Node} {path rest parent name s : String}

/-- A look-up that succeeds finds the node to which the segments lead. -/
theorem toOption_lookup (t : Tree) (path : String) :
    (t.lookup path).toOption = t.root.get? (Path.segments path) := by
  rw [lookup]
  cases t.root.get? (Path.segments path) <;> rfl

theorem lookup_eq_lookup_of_get?
    (h : t'.root.get? (Path.segments path) = t.root.get? (Path.segments path)) :
    t'.lookup path = t.lookup path := by
  rw [lookup, lookup, h]

section Insert

theorem lookup_eq_replaced (h : t.insert parent name n = .ok (t', old)) :
    (t.lookup (Path.join parent name)).toOption = old := by
  obtain ⟨hn, es, he, -, ho⟩ := insert_eq_ok_iff.1 h
  rw [toOption_lookup, Path.segments_join_of_isEntryName hn, Node.get?_append, he,
    Option.bind_some, Node.get?_directory_cons, ho]
  simp

/-- **At its place and below** there is what the node that was put in has there. -/
theorem lookup_of_insert_below (h : t.insert parent name n = .ok (t', old))
    (hp : Path.segments path = Path.segments (Path.join parent name) ++ Path.segments rest) :
    (t'.lookup path).toOption = ((⟨n⟩ : Tree).lookup rest).toOption := by
  obtain ⟨hn, -⟩ := insert_eq_ok_iff.1 h
  rw [toOption_lookup, toOption_lookup, hp, Path.segments_join_of_isEntryName hn,
    Node.get?_append, get?_insert h, Option.bind_some]

/-- **Aside**, neither at or below its place nor on the way there, nothing changes. -/
theorem lookup_of_insert_aside (h : t.insert parent name n = .ok (t', old))
    (hp : ¬Path.segments path <+: Path.segments (Path.join parent name))
    (hb : ¬Path.segments (Path.join parent name) <+: Path.segments path) :
    t'.lookup path = t.lookup path := by
  obtain ⟨hn, es, he, rfl, -⟩ := insert_eq_ok_iff.1 h
  rw [Path.segments_join_of_isEntryName hn] at hp hb
  apply lookup_eq_lookup_of_get?
  by_cases hd : Path.segments parent <+: Path.segments path
  · obtain ⟨ks, hk⟩ := hd
    rw [← hk] at hp hb ⊢
    rw [Node.get?_alter_append, Node.get?_append, he, Option.bind_some, Option.bind_some]
    cases ks with
    | nil => exact absurd (by simp) hp
    | cons k ks =>
      have hne : name ≠ k := by
        rintro rfl
        exact hb ⟨ks, by simp⟩
      exact get?_directory_insert hne ..
  · exact Node.get?_alter_of_not_prefix _ _ hd fun hp' => hp (hp'.trans (List.prefix_append _ _))

/-- **On the way** to the place there are directories, which change in the entry that is walked
through. -/
theorem lookup_of_insert_on_the_way (h : t.insert parent name n = .ok (t', old))
    {ks : List String}
    (hp : Path.segments path ++ s :: ks = Path.segments (Path.join parent name)) :
    ∃ es es', t.lookup path = .ok (.directory es) ∧ t'.lookup path = .ok (.directory es') ∧
      NameTable.erase s es' = NameTable.erase s es := by
  obtain ⟨hn, es, he, rfl, -⟩ := insert_eq_ok_iff.1 h
  rw [Path.segments_join_of_isEntryName hn] at hp
  simp only [lookup_eq_ok_iff]
  rcases List.eq_nil_or_concat ks with rfl | ⟨init, last, rfl⟩
  · obtain ⟨hd, hs⟩ := List.append_inj' hp rfl
    obtain rfl : s = name := by simpa using hs
    refine ⟨es, NameTable.insert s n es, hd ▸ he, ?_, NameTable.erase_insert s n es⟩
    rw [hd]
    exact Node.get?_alter_self _ he
  · have hd : Path.segments path ++ s :: init = Path.segments parent := by
      rw [List.concat_eq_append, ← List.cons_append, ← List.append_assoc] at hp
      exact (List.append_inj' hp rfl).1
    rw [← hd] at he ⊢
    obtain ⟨fs, hfs⟩ := Node.isDirectory_of_get?_append he
    rw [Node.get?_alter_of_append, hfs, Option.map_some, Node.alter_directory_cons]
    refine ⟨fs, _, rfl, rfl, ?_⟩
    cases NameTable.find? s fs with
    | none => rfl
    | some m => exact NameTable.erase_insert s _ fs

end Insert

section Undo

/-- Two changes at one place that leave the directory there as it was leave the tree as it was. -/
theorem WellFormed.alter_alter_eq_self (hw : t.WellFormed) {ss : List String}
    {es : NameTable Node} {f g : Node → Node} (he : t.root.get? ss = some (.directory es))
    (hf : g (f (.directory es)) = .directory es) : (t.root.alter f ss).alter g ss = t.root := by
  rw [Node.alter_alter]
  exact hw.2.alter_eq_self he hf

/-- **A node that was put in where nothing was** can be taken out again. -/
theorem WellFormed.remove_of_insert (hw : t.WellFormed)
    (h : t.insert parent name n = .ok (t', none)) :
    t'.remove (Path.join parent name) = .ok (t, n) := by
  obtain ⟨hn, es, he, rfl, ho⟩ := insert_eq_ok_iff.1 h
  have hd := (hw.2.get? he).1
  have hseg : Path.segments (Path.render (Path.segments parent)) = Path.segments parent :=
    Path.segments_render_of_forall_isEntryName hd
  refine remove_eq_ok_iff.2 ⟨_, name, NameTable.insert name n es, Path.splitParent_join hd hn,
    ?_, ?_, ?_⟩
  · rw [hseg, Node.get?_alter_self _ he]
  · rw [NameTable.find?_insert, if_pos rfl]
  · rw [hseg, hw.alter_alter_eq_self he]
    rw [NameTable.erase_insert, NameTable.erase_of_find?_eq_none ho.symm]

/-- **A node that was replaced** can be put in again. -/
theorem WellFormed.insert_of_insert (hw : t.WellFormed) {o : Node}
    (h : t.insert parent name n = .ok (t', some o)) :
    t'.insert parent name o = .ok (t, some n) := by
  obtain ⟨hn, es, he, rfl, ho⟩ := insert_eq_ok_iff.1 h
  have hs := (Node.wellFormed_directory_iff.1 (hw.2.get? he).2).1
  refine insert_eq_ok_iff.2 ⟨hn, NameTable.insert name n es, Node.get?_alter_self _ he, ?_, ?_⟩
  · rw [hw.alter_alter_eq_self he]
    rw [NameTable.insert_insert, hs.insert_of_find? ho.symm]
  · rw [NameTable.find?_insert, if_pos rfl]

/-- **A node that was taken out** can be put back where it was. -/
theorem WellFormed.insert_of_remove (hw : t.WellFormed) (h : t.remove path = .ok (t', n)) :
    ∃ parent name, Path.splitParent path = some (parent, name) ∧
      t'.insert parent name n = .ok (t, none) := by
  obtain ⟨parent, name, es, hsp, he, hf, rfl⟩ := remove_eq_ok_iff.1 h
  have hs := (Node.wellFormed_directory_iff.1 (hw.2.get? he).2).1
  have hn := (Path.segments_of_splitParent hsp).2
  refine ⟨parent, name, hsp, insert_eq_ok_iff.2
    ⟨hn, NameTable.erase name es, Node.get?_alter_self _ he, ?_, ?_⟩⟩
  · rw [hw.alter_alter_eq_self he]
    rw [hs.insert_erase hf]
  · rw [NameTable.find?_erase, if_pos rfl]

end Undo

/-- **Putting a node in changes one place, and can be undone.** The node that is reported as
replaced was at the place. Afterwards a path that leads to the place or on from there finds what the
node has there; a path that is neither on the way to the place nor at or below it finds what it
found before; and on the way there are directories still, with all entries but the one that is
walked through as they were. If nothing was replaced, taking the node out again gives it back and
the tree as it was; if a node was replaced, putting that in again does.

Whatever is taken out of a well-formed tree can be put back where its path was cut, and the tree is
as it was. -/
theorem insert_changes_one_place_and_is_undone {t : Tree} (hw : t.WellFormed) :
    (∀ parent name n t' old, t.insert parent name n = .ok (t', old) →
      let place := Path.segments (Path.join parent name)
      (t.lookup (Path.join parent name)).toOption = old ∧
      (∀ path rest, Path.segments path = place ++ Path.segments rest →
        (t'.lookup path).toOption = ((⟨n⟩ : Tree).lookup rest).toOption) ∧
      (∀ path, ¬Path.segments path <+: place → ¬place <+: Path.segments path →
        t'.lookup path = t.lookup path) ∧
      (∀ path s rest, Path.segments path ++ s :: rest = place →
        ∃ es es', t.lookup path = .ok (.directory es) ∧ t'.lookup path = .ok (.directory es') ∧
          NameTable.erase s es' = NameTable.erase s es) ∧
      (old = none → t'.remove (Path.join parent name) = .ok (t, n)) ∧
      ∀ o, old = some o → t'.insert parent name o = .ok (t, some n)) ∧
    ∀ path t' n, t.remove path = .ok (t', n) →
      ∃ parent name, Path.splitParent path = some (parent, name) ∧
        t'.insert parent name n = .ok (t, none) := by
  refine ⟨?_, fun path t' n h => hw.insert_of_remove h⟩
  intro parent name n t' old h place
  refine ⟨lookup_eq_replaced h, fun path rest => lookup_of_insert_below h,
    fun path => lookup_of_insert_aside h, fun path s rest => lookup_of_insert_on_the_way h, ?_, ?_⟩
  · rintro rfl
    exact hw.remove_of_insert h
  · rintro o rfl
    exact hw.insert_of_insert h

/-- A directory is put in beside a file, with slashes to spare, and taken out again; it is put in
the place of the file, and the file is put in again; and the file is taken out and put back. -/
theorem insert_is_undone_beside_a_file :
    let t := empty.changeAll [.writeFile "/a/b" "x"]
    let n : Node := .directory [("d", .file "y")]
    let beside := t.change (.insert "a//" "c" n)
    let instead := t.change (.insert "/a" "b" n)
    let without := t.change (.remove "/a/../a/b")
    t.WellFormed ∧ t.insert "a//" "c" n = .ok (beside, none) ∧
      (beside.lookup "/a/c//d").toOption = some (.file "y") ∧
      beside.lookup "/a/b" = t.lookup "/a/b" ∧ beside.remove "a/c" = .ok (t, n) ∧
      t.insert "/a" "b" n = .ok (instead, some (.file "x")) ∧
      instead.insert "/a" "b" (.file "x") = .ok (t, some n) ∧
      t.remove "/a/../a/b" = .ok (without, .file "x") ∧
      without.insert "/a" "b" (.file "x") = .ok (t, none) := by
  intro t n beside instead without
  have hw : t.WellFormed := wellFormed_empty.changeAll (by simp [Change.Sound])
  have hb : t.insert "a//" "c" n = .ok (beside, none) := by decide +kernel
  have hi : t.insert "/a" "b" n = .ok (instead, some (.file "x")) := by decide +kernel
  have hr : t.remove "/a/../a/b" = .ok (without, .file "x") := by decide +kernel
  obtain ⟨hin, hout⟩ := insert_changes_one_place_and_is_undone hw
  obtain ⟨-, hbelow, haside, -, hremove, -⟩ := hin _ _ _ _ _ hb
  obtain ⟨-, -, -, -, -, hagain⟩ := hin _ _ _ _ _ hi
  obtain ⟨parent, name, hsp, hback⟩ := hout _ _ _ hr
  have hs : Path.splitParent "/a/../a/b" = some ("/a", "b") := by decide +kernel
  obtain ⟨rfl, rfl⟩ := Prod.mk.inj (Option.some.inj (hsp.symm.trans hs))
  refine ⟨hw, hb, ?_, haside "/a/b" (by decide +kernel) (by decide +kernel), hremove rfl, hi,
    hagain _ rfl, hr, hback⟩
  exact (hbelow "/a/c//d" "d" (by decide +kernel)).trans (by decide +kernel)

end AgentShell.Tree
