import AgentShell.Proofs.Tree.Directories

/-!
# One place and its spellings

Reading goes by the segments of a path as they are written, while a node is taken out and a file is
written at the normal form of the path. So what is changed by a path is what is read at its normal
form. It is what is read at the path itself if the path has no segment `.` or `..`, however many
slashes it has; a path that has one leads nowhere, so the two differ as soon as something can be
changed by it.

## Main definitions

* `Tree.Agrees`: what is changed by one path is what is read at another
* `Tree.Blocked`: a file is on the way to the place of a path

## Main results

* `Tree.exists_remove_iff`: what is taken out
* `Tree.agrees_resolve`: what is changed by a path is read at its normal form
* `Tree.WellFormed.writeFile_eq_ok_iff_of_dots`: when a file is written at a path with `.` or `..`
* `Tree.agrees_iff_undotted_or_blocked`: when it is read at the path itself
* `Tree.not_agrees_of_dot`: a path at which nothing is read of what is changed by it
-/

namespace AgentShell

namespace Path

theorem undotted_resolve (path : String) : Undotted (resolve "/" path) :=
  fun _ hs => (isEntryName_iff.1 (isEntryName_of_mem_segments_resolve hs)).2

end Path

namespace Tree

variable {t t' : Tree} {n : Node} {path p q : String} {c : String}

/-- **What is changed by the path `p` is what is read at the path `q`**: a node is taken out by `p`
if and only if there is one at `q`; it is the one that is found there, and nothing is there
afterwards; and the content of a file that is written by `p` is read at `q`. -/
structure Agrees (t : Tree) (p q : String) : Prop where
  remove_iff : (∃ t' n, t.remove p = .ok (t', n)) ↔ t.contains q = true
  removed : ∀ t' n, t.remove p = .ok (t', n) → t.lookup q = .ok n ∧ t'.contains q = false
  written : ∀ c, (t.writeFile p c).2 = .ok () → (t.writeFile p c).1.contentAt q = .ok c

/-- A file is on the way to the place of a path. -/
def Blocked (t : Tree) (path : String) : Prop :=
  ∃ ks, ks <+: Path.segments (Path.resolve "/" path) ∧ ks ≠ Path.segments (Path.resolve "/" path) ∧
    ∃ d, t.contentAt (Path.render ks) = .ok d

section Remove

/-- **What is taken out by a path** is the node at its normal form, unless that is the root. -/
theorem exists_remove_iff (hr : Path.resolve "/" path ≠ "/") :
    (∃ t', t.remove path = .ok (t', n)) ↔ t.lookup (Path.resolve "/" path) = .ok n := by
  obtain ⟨parent, name, hsp⟩ := Path.exists_splitParent hr
  rw [lookup_eq_ok_iff, (Path.segments_of_splitParent hsp).1, Node.get?_append]
  constructor
  · rintro ⟨t', h⟩
    obtain ⟨parent', name', es, hsp', he, hf, -⟩ := remove_eq_ok_iff.1 h
    obtain ⟨rfl, rfl⟩ := Prod.mk.inj (Option.some.inj (hsp.symm.trans hsp'))
    rw [he, Option.bind_some, Node.get?_directory_cons, hf, Option.bind_some, Node.get?_nil]
  · intro h
    obtain ⟨d, hd, hn⟩ := Option.bind_eq_some_iff.1 h
    cases d with
    | file c => cases hn
    | directory es =>
      rw [Node.get?_directory_cons] at hn
      obtain ⟨m, hf, hm⟩ := Option.bind_eq_some_iff.1 hn
      obtain rfl := Option.some.inj ((Node.get?_nil m).symm.trans hm)
      exact ⟨_, remove_eq_ok_iff.2 ⟨parent, name, es, hsp, hd, hf, rfl⟩⟩

/-- **Nothing is left** where a node was taken out. -/
theorem contains_remove (h : t.remove path = .ok (t', n)) :
    t'.contains (Path.resolve "/" path) = false := by
  obtain ⟨parent, name, es, hsp, he, -, rfl⟩ := remove_eq_ok_iff.1 h
  rw [← Bool.not_eq_true, contains_iff_face?, Node.face?, (Path.segments_of_splitParent hsp).1,
    Node.get?_alter_append, he, Option.bind_some, Node.get?_directory_cons, NameTable.find?_erase]
  simp

end Remove

section Agrees

/-- **What is changed by a path is read at its normal form.** -/
theorem agrees_resolve (t : Tree) (hr : Path.resolve "/" p ≠ "/") :
    t.Agrees p (Path.resolve "/" p) where
  remove_iff := by
    rw [exists_comm, contains_iff_exists_lookup]
    exact exists_congr fun n => exists_remove_iff hr
  removed t' n h := ⟨(exists_remove_iff hr).1 ⟨t', h⟩, contains_remove h⟩
  written c h := contentAt_writeFile h

/-- What is read at a path is read at every path with its segments. -/
theorem Agrees.of_segments_eq {q' : String} (h : t.Agrees p q)
    (hs : Path.segments q' = Path.segments q) : t.Agrees p q' where
  remove_iff := by rw [h.remove_iff, contains_iff_face?, contains_iff_face?, hs]
  removed t' n hr := by
    obtain ⟨hl, hc⟩ := h.removed t' n hr
    rw [← Bool.not_eq_true, contains_iff_face?, ← hs] at hc
    rw [lookup_eq_ok_iff, ← hs] at hl
    exact ⟨lookup_eq_ok_iff.2 hl, by rwa [← Bool.not_eq_true, contains_iff_face?]⟩
  written c hw := by
    have hc := h.written c hw
    rw [contentAt_eq_ok_iff, ← hs] at hc
    exact contentAt_eq_ok_iff.2 hc

/-- **A file is written at a path with `.` or `..`** if and only if no file is on the way; what is
in its place does not matter. -/
theorem WellFormed.writeFile_eq_ok_iff_of_dots (hw : t.WellFormed) (hr : Path.resolve "/" p ≠ "/")
    (hp : ¬Path.Undotted p) : (t.writeFile p c).2 = .ok () ↔ ¬t.Blocked p := by
  obtain ⟨parent, name, hsp⟩ := Path.exists_splitParent hr
  rw [hw.writeFile_eq_ok_iff_createDirectories hsp hp, createDirectories_parent_eq_ok_iff
    (Path.undotted_resolve p) ((Path.splitParent_resolve p).trans hsp)]
  simp only [Blocked, not_exists, not_and]
  refine forall_congr' fun ks => forall_congr' fun hk => forall_congr' fun _ =>
    forall_congr' fun d => ?_
  rw [contentAt_eq_ok_iff_face?, Path.segments_render_of_prefix hk]

theorem Blocked.contains_resolve (h : t.Blocked p) :
    t.contains (Path.resolve "/" p) = false := by
  obtain ⟨ks, hk, hne, d, hd⟩ := h
  rw [contentAt_eq_ok_iff, Path.segments_render_of_prefix hk] at hd
  obtain ⟨rest, hrest⟩ := hk
  rw [← Bool.not_eq_true, contains_iff_exists_lookup]
  rintro ⟨n, hn⟩
  rw [lookup_eq_ok_iff, ← hrest] at hn
  cases rest with
  | nil => exact hne (by simpa using hrest)
  | cons s rest =>
    obtain ⟨es, hes⟩ := Node.isDirectory_of_get?_append hn
    rw [hd] at hes
    cases hes

end Agrees

/-- **What is changed by a path is read at its normal form**, unless that is the root. It is read at
the path itself if and only if the path has no segment `.` or `..`, or nothing can be changed by it
because a file is on the way. -/
theorem agrees_iff_undotted_or_blocked {t : Tree} (hw : t.WellFormed) {p : String}
    (hr : Path.resolve "/" p ≠ "/") :
    t.Agrees p (Path.resolve "/" p) ∧ (t.Agrees p p ↔ Path.Undotted p ∨ t.Blocked p) := by
  refine ⟨t.agrees_resolve hr, ?_⟩
  constructor
  · intro h
    by_cases hp : Path.Undotted p
    · exact .inl hp
    · refine .inr (by_contra fun hb => hp ?_)
      have hc := h.written "" ((hw.writeFile_eq_ok_iff_of_dots hr hp).2 hb)
      refine (hw.writeFile p "").undotted ?_
      rw [contains_iff_face?, contentAt_eq_ok_iff_face?.1 hc]
      rfl
  · intro h
    by_cases hp : Path.Undotted p
    · exact (t.agrees_resolve hr).of_segments_eq (Path.segments_resolve_of_no_dots hp).symm
    · have hb := h.resolve_left hp
      have hno : ¬∃ t' n, t.remove p = .ok (t', n) := by
        rw [(t.agrees_resolve hr).remove_iff, hb.contains_resolve]
        simp
      exact
        { remove_iff := iff_of_false hno fun hc => hp (hw.undotted hc)
          removed := fun t' n ht => absurd ⟨t', n, ht⟩ hno
          written := fun c hc => absurd hb ((hw.writeFile_eq_ok_iff_of_dots hr hp).1 hc) }

/-- A file is changed and read by a path with slashes to spare; it is changed by a path with `..`
too, but read at the normal form only; and by a path that leads on from it nothing is changed. -/
theorem agrees_of_slashes :
    let t := empty.changeAll [.writeFile "/a/b" "x"]
    t.WellFormed ∧ Path.resolve "/" "//a//b/" ≠ "/" ∧ Path.resolve "/" "/c/../a/b" ≠ "/" ∧
      Path.resolve "/" "/a/b/./d" ≠ "/" ∧ t.Agrees "//a//b/" "//a//b/" ∧
      t.Agrees "/c/../a/b" "/a/b" ∧ t.Agrees "/a/b/./d" "/a/b/./d" := by
  intro t
  have hw : t.WellFormed := wellFormed_empty.changeAll (by simp [Change.Sound])
  have hslash : Path.resolve "/" "//a//b/" ≠ "/" := by decide
  have hdots : Path.resolve "/" "/c/../a/b" ≠ "/" := by decide
  have hbelow : Path.resolve "/" "/a/b/./d" ≠ "/" := by decide
  have hb : t.Blocked "/a/b/./d" := ⟨["a", "b"], by decide, by decide, "x", by decide⟩
  exact ⟨hw, hslash, hdots, hbelow,
    (agrees_iff_undotted_or_blocked hw hslash).2.2 (.inl (by decide)),
    (agrees_iff_undotted_or_blocked hw hdots).1,
    (agrees_iff_undotted_or_blocked hw hbelow).2.2 (.inr hb)⟩

/-- **A path at which nothing is read of what is changed by it**: a file is written by `/./a` into
the empty tree; it is not read and nothing is found at `/./a`, but it is taken out by `/./a`. -/
theorem not_agrees_of_dot :
    let t := (empty.writeFile "/./a" "x").1
    empty.WellFormed ∧ t.WellFormed ∧ Path.resolve "/" "/./a" ≠ "/" ∧
      (empty.writeFile "/./a" "x").2 = .ok () ∧
      t.contentAt "/./a" = .error (.missing "/./a") ∧ t.contains "/./a" = false ∧
      t.remove "/./a" = .ok (empty, .file "x") ∧
      ¬empty.Agrees "/./a" "/./a" ∧ ¬t.Agrees "/./a" "/./a" := by
  intro t
  have hw : (empty.writeFile "/./a" "x").2 = .ok () := by decide
  have hread : t.contentAt "/./a" = .error (.missing "/./a") := by decide
  have hc : t.contains "/./a" = false := by decide
  have hr : t.remove "/./a" = .ok (empty, .file "x") := by decide
  refine ⟨wellFormed_empty, wellFormed_empty.writeFile "/./a" "x", by decide, hw, hread, hc, hr,
    ?_, ?_⟩
  · intro h
    have := h.written "x" hw
    rw [hread] at this
    cases this
  · intro h
    have := h.remove_iff.1 ⟨_, _, hr⟩
    rw [hc] at this
    cases this

end Tree

end AgentShell
