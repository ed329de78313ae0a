import AgentShell.Proofs.Tree.Directories

/-!
# All or nothing

Directories are made one after another, and a file is put in when the directories above it are made,
so a call could fail when it has changed the tree already. It does not: in a directory that is new
nothing is in the way, so a call that is to fail finds out about it among the nodes that were there.
Only a segment `.` or `..` may be found later, when a path is made that is not in normal form; then
the directories in front of it stay.

## Main definitions

* `Tree.outcome`: what a call answers
* `Path.front`: a path up to its first segment `.` or `..`

## Main results

* `Tree.fst_makeDirectories_of_error`: directories along entry names are made all or none
* `Tree.makeDirectories_takeWhile`: what is made along other names
* `Tree.WellFormed.writeFile_of_error`: a file that is not written leaves no directories behind
* `Tree.change_eq_self_of_failure`: a call that fails changes nothing
-/

namespace AgentShell

/-- The part of a path in front of its first segment `.` or `..`. -/
def Path.front (path : String) : String :=
  render ((segments path).takeWhile isEntryName)

theorem Path.segments_front (path : String) :
    segments (front path) = (segments path).takeWhile isEntryName :=
  segments_render_of_prefix (List.takeWhile_prefix _)

namespace Tree

/-- **What a call answers**: that it succeeded, or why it failed. -/
def outcome (t : Tree) : Change → Except TreeError Unit
  | .createDirectories path => (t.createDirectories path).2
  | .writeFile path content => (t.writeFile path content).2
  | .insert parent name n => (t.insert parent name n).map fun _ => ()
  | .remove path => (t.remove path).map fun _ => ()
  | .modifyFile path f => (t.modifyFile path f).map fun _ => ()

variable {t : Tree} {n : Node} {path : String} {ss : List String} {e : TreeError}

section MakeDirectories

theorem makeDirectories_empty (walked : String) (hs : ∀ s ∈ ss, isEntryName s = true) :
    (makeDirectories walked (.directory []) ss).2 = .ok () := by
  refine (makeDirectories_eq_ok_iff walked _ hs).2 fun ks _ c => ?_
  rw [face?_empty]
  split <;> simp

/-- **Directories are made all or none**, along entry names. -/
theorem fst_makeDirectories_of_error {walked : String} (hn : n.WellFormed)
    (hs : ∀ s ∈ ss, isEntryName s = true) (h : (makeDirectories walked n ss).2 = .error e) :
    (makeDirectories walked n ss).1 = n := by
  induction ss generalizing walked n with
  | nil => rw [makeDirectories_nil]
  | cons s ss ih =>
    obtain ⟨hname, hss⟩ := List.forall_mem_cons.1 hs
    rcases makeDirectories_cons walked n s ss with ⟨e', he⟩ | ⟨es, rfl, -, he⟩
    · rw [he]
    · rw [he] at h ⊢
      cases hc : NameTable.find? s es with
      | none =>
        rw [hc] at h
        exact absurd (h.symm.trans (makeDirectories_empty _ hss)) (by simp)
      | some child =>
        rw [hc] at h
        have hsame : NameTable.insert s child es = es :=
          (Node.wellFormed_directory_iff.1 hn).1.insert_of_find? hc
        simp only [Option.getD_some, ih (hn.of_find? hc).2 hss h, hsame]

/-- **What is made along names** is made along those in front of the first that is no entry name. -/
theorem makeDirectories_takeWhile (walked : String) (n : Node) (ss : List String) :
    (makeDirectories walked n (ss.takeWhile isEntryName)).1 = (makeDirectories walked n ss).1 := by
  induction ss generalizing walked n with
  | nil => rfl
  | cons s ss ih =>
    by_cases hs : isEntryName s = true
    · rw [List.takeWhile_cons_of_pos hs]
      cases n with
      | file c => simp only [makeDirectories, checkEntryName_eq_ok_iff.2 hs]
      | directory es => simp only [makeDirectories_directory_cons walked es hs, ih]
    · rw [List.takeWhile_cons_of_neg hs, makeDirectories_nil]
      cases n <;> simp only [makeDirectories, checkEntryName_eq_error hs]

/-- Directories are made with success along entry names only. -/
theorem isEntryName_of_makeDirectories {walked : String}
    (h : (makeDirectories walked n ss).2 = .ok ()) : ∀ s ∈ ss, isEntryName s = true := by
  induction ss generalizing walked n with
  | nil => simp
  | cons s ss ih =>
    rcases makeDirectories_cons walked n s ss with ⟨e, he⟩ | ⟨es, rfl, hs, he⟩
    · rw [he] at h
      cases h
    · rw [he] at h
      exact List.forall_mem_cons.2 ⟨hs, ih h⟩

end MakeDirectories

section Failure

theorem toOption_eq_none_of_map {α : Type} {r : Except TreeError α}
    (h : (r.map fun _ => ()) = .error e) : r.toOption = none := by
  cases r with
  | error _ => rfl
  | ok _ => cases h

theorem WellFormed.createDirectories_of_error (hw : t.WellFormed) (hp : Path.Undotted path)
    (h : (t.createDirectories path).2 = .error e) : (t.createDirectories path).1 = t :=
  congrArg Tree.mk (fst_makeDirectories_of_error hw.2 hp.isEntryName h)

theorem createDirectories_front (t : Tree) (path : String) :
    (t.createDirectories (Path.front path)).1 = (t.createDirectories path).1 := by
  rw [createDirectories, createDirectories, Path.segments_front]
  exact congrArg Tree.mk (makeDirectories_takeWhile "" t.root _)

/-- A path with a segment `.` or `..` is not made. -/
theorem exists_error_of_not_undotted (t : Tree) (hp : ¬Path.Undotted path) :
    ∃ e, (t.createDirectories path).2 = .error e := by
  cases h : (t.createDirectories path).2 with
  | error e => exact ⟨e, rfl⟩
  | ok _ =>
    have hs := isEntryName_of_makeDirectories h
    exact absurd (fun s hm => (isEntryName_iff.1 (hs s hm)).2) hp

/-- **A file that is not written leaves no directories behind.** -/
theorem WellFormed.writeFile_of_error {c : String} (hw : t.WellFormed)
    (h : (t.writeFile path c).2 = .error e) : (t.writeFile path c).1 = t := by
  rcases writeFile_cases t path c with
    ⟨-, he⟩ | ⟨parent, name, hsp, ⟨e', he⟩ | ⟨-, -, written, old, -, he⟩⟩
  · rw [he]
  · rw [he]
    show (t.createDirectories parent).1 = t
    have hparent := Path.undotted_of_splitParent hsp
    cases hc : (t.createDirectories parent).2 with
    | error e => exact hw.createDirectories_of_error hparent hc
    | ok _ =>
      have hd : (t.createDirectories parent).1.isDirectory path = true := by
        by_contra hd
        rw [Bool.not_eq_true] at hd
        obtain ⟨written, old, hi⟩ := exists_insert_eq_ok (Path.segments_of_splitParent hsp).2
          (isDirectory_createDirectories hc) (.file c)
        rw [writeFile_eq_ok hsp hc hd hi] at h
        cases h
      have hp : Path.Undotted path :=
        (hw.createDirectories parent).undotted (contains_of_isDirectory hd)
      have hf := (isDirectory_createDirectories_parent hp hsp hc).1 hd
      obtain ⟨m, hm, -⟩ := Option.map_eq_some_iff.1 hf
      rw [segments_eq_of_splitParent hp hsp] at hm
      have habove : t.isDirectory parent = true :=
        isDirectory_iff.2 (Node.isDirectory_of_get?_append hm)
      rw [hw.createDirectories_of_isDirectory habove]
  · rw [he] at h
    cases h

end Failure

/-- **A call that fails changes nothing**: the tree is the same as before, and no directory that was
made on the way is left behind. Of the paths to be made this holds if they have no segment `.` or
`..`. A path that has one is never made, and the call leaves behind what making the part in front of
that segment leaves. -/
theorem change_eq_self_of_failure {t : Tree} (hw : t.WellFormed) :
    (∀ c e, t.outcome c = .error e → (∀ path, c = .createDirectories path → Path.Undotted path) →
      t.change c = t) ∧
    ∀ path, ¬Path.Undotted path →
      (∃ e, t.outcome (.createDirectories path) = .error e) ∧
      t.change (.createDirectories path) = t.change (.createDirectories (Path.front path)) := by
  refine ⟨?_, fun path hp =>
    ⟨t.exists_error_of_not_undotted hp, (t.createDirectories_front path).symm⟩⟩
  intro c e h hp
  cases c with
  | createDirectories path => exact hw.createDirectories_of_error (hp path rfl) h
  | writeFile path content => exact hw.writeFile_of_error h
  | insert parent name n => rw [change, toOption_eq_none_of_map h, Option.elim_none]
  | remove path => rw [change, toOption_eq_none_of_map h, Option.elim_none]
  | modifyFile path f => rw [change, toOption_eq_none_of_map h, Option.getD_none]

/-- A file below a file is not written, a directory is not replaced by a file, and nothing is left
behind; of a path with a segment `..` the part in front of it is made. -/
theorem change_eq_self_of_file_below_file :
    let t := empty.changeAll [.writeFile "/a/f" "x"]
    t.WellFormed ∧ t.outcome (.writeFile "/a/f/g/h" "y") = .error (.notADirectory "/a/f/g") ∧
      t.change (.writeFile "/a/f/g/h" "y") = t ∧
      t.outcome (.writeFile "a//" "y") = .error (.taken "a//") ∧
      t.change (.writeFile "a//" "y") = t ∧
      t.outcome (.createDirectories "/a/f") = .error (.taken "/a/f") ∧
      t.change (.createDirectories "/a/f") = t ∧ ¬Path.Undotted "/b/c/../d" ∧
      t.change (.createDirectories "/b/c/../d") = t.change (.createDirectories "/b/c") := by
  intro t
  have hw : t.WellFormed := wellFormed_empty.changeAll (by simp [Change.Sound])
  obtain ⟨hfails, hdots⟩ := change_eq_self_of_failure hw
  have hbelow : t.outcome (.writeFile "/a/f/g/h" "y") = .error (.notADirectory "/a/f/g") := by
    decide
  have hover : t.outcome (.writeFile "a//" "y") = .error (.taken "a//") := by decide
  have hfile : t.outcome (.createDirectories "/a/f") = .error (.taken "/a/f") := by decide
  have hd : ¬Path.Undotted "/b/c/../d" := by decide
  refine ⟨hw, hbelow, hfails _ _ hbelow (by simp), hover, hfails _ _ hover (by simp), hfile, ?_, hd,
    (hdots _ hd).2⟩
  refine hfails _ _ hfile ?_
  rintro path ⟨⟩
  decide

end Tree

end AgentShell
