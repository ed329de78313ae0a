import AgentShell.Proofs.Tree.WellFormed

/-!
# Writing a file

A file is written at the normal form of its path, but a directory in its place is looked for at the
path as it is written. Where the path has no segment `.` or `..` the two are the same place: a file
that is written with success replaces at most a file, and everything else in the tree looks as
before. With such a segment the second look-up finds nothing, so a directory at the normal form is
replaced by the file, and all that was in it is lost.

## Main results

* `Tree.isDirectory_resolve_of_writeFile`: what was at the place of a file that is written
* `Tree.faceAt_writeFile`: what is not at or below the place of the file looks as before
* `Tree.WellFormed.undotted`: a path with a segment `.` or `..` leads nowhere
* `Tree.WellFormed.writeFile_eq_ok_iff_createDirectories`, `Tree.WellFormed.writeFile_of_dots`: so
  a file is written there as soon as the directories above it are made, and a directory is replaced
* `Tree.writeFile_eq_ok_iff`, `Tree.face?_writeFile`: when a file is written at a path without them,
  and what is seen then
* `Tree.writeFile_keeps_others`: these together
* `Tree.writeFile_replaces_directory`: a directory that is lost
-/

namespace AgentShell

/-! ## Paths without dots -/

namespace Path

variable {path parent name : String}

theorem segments_resolve_of_no_dots (h : ∀ s ∈ segments path, s ≠ "." ∧ s ≠ "..") :
    segments (resolve "/" path) = segments path := by
  apply segments_resolve_of_forall_isEntryName
  intro s hs
  exact isEntryName_iff.2 ⟨isSegment_of_mem_segments hs, h s hs⟩

/-- A path without the segments `.` and `..`. -/
def Undotted (path : String) : Prop :=
  ∀ s ∈ segments path, s ≠ "." ∧ s ≠ ".."

instance (path : String) : Decidable (Undotted path) :=
  inferInstanceAs (Decidable (∀ s ∈ segments path, s ≠ "." ∧ s ≠ ".."))

theorem Undotted.isEntryName {path : String} (h : Undotted path) :
    ∀ s ∈ segments path, isEntryName s = true :=
  fun s hs => isEntryName_iff.2 ⟨isSegment_of_mem_segments hs, h s hs⟩

theorem undotted_of_splitParent (h : splitParent path = some (parent, name)) : Undotted parent := by
  intro s hs
  have hm : s ∈ segments (resolve "/" path) := by
    rw [(segments_of_splitParent h).1]
    exact List.mem_append_left _ hs
  exact (isEntryName_iff.1 (isEntryName_of_mem_segments_resolve hm)).2

end Path

/-! ## What a write changes -/

namespace Tree

variable {t : Tree} {n : Node} {path q c : String} {x : Node.Face}

/-- A path at which something is seen in a well-formed tree leads where its normal form leads. -/
theorem WellFormed.segments_resolve (hw : t.WellFormed) (h : t.faceAt q = .ok x) :
    Path.segments (Path.resolve "/" q) = Path.segments q ∧
      Path.resolve "/" q = Path.render (Path.segments q) := by
  obtain ⟨n, hn, -⟩ := Option.map_eq_some_iff.1 (faceAt_eq_ok_iff.1 h)
  have hs := (hw.2.get? hn).1
  refine ⟨Path.segments_resolve_of_forall_isEntryName hs, ?_⟩
  rw [Path.resolve_root, Path.normalize_of_forall_isEntryName hs]

/-- A path with a segment `.` or `..` leads nowhere in a well-formed tree. -/
theorem WellFormed.undotted (hw : t.WellFormed) (h : t.contains q = true) : Path.Undotted q := by
  obtain ⟨x, hx⟩ := Option.isSome_iff_exists.1 (contains_iff_face?.1 h)
  obtain ⟨n, hn, -⟩ := Option.map_eq_some_iff.1 hx
  exact fun s hs => (isEntryName_iff.1 ((hw.2.get? hn).1 s hs)).2

/-- **The content of a file that is written** is found at the normal form of its path. -/
theorem contentAt_writeFile (h : (t.writeFile path c).2 = .ok ()) :
    (t.writeFile path c).1.contentAt (Path.resolve "/" path) = .ok c := by
  obtain ⟨parent, name, old, hsp, -, -, hi⟩ := exists_of_writeFile h
  rw [contentAt_eq_ok_iff, (Path.segments_of_splitParent hsp).1]
  exact get?_insert hi

/-- **What is not at or below the place of the file** looks as before. -/
theorem faceAt_writeFile (h : (t.writeFile path c).2 = .ok ())
    (hq : ¬Path.segments (Path.resolve "/" path) <+: Path.segments q) (hx : t.faceAt q = .ok x) :
    (t.writeFile path c).1.faceAt q = .ok x := by
  obtain ⟨parent, name, old, hsp, -, -, hi⟩ := exists_of_writeFile h
  rw [(Path.segments_of_splitParent hsp).1] at hq
  have hmade := faceAt_eq_ok_iff.1 (faceAt_createDirectories parent hx)
  rw [faceAt_eq_ok_iff, face?_insert hi hq, hmade]

/-- **What is at another path** looks as before, unless the file takes the place of a directory. -/
theorem WellFormed.faceAt_writeFile (hw : t.WellFormed) (h : (t.writeFile path c).2 = .ok ())
    (hd : t.isDirectory (Path.resolve "/" path) = false)
    (hq : Path.resolve "/" q ≠ Path.resolve "/" path) (hx : t.faceAt q = .ok x) :
    (t.writeFile path c).1.faceAt q = .ok x := by
  refine Tree.faceAt_writeFile h ?_ hx
  rintro ⟨rest, hrest⟩
  cases rest with
  | nil =>
    apply hq
    rw [(hw.segments_resolve hx).2, ← hrest, List.append_nil, Path.segments_resolve_root,
      Path.resolve_root]
  | cons s ks =>
    obtain ⟨n, hn, -⟩ := Option.map_eq_some_iff.1 (faceAt_eq_ok_iff.1 hx)
    rw [← hrest] at hn
    have := isDirectory_iff.2 (Node.isDirectory_of_get?_append hn)
    rw [hd] at this
    cases this

/-- **No directory was at the place of a file** that is written at a path without `.` and `..`. -/
theorem isDirectory_resolve_of_writeFile (h : (t.writeFile path c).2 = .ok ())
    (hs : ∀ s ∈ Path.segments path, s ≠ "." ∧ s ≠ "..") :
    t.isDirectory (Path.resolve "/" path) = false := by
  obtain ⟨parent, name, old, -, -, hd, -⟩ := exists_of_writeFile h
  rw [← Bool.not_eq_true]
  intro ht
  have hmade := faceAt_createDirectories parent (isDirectory_iff_faceAt.1 ht)
  rw [← isDirectory_iff_faceAt, isDirectory_iff, Path.segments_resolve_of_no_dots hs,
    ← isDirectory_iff, hd] at hmade
  cases hmade

/-- **A file is written at a path with `.` or `..`** if and only if the directories above it are
made. The path leads nowhere, so no directory is found at it. -/
theorem WellFormed.writeFile_eq_ok_iff_createDirectories (hw : t.WellFormed) {parent name : String}
    (hsp : Path.splitParent path = some (parent, name)) (hp : ¬Path.Undotted path) :
    (t.writeFile path c).2 = .ok () ↔ (t.createDirectories parent).2 = .ok () := by
  constructor
  · intro h
    obtain ⟨_, _, old, hsp', hc, -⟩ := exists_of_writeFile h
    obtain ⟨rfl, rfl⟩ := Prod.mk.inj (Option.some.inj (hsp.symm.trans hsp'))
    exact hc
  · intro hc
    have hd : (t.createDirectories parent).1.isDirectory path = false := by
      rw [← Bool.not_eq_true]
      intro hd
      exact hp ((hw.createDirectories parent).undotted (contains_of_isDirectory hd))
    obtain ⟨written, old, hi⟩ := exists_insert_eq_ok (Path.segments_of_splitParent hsp).2
      (isDirectory_createDirectories hc) (.file c)
    rw [writeFile_eq_ok hsp hc hd hi]

/-- **A directory is replaced** by a file that is written at a path with `.` or `..`. -/
theorem WellFormed.writeFile_of_dots (hw : t.WellFormed) (hr : Path.resolve "/" path ≠ "/")
    (ht : t.isDirectory (Path.resolve "/" path) = true)
    (hs : ∃ s ∈ Path.segments path, s = "." ∨ s = "..") : (t.writeFile path c).2 = .ok () := by
  obtain ⟨parent, name, hsp⟩ := Path.exists_splitParent hr
  obtain ⟨fs, hfs⟩ := isDirectory_iff.1 ht
  rw [(Path.segments_of_splitParent hsp).1] at hfs
  obtain ⟨es, hes⟩ := Node.isDirectory_of_get?_append hfs
  refine (hw.writeFile_eq_ok_iff_createDirectories hsp ?_).2 ?_
  · intro hp
    obtain ⟨s, hin, hdot⟩ := hs
    exact hdot.elim (hp s hin).1 (hp s hin).2
  · rw [Tree.createDirectories, makeDirectories_eq_self "" hw.2 hes]

/-! ## When a write succeeds -/

section Undotted

variable {parent name : String} {ks : List String}

/-- **Making directories succeeds** if and only if there is no file on the way. -/
theorem createDirectories_eq_ok_iff (hp : Path.Undotted path) :
    (t.createDirectories path).2 = .ok () ↔
      ∀ ks, ks <+: Path.segments path → ∀ c, t.root.face? ks ≠ some ⟨.file, some c⟩ :=
  makeDirectories_eq_ok_iff "" t.root hp.isEntryName

theorem face?_createDirectories (h : (t.createDirectories path).2 = .ok ()) (ks : List String) :
    (t.createDirectories path).1.root.face? ks =
      if ks <+: Path.segments path then some ⟨.directory, none⟩ else t.root.face? ks :=
  face?_makeDirectories_of_ok h ks

theorem segments_eq_of_splitParent (hp : Path.Undotted path)
    (h : Path.splitParent path = some (parent, name)) :
    Path.segments path = Path.segments parent ++ [name] := by
  rw [← (Path.segments_of_splitParent h).1, Path.segments_resolve_of_no_dots hp]

theorem segments_eq_nil_of_splitParent (hp : Path.Undotted path)
    (h : Path.splitParent path = none) : Path.segments path = [] := by
  rw [← Path.segments_resolve_of_no_dots hp, Path.splitParent_eq_none_iff.1 h,
    Path.segments_slash]

/-- What is in front of the last name, and shorter than a list of names. -/
theorem prefix_iff_of_ne {init : List String} (hk : ks ≠ init ++ [name]) :
    ks <+: init ++ [name] ↔ ks <+: init := by
  rw [List.prefix_concat_iff, or_iff_right hk]

theorem not_concat_prefix {init : List String} : ¬init ++ [name] <+: init := by
  intro h
  have := h.length_le
  rw [List.length_append, List.length_singleton] at this
  omega

section Parent

variable (hp : Path.Undotted path) (hsp : Path.splitParent path = some (parent, name))
include hp hsp

theorem createDirectories_parent_eq_ok_iff :
    (t.createDirectories parent).2 = .ok () ↔
      ∀ ks, ks <+: Path.segments path → ks ≠ Path.segments path →
        ∀ d, t.root.face? ks ≠ some ⟨.file, some d⟩ := by
  have hseg := segments_eq_of_splitParent hp hsp
  have hparent : Path.Undotted parent := fun s hs => hp s (by simp [hseg, hs])
  rw [createDirectories_eq_ok_iff hparent, hseg]
  constructor
  · intro h ks hk hne
    exact h ks ((prefix_iff_of_ne hne).1 hk)
  · intro h ks hk
    refine h ks (hk.trans (List.prefix_append _ _)) ?_
    rintro rfl
    exact not_concat_prefix hk

theorem isDirectory_createDirectories_parent (hc : (t.createDirectories parent).2 = .ok ()) :
    (t.createDirectories parent).1.isDirectory path = true ↔
      t.root.face? (Path.segments path) = some ⟨.directory, none⟩ := by
  rw [isDirectory_iff_faceAt, faceAt_eq_ok_iff, face?_createDirectories hc, if_neg]
  rw [segments_eq_of_splitParent hp hsp]
  exact not_concat_prefix

end Parent

/-- **A file is written** if and only if its path is not the root, no file is on the way, and no
directory is in its place. -/
theorem writeFile_eq_ok_iff (hp : Path.Undotted path) :
    (t.writeFile path c).2 = .ok () ↔
      Path.segments path ≠ [] ∧
      (∀ ks, ks <+: Path.segments path → ks ≠ Path.segments path →
        ∀ d, t.root.face? ks ≠ some ⟨.file, some d⟩) ∧
      t.root.face? (Path.segments path) ≠ some ⟨.directory, none⟩ := by
  cases hsp : Path.splitParent path with
  | none =>
    refine iff_of_false ?_ fun h => h.1 (segments_eq_nil_of_splitParent hp hsp)
    rw [writeFile, hsp]
    simp
  | some place =>
    obtain ⟨parent, name⟩ := place
    have hroot : Path.segments path ≠ [] := by simp [segments_eq_of_splitParent hp hsp]
    rw [and_iff_right hroot, ← createDirectories_parent_eq_ok_iff hp hsp]
    constructor
    · intro h
      obtain ⟨_, _, -, hsp', hc, hd, -⟩ := exists_of_writeFile h
      obtain ⟨rfl, rfl⟩ := Prod.mk.inj (Option.some.inj (hsp.symm.trans hsp'))
      refine ⟨hc, fun hf => ?_⟩
      rw [(isDirectory_createDirectories_parent hp hsp hc).2 hf] at hd
      cases hd
    · rintro ⟨hc, hdir⟩
      have hd := mt (isDirectory_createDirectories_parent hp hsp hc).1 hdir
      rw [Bool.not_eq_true] at hd
      obtain ⟨written, old, hi⟩ := exists_insert_eq_ok (Path.segments_of_splitParent hsp).2
        (isDirectory_createDirectories hc) (.file c)
      rw [writeFile_eq_ok hsp hc hd hi]

/-- **What is seen behind a file that was written**: the file in its place and nothing below it,
directories on the way, and all else as before. -/
theorem face?_writeFile (hp : Path.Undotted path) (h : (t.writeFile path c).2 = .ok ())
    (ks : List String) :
    (t.writeFile path c).1.root.face? ks =
      if ks = Path.segments path then some ⟨.file, some c⟩
      else if ks <+: Path.segments path then some ⟨.directory, none⟩
      else if Path.segments path <+: ks then none else t.root.face? ks := by
  obtain ⟨parent, name, old, hsp, hc, -, hi⟩ := exists_of_writeFile h
  have hseg := segments_eq_of_splitParent hp hsp
  rw [face?_insert_file hi, face?_createDirectories hc, ← hseg]
  by_cases hk : ks = Path.segments path
  · rw [if_pos hk, if_pos hk]
  · rw [if_neg hk, if_neg hk]
    have hpre : ks <+: Path.segments path ↔ ks <+: Path.segments parent := by
      rw [hseg] at hk ⊢
      exact prefix_iff_of_ne hk
    by_cases hb : Path.segments path <+: ks
    · have : ¬ks <+: Path.segments path := fun hq => hk (hq.eq_of_length_le hb.length_le)
      simp [hb, this]
    · simp [hb, hpre]

end Undotted

/-! ## The law of writing -/

/-- **Writing a file with success keeps everything else**, if its path has no segment `.` or `..`:
no directory was in the place of the file, the content is found there, and whatever was at another
path is there still, of the same kind and with the same content.

Whatever the path is, the content is found at its normal form; everything else is kept if there was
no directory; and what is not at or below that place is kept in any case. A directory other than the
root is replaced if and only if the path has a segment `.` or `..`. -/
theorem writeFile_keeps_others {t : Tree} (hw : t.WellFormed) (path c : String) :
    let target := Path.resolve "/" path
    let written := (t.writeFile path c).1
    let done := (t.writeFile path c).2 = .ok ()
    ((∀ s ∈ Path.segments path, s ≠ "." ∧ s ≠ "..") → done →
      t.isDirectory target = false ∧ written.contentAt target = .ok c ∧
        ∀ q x, Path.resolve "/" q ≠ target → t.faceAt q = .ok x → written.faceAt q = .ok x) ∧
    (done → written.contentAt target = .ok c ∧
      (t.isDirectory target = false →
        ∀ q x, Path.resolve "/" q ≠ target → t.faceAt q = .ok x → written.faceAt q = .ok x) ∧
      ∀ q x, ¬Path.segments target <+: Path.segments q → t.faceAt q = .ok x →
        written.faceAt q = .ok x) ∧
    (target ≠ "/" → t.isDirectory target = true →
      (done ↔ ∃ s ∈ Path.segments path, s = "." ∨ s = "..")) := by
  intro target written done
  refine ⟨?_, ?_, ?_⟩
  · intro hs h
    have hd := isDirectory_resolve_of_writeFile h hs
    exact ⟨hd, contentAt_writeFile h, fun q x hq hx => hw.faceAt_writeFile h hd hq hx⟩
  · intro h
    refine ⟨contentAt_writeFile h, ?_, fun q x hq hx => Tree.faceAt_writeFile h hq hx⟩
    intro hd q x hq hx
    exact hw.faceAt_writeFile h hd hq hx
  · intro hr ht
    refine ⟨?_, hw.writeFile_of_dots hr ht⟩
    intro h
    by_contra hs
    push Not at hs
    have hd := isDirectory_resolve_of_writeFile h hs
    rw [ht] at hd
    cases hd

/-- A file is written over another, with slashes to spare; its neighbour is kept. -/
theorem writeFile_keeps_neighbour :
    let t := empty.changeAll [.writeFile "/a/b" "x", .writeFile "/a/c" "y"]
    t.WellFormed ∧ (∀ s ∈ Path.segments "/a//b/", s ≠ "." ∧ s ≠ "..") ∧
      (t.writeFile "/a//b/" "z").2 = .ok () ∧
      (t.writeFile "/a//b/" "z").1.contentAt "/a/b" = .ok "z" ∧
      (t.writeFile "/a//b/" "z").1.faceAt "/a/c" = .ok ⟨.file, some "y"⟩ := by
  intro t
  have hw : t.WellFormed := wellFormed_empty.changeAll (by simp [Change.Sound])
  have hs : ∀ s ∈ Path.segments "/a//b/", s ≠ "." ∧ s ≠ ".." := by decide
  have hdone : (t.writeFile "/a//b/" "z").2 = .ok () := by decide
  obtain ⟨-, hc, hq⟩ := (writeFile_keeps_others hw "/a//b/" "z").1 hs hdone
  exact ⟨hw, hs, hdone, hc, hq "/a/c" _ (by decide) (by decide)⟩

/-- **A directory that is lost**: the file is written in the place of `/a`, and `/a/b` is gone. -/
theorem writeFile_replaces_directory :
    let t := empty.changeAll [.createDirectories "/a/b"]
    t.WellFormed ∧ (t.writeFile "/./a" "x").2 = .ok () ∧
      t.isDirectory (Path.resolve "/" "/./a") = true ∧ t.isDirectory "/a/b" = true ∧
      (t.writeFile "/./a" "x").1.contentAt "/a" = .ok "x" ∧
      (t.writeFile "/./a" "x").1.isDirectory "/a" = false ∧
      (t.writeFile "/./a" "x").1.contains "/a/b" = false := by
  refine ⟨wellFormed_empty.changeAll (by simp [Change.Sound]), ?_, ?_, ?_, ?_, ?_, ?_⟩ <;> decide

end Tree

end AgentShell
