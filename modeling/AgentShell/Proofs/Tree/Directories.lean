import AgentShell.Proofs.Tree.Write

/-!
# Making directories

Along a path the directories that are there are walked through, and the missing ones are made. A
file in the way stops this, at an end of the path as well as on the way to it, and nothing else
does, unless the path has a segment `.` or `..`. Where it succeeds every prefix of the path is a
directory, nothing is new but the prefixes that were missing, and so nothing is left to be made.

## Main results

* `Tree.WellFormed.createDirectories_of_isDirectory`: nothing changes where there is a directory
* `Tree.contains_createDirectories_iff`: what is there when directories were made
* `Tree.WellFormed.createDirectories_createDirectories`: making them again
* `Tree.createDirectories_adds_missing_prefixes`: these together
-/

namespace AgentShell

theorem Path.segments_render_of_prefix {path : String} {ks : List String}
    (h : ks <+: segments path) : segments (render ks) = ks :=
  segments_render fun _ hs => isSegment_of_mem_segments (h.subset hs)

namespace Tree

variable {t : Tree} {path q : String}

/-- **Making directories changes nothing** where there is one already. -/
theorem WellFormed.createDirectories_of_isDirectory (hw : t.WellFormed)
    (h : t.isDirectory path = true) : t.createDirectories path = (t, .ok ()) := by
  obtain ⟨es, he⟩ := isDirectory_iff.1 h
  rw [Tree.createDirectories, makeDirectories_eq_self "" hw.2 he]

/-- **What is there when directories were made**: what was there, and the prefixes of the path. -/
theorem contains_createDirectories_iff (h : (t.createDirectories path).2 = .ok ()) :
    (t.createDirectories path).1.contains q = true ↔
      Path.segments q <+: Path.segments path ∨ t.contains q = true := by
  rw [contains_iff_face?, contains_iff_face?, face?_createDirectories h]
  by_cases hp : Path.segments q <+: Path.segments path <;> simp [hp]

/-- Every prefix of the path is a directory when directories were made. -/
theorem isDirectory_createDirectories_of_prefix (h : (t.createDirectories path).2 = .ok ())
    (hq : Path.segments q <+: Path.segments path) :
    (t.createDirectories path).1.isDirectory q = true := by
  rw [isDirectory_iff_faceAt, faceAt_eq_ok_iff, face?_createDirectories h, if_pos hq]

/-- **Directories that were made are not made again.** -/
theorem WellFormed.createDirectories_createDirectories (hw : t.WellFormed)
    (h : (t.createDirectories path).2 = .ok ()) :
    (t.createDirectories path).1.createDirectories path = ((t.createDirectories path).1, .ok ()) :=
  (hw.createDirectories path).createDirectories_of_isDirectory (isDirectory_createDirectories h)

/-- **Directories are made** if and only if no file is in the way, neither at the end of the path
nor in front of it; the root is none. -/
theorem WellFormed.createDirectories_eq_ok_iff (hw : t.WellFormed) (hp : Path.Undotted path) :
    (t.createDirectories path).2 = .ok () ↔
      ∀ ks, ks ≠ [] → ks <+: Path.segments path → ∀ c, t.contentAt (Path.render ks) ≠ .ok c := by
  rw [Tree.createDirectories_eq_ok_iff hp]
  have hroot (c : String) : t.root.face? [] ≠ some ⟨.file, some c⟩ := by
    rw [Node.face?_nil, Node.isDirectory_iff_face.1 hw.1]
    simp
  constructor
  · intro h ks _ hk c hc
    rw [contentAt_eq_ok_iff_face?, Path.segments_render_of_prefix hk] at hc
    exact h ks hk c hc
  · intro h ks hk c hc
    by_cases hne : ks = []
    · exact hroot c (hne ▸ hc)
    · refine h ks hne hk c ?_
      rwa [contentAt_eq_ok_iff_face?, Path.segments_render_of_prefix hk]

/-- **Making the directories of a path** without `.` and `..` succeeds if and only if no prefix of
the path is that of a file. Then every prefix is that of a directory, and what was not there before
is there if and only if it is a prefix; whatever was there is there still, of the same kind and with
the same content; and making the directories again succeeds and leaves the tree as it is. -/
theorem createDirectories_adds_missing_prefixes {t : Tree} (hw : t.WellFormed) {path : String}
    (hp : Path.Undotted path) :
    let made := (t.createDirectories path).1
    let done := (t.createDirectories path).2 = .ok ()
    (done ↔ ∀ ks, ks ≠ [] → ks <+: Path.segments path →
      ∀ c, t.contentAt (Path.render ks) ≠ .ok c) ∧
    (done →
      (∀ ks, ks <+: Path.segments path → made.isDirectory (Path.render ks) = true) ∧
      (∀ q, t.contains q = false →
        (made.contains q = true ↔ Path.segments q <+: Path.segments path)) ∧
      (∀ q x, t.faceAt q = .ok x → made.faceAt q = .ok x) ∧
      made.createDirectories path = (made, .ok ())) := by
  intro made done
  refine ⟨hw.createDirectories_eq_ok_iff hp, ?_⟩
  intro h
  refine ⟨?_, ?_, fun q x => faceAt_createDirectories path,
    hw.createDirectories_createDirectories h⟩
  · intro ks hk
    apply isDirectory_createDirectories_of_prefix h
    rwa [Path.segments_render_of_prefix hk]
  · intro q hq
    rw [contains_createDirectories_iff h]
    simp [hq]

/-- Two directories are made below one that is there, with slashes to spare; none is made below a
file. -/
theorem createDirectories_adds_two_prefixes :
    let t := empty.changeAll [.writeFile "/a/f" "x"]
    let made := (t.createDirectories "//a/b/c/").1
    t.WellFormed ∧ Path.Undotted "//a/b/c/" ∧ (t.createDirectories "//a/b/c/").2 = .ok () ∧
      made.isDirectory "/a/b" = true ∧ t.contains "/a/b" = false ∧ made.contains "/a/d" = false ∧
      made.faceAt "/a/f" = .ok ⟨.file, some "x"⟩ ∧
      made.createDirectories "//a/b/c/" = (made, .ok ()) ∧
      (t.createDirectories "/a/f/g").2 ≠ .ok () := by
  intro t made
  have hw : t.WellFormed := wellFormed_empty.changeAll (by simp [Change.Sound])
  have hp : Path.Undotted "//a/b/c/" := by decide
  have hd : (t.createDirectories "//a/b/c/").2 = .ok () := by decide
  obtain ⟨-, hdone⟩ := createDirectories_adds_missing_prefixes hw hp
  obtain ⟨hdir, hnew, hkeep, hagain⟩ := hdone hd
  have hp' : Path.Undotted "/a/f/g" := by decide
  obtain ⟨hfile, -⟩ := createDirectories_adds_missing_prefixes hw hp'
  refine ⟨hw, hp, hd, hdir ["a", "b"] (by decide), by decide, ?_, hkeep "/a/f" _ (by decide),
    hagain, ?_⟩
  · rw [← Bool.not_eq_true, hnew "/a/d" (by decide)]
    decide
  · intro h
    exact hfile.1 h ["a", "f"] (by decide) (by decide) "x" (by decide)

end Tree

end AgentShell
