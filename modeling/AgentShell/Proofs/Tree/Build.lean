import AgentShell.Proofs.Tree.Layout
import AgentShell.Proofs.Tree.Paths

/-!
# The tree of a layout

Every step of building may fail, and a step that fails ends it. What comes of it does not depend on
the order all the same: a layout has a tree if and only if no file is in the way of another path.
Directories and files may be listed in any order, but of several contents for one file the last
counts.

## Main results

* `Layout.Depicts.makeAll`, `Layout.Depicts.writeAll`: any number of paths more
* `Layout.exists_build_iff`: which layouts have a tree
* `Layout.depicts_of_build_eq_ok`, `Layout.wellFormed_of_build`: the tree of a layout looks like the
  layout and is well-formed, so that it is known from what is seen in it
* `Layout.build_of_perm`: the order of the lists makes no difference
* `Layout.build_iff_compatible`: what is built, whatever the order
-/

namespace AgentShell

namespace Layout

open AgentShell.Path (segments)

variable {l : Layout} {t : Tree} {path c : String} {ss : List String}

/-! ## One path after another -/

section Build

theorem addDirectory_listed (l : Layout) (path : String) (paths : List String) :
    { l.addDirectory path with directories := (l.addDirectory path).directories ++ paths } =
      { l with directories := l.directories ++ path :: paths } := by
  simp [addDirectory]

/-- **Directories in turn are made** where there are no files. -/
theorem Depicts.makeAll (h : Depicts t l) (hf : l.files = []) {paths : List String}
    (hp : ∀ path ∈ paths, Path.Undotted path) :
    ∃ t', makeAll t paths = .ok t' ∧
      Depicts t' { l with directories := l.directories ++ paths } := by
  induction paths generalizing t l with
  | nil => exact ⟨t, rfl, by simpa using h⟩
  | cons path paths ih =>
    obtain ⟨hpath, hpaths⟩ := List.forall_mem_cons.1 hp
    obtain ⟨hc, hd⟩ := h.createDirectories hf hpath
    obtain ⟨t', ht, hd'⟩ := ih hd hf hpaths
    rw [addDirectory_listed] at hd'
    refine ⟨t', ?_, hd'⟩
    rw [Layout.makeAll]
    rcases hm : t.createDirectories path with ⟨made, outcome⟩
    rw [hm] at hc ht
    obtain rfl : outcome = .ok () := hc
    exact ht

theorem addFile_files (l : Layout) (f : String × String) (files : List (String × String)) :
    { l.addFile f.1 f.2 with files := (l.addFile f.1 f.2).files ++ files } =
      { l with files := l.files ++ f :: files } := by
  simp [addFile]

/-- A layout is compatible if one that lists as much or more is. -/
theorem Compatible.of_subset {l' : Layout} (h : l.Compatible)
    (hd : l'.directories ⊆ l.directories) (hf : l'.files ⊆ l.files) : l'.Compatible where
  root f hm := h.root f (hf hm)
  directories f hm d hdm := h.directories f (hf hm) d (hd hdm)
  files f hm g hg := h.files f (hf hm) g (hf hg)

/-- **Files in turn are written** if and only if all of them together are compatible. -/
theorem Depicts.writeAll (h : Depicts t l) (hc : l.Compatible) {files : List (String × String)}
    (hp : ∀ f ∈ files, Path.Undotted f.1) :
    (Compatible { l with files := l.files ++ files } →
      ∃ t', writeAll t files = .ok t' ∧ Depicts t' { l with files := l.files ++ files }) ∧
    (¬Compatible { l with files := l.files ++ files } → ∃ e, writeAll t files = .error e) := by
  -- Induction on the files: the first is written if it fits, and then the others are to fit.
  induction files generalizing t l with
  | nil =>
    rw [List.append_nil]
    exact ⟨fun _ => ⟨t, rfl, h⟩, fun hn => absurd hc hn⟩
  | cons f files ih =>
    obtain ⟨hpath, hpaths⟩ := List.forall_mem_cons.1 hp
    rw [← addFile_files, Layout.writeAll]
    have hw := h.writeFile_eq_ok_iff (c := f.2) hc hpath
    rcases hm : t.writeFile f.1 f.2 with ⟨written, e | done⟩
    · rw [hm] at hw
      refine ⟨fun hall => ?_, fun _ => ⟨e, rfl⟩⟩
      have hf : (l.addFile f.1 f.2).Compatible :=
        hall.of_subset (List.Subset.refl _) (List.subset_append_left _ _)
      have := hw.2 ((compatible_addFile_iff hc).1 hf)
      cases this
    · rw [hm] at hw
      have hfit := hw.1 rfl
      have hd := h.writeFile hfit hpath (c := f.2) (by rw [hm])
      rw [hm] at hd
      exact ih hd ((compatible_addFile_iff hc).2 hfit) hpaths

theorem depicts_empty : Depicts Tree.empty {} := by
  intro ss
  have hw : OnTheWay {} ss ↔ ss = [] := by simp [OnTheWay, listed]
  show (Node.directory []).face? ss = _
  rw [Tree.face?_empty, face?]
  simp only [hw]
  rfl

/-- A compatible layout has a tree that looks like it, and any other layout has none. -/
theorem depicts_of_build (hp : ∀ path ∈ l.listed, Path.Undotted path) :
    (l.Compatible → ∃ t, l.build = .ok t ∧ Depicts t l) ∧
      (¬l.Compatible → ∃ e, l.build = .error e) := by
  have hdirectories : ∀ path ∈ l.directories, Path.Undotted path :=
    fun path h => hp path (List.mem_append_left _ h)
  obtain ⟨made, hm, hd⟩ := depicts_empty.makeAll rfl hdirectories
  have hc : Compatible { directories := l.directories } := ⟨by simp, by simp, by simp⟩
  rw [build, hm]
  exact hd.writeAll hc fun f h => hp f.1 (List.mem_append_right _ (List.mem_map_of_mem h))

end Build

/-! ## The tree of a layout -/

section WellFormed

theorem wellFormed_of_makeAll (h : t.WellFormed) {paths : List String} {t' : Tree}
    (hm : makeAll t paths = .ok t') : t'.WellFormed := by
  induction paths generalizing t with
  | nil => exact Except.ok.inj hm ▸ h
  | cons path paths ih =>
    rw [makeAll] at hm
    have hw := h.createDirectories path
    rcases hc : t.createDirectories path with ⟨made, e | done⟩
    · simp [hc] at hm
    · rw [hc] at hm hw
      exact ih hw hm

theorem wellFormed_of_writeAll (h : t.WellFormed) {files : List (String × String)} {t' : Tree}
    (hm : writeAll t files = .ok t') : t'.WellFormed := by
  induction files generalizing t with
  | nil => exact Except.ok.inj hm ▸ h
  | cons f files ih =>
    rw [writeAll] at hm
    have hw := h.writeFile f.1 f.2
    rcases hc : t.writeFile f.1 f.2 with ⟨written, e | done⟩
    · simp [hc] at hm
    · rw [hc] at hm hw
      exact ih hw hm

/-- **The tree of a layout is well-formed.** -/
theorem wellFormed_of_build (h : l.build = .ok t) : t.WellFormed := by
  rw [build] at h
  cases hm : makeAll Tree.empty l.directories with
  | error e => simp [hm] at h
  | ok made =>
    rw [hm] at h
    exact wellFormed_of_writeAll (wellFormed_of_makeAll Tree.wellFormed_empty hm) h

theorem Depicts.eq {t' : Tree} (h : Depicts t l) (h' : Depicts t' l) (ht : t.WellFormed)
    (ht' : t'.WellFormed) : t = t' := by
  have hr : t.root = t'.root := ht.2.ext ht'.2 fun ss => (h ss).trans (h' ss).symm
  rw [← show (⟨t.root⟩ : Tree) = t from rfl, hr]

end WellFormed

/-! ## The order of the lists -/

section Order

variable {files files' : List (String × String)}

theorem lastContent?_eq_some_iff (hn : (files.map fun f => segments f.1).Nodup) :
    lastContent? files ss = some c ↔ ∃ f ∈ files, segments f.1 = ss ∧ f.2 = c := by
  refine ⟨exists_of_lastContent?, ?_⟩
  rintro ⟨f, hf, rfl, rfl⟩
  obtain ⟨d, hd⟩ := exists_lastContent? hf
  obtain ⟨g, hg, he, rfl⟩ := exists_of_lastContent? hd
  rw [hd, List.inj_on_of_nodup_map hn hg hf he]

/-- **The order of files with different paths makes no difference.** -/
theorem lastContent?_of_perm (h : files'.Perm files)
    (hn : (files.map fun f => segments f.1).Nodup) (ss : List String) :
    lastContent? files' ss = lastContent? files ss := by
  have hn' : (files'.map fun f => segments f.1).Nodup := (h.map _).nodup_iff.2 hn
  ext c
  simp only [lastContent?_eq_some_iff hn, lastContent?_eq_some_iff hn', h.mem_iff]

/-- Layouts that list the same paths and leave the same contents look the same. -/
theorem face?_congr {l' : Layout} (hl : ∀ path, path ∈ l'.listed ↔ path ∈ l.listed)
    (hc : ∀ ss, lastContent? l'.files ss = lastContent? l.files ss) (ss : List String) :
    l'.face? ss = l.face? ss := by
  have hw : l'.OnTheWay ss ↔ l.OnTheWay ss := by simp only [OnTheWay, hl]
  rw [face?, face?, hc]
  simp only [hw]

end Order

/-! ## What is built -/

section Result

theorem isSome_face?_iff : (l.face? ss).isSome ↔ l.OnTheWay ss := by
  rw [face?]
  cases hc : lastContent? l.files ss with
  | none =>
    dsimp only
    split <;> simp_all
  | some c =>
    obtain ⟨f, hf, rfl, -⟩ := exists_of_lastContent? hc
    have hl : f.1 ∈ l.listed := List.mem_append_right _ (List.mem_map_of_mem hf)
    exact iff_of_true rfl (.inr ⟨f.1, hl, List.prefix_refl _⟩)

/-- **The paths of the tree of a layout**: the root, and what is on the way to a listed path. -/
theorem Depicts.mem_paths_iff (h : Depicts t l) (ht : t.WellFormed) (p : String) :
    p ∈ t.paths ↔ p = "/" ∨ ∃ q ∈ l.listed, ∃ ss, ss <+: segments q ∧ p = Path.render ss := by
  have hway (ss : List String) : (∃ n, t.root.get? ss = some n) ↔ l.OnTheWay ss := by
    rw [← isSome_face?_iff, ← h ss, Node.face?, Option.isSome_map, Option.isSome_iff_exists]
  rw [ht.mem_paths_iff]
  constructor
  · rintro ⟨ss, n, hg, rfl⟩
    rcases (hway ss).1 ⟨n, hg⟩ with rfl | ⟨q, hq, hss⟩
    · exact .inl rfl
    · exact .inr ⟨q, hq, ss, hss, rfl⟩
  · rintro (rfl | ⟨q, hq, ss, hss, rfl⟩)
    · exact ⟨[], t.root, Node.get?_nil _, rfl⟩
    · obtain ⟨n, hg⟩ := (hway ss).2 (.inr ⟨q, hq, hss⟩)
      exact ⟨ss, n, hg, rfl⟩

theorem Depicts.contentAt (h : Depicts t l) (hc : lastContent? l.files (segments path) = some c) :
    t.contentAt path = .ok c := by
  have hf := h (segments path)
  rw [face?_eq_file_iff.2 hc, Node.face?, Option.map_eq_some_iff] at hf
  obtain ⟨n, hn, hface⟩ := hf
  rw [Tree.contentAt_eq_ok_iff, hn]
  cases n with
  | file d => simpa using hface
  | directory es => simp at hface

theorem Depicts.isDirectory (h : Depicts t l) (ht : t.WellFormed) {p : String} (hp : p ∈ t.paths)
    (hf : ∀ f ∈ l.files, segments f.1 ≠ segments p) : t.isDirectory p = true := by
  obtain ⟨ss, n, hg, rfl⟩ := ht.mem_paths_iff.1 hp
  have hss : segments (Path.render ss) = ss := Tree.segments_render_of_get? ht.2 hg
  rw [Tree.isDirectory_iff_faceAt, Tree.faceAt_eq_ok_iff, h, face?_eq_directory_iff]
  refine ⟨hf, ?_⟩
  rw [hss, ← isSome_face?_iff, ← h ss, Node.face?, hg]
  rfl

section Compatible

variable (hp : ∀ path ∈ l.listed, Path.Undotted path)
include hp

theorem exists_build_iff : (∃ t, l.build = .ok t) ↔ l.Compatible := by
  obtain ⟨hok, herror⟩ := depicts_of_build hp
  refine ⟨?_, fun h => (hok h).imp fun _ => And.left⟩
  rintro ⟨t, ht⟩
  by_contra hn
  obtain ⟨e, he⟩ := herror hn
  rw [ht] at he
  cases he

/-- **The tree of a layout looks like the layout.** -/
theorem depicts_of_build_eq_ok (h : l.build = .ok t) : Depicts t l := by
  obtain ⟨t', ht', hd⟩ := (depicts_of_build hp).1 ((exists_build_iff hp).1 ⟨t, h⟩)
  rwa [Except.ok.inj (h.symm.trans ht')]

/-- **The order of the lists makes no difference**: directories may be listed in any order, and
files too if no two of them have the same path. -/
theorem build_of_perm (h : l.build = .ok t) {directories : List String}
    {files : List (String × String)} (hds : directories.Perm l.directories)
    (hfs : files = l.files ∨ files.Perm l.files ∧ (l.files.map fun f => segments f.1).Nodup) :
    build ⟨directories, files⟩ = .ok t := by
  have hperm : files.Perm l.files := hfs.elim (fun h => h ▸ List.Perm.refl _) And.left
  have hlisted (path : String) : path ∈ listed ⟨directories, files⟩ ↔ path ∈ l.listed := by
    simp only [listed, List.mem_append, hds.mem_iff, (hperm.map Prod.fst).mem_iff]
  have hlast (ss : List String) : lastContent? files ss = lastContent? l.files ss := by
    rcases hfs with rfl | ⟨-, hn⟩
    · rfl
    · exact lastContent?_of_perm hperm hn ss
  have hp' : ∀ path ∈ listed ⟨directories, files⟩, Path.Undotted path :=
    fun path hm => hp path ((hlisted path).1 hm)
  have hc := (exists_build_iff hp).1 ⟨t, h⟩
  obtain ⟨t', ht', hd'⟩ := (depicts_of_build hp').1 (hc.of_subset hds.subset hperm.subset)
  have hd : Depicts t' l := fun ss => (hd' ss).trans (face?_congr hlisted hlast ss)
  rw [ht', hd.eq (depicts_of_build_eq_ok hp h) (wellFormed_of_build ht') (wellFormed_of_build h)]

end Compatible

/-- **A layout has a tree if and only if no file is in the way of another path**, whatever the order
of the lists. The paths of the tree, each listed once, are the root and those on the way to a listed
path. A file holds its last content, and every other path is that of a directory. Listing the
directories in another order, or files of which no two have the same path, gives the same tree. -/
theorem build_iff_compatible {l : Layout} (hp : ∀ path ∈ l.listed, Path.Undotted path) :
    ((∃ t, l.build = .ok t) ↔ l.Compatible) ∧
    ∀ t, l.build = .ok t →
      (t.paths.Nodup ∧ ∀ p, p ∈ t.paths ↔
        p = "/" ∨ ∃ q ∈ l.listed, ∃ ss, ss <+: segments q ∧ p = Path.render ss) ∧
      (∀ before path c after, l.files = before ++ (path, c) :: after →
        (∀ f ∈ after, segments f.1 ≠ segments path) → t.contentAt path = .ok c) ∧
      (∀ p ∈ t.paths, (∀ f ∈ l.files, segments f.1 ≠ segments p) → t.isDirectory p = true) ∧
      ∀ directories files, directories.Perm l.directories →
        files = l.files ∨ files.Perm l.files ∧ (l.files.map fun f => segments f.1).Nodup →
        build ⟨directories, files⟩ = .ok t := by
  refine ⟨exists_build_iff hp, ?_⟩
  intro t ht
  have hw := wellFormed_of_build ht
  have hd := depicts_of_build_eq_ok hp ht
  refine ⟨⟨hw.nodup_paths, hd.mem_paths_iff hw⟩, ?_, fun p => hd.isDirectory hw,
    fun _ _ => build_of_perm hp ht⟩
  intro before path c after hl hlast
  refine hd.contentAt ?_
  rw [hl, lastContent?_of_last hlast]

/-- A layout listed in two orders, with slashes to spare: `/a/f` holds its last content, and `/d` is
a directory though only a file below it is listed. A file in the way of another leaves no tree. -/
theorem build_of_another_order :
    let l : Layout := ⟨["/a/b", "//a/c/"], [("/a/f", "x"), ("/d//g", "y")]⟩
    let blocked : Layout := ⟨["/b"], [("/a/f/g", "x"), ("/a/f", "y")]⟩
    (∀ path ∈ l.listed, Path.Undotted path) ∧ (∀ path ∈ blocked.listed, Path.Undotted path) ∧
      (∃ t, l.build = .ok t ∧
        build ⟨["//a/c/", "/a/b"], [("/d//g", "y"), ("/a/f", "x")]⟩ = .ok t ∧
        t.contentAt "/a/f" = .ok "x" ∧ "/d" ∈ t.paths ∧ t.isDirectory "/d" = true) ∧
      ¬∃ t, blocked.build = .ok t := by
  intro l blocked
  have hp : ∀ path ∈ l.listed, Path.Undotted path := by decide
  have hb : ∀ path ∈ blocked.listed, Path.Undotted path := by decide
  have hc : l.Compatible := ⟨by decide, by decide, by decide⟩
  have hn : ¬blocked.Compatible := fun h => by
    have := h.files ("/a/f", "y") (by decide) ("/a/f/g", "x") (by decide)
    revert this
    decide
  obtain ⟨hiff, hall⟩ := build_iff_compatible hp
  obtain ⟨t, ht⟩ := hiff.2 hc
  obtain ⟨⟨-, hpaths⟩, hcontent, hdir, horder⟩ := hall t ht
  have hd : "/d" ∈ t.paths :=
    (hpaths "/d").2 (.inr ⟨"/d//g", by decide, ["d"], by decide, by decide⟩)
  refine ⟨hp, hb, ⟨t, ht, ?_, ?_, hd, hdir _ hd (by decide)⟩,
    fun h => hn ((build_iff_compatible hb).1.1 h)⟩
  · exact horder _ _ (by decide) (.inr ⟨by decide, by decide⟩)
  · exact hcontent [] "/a/f" "x" [("/d//g", "y")] rfl (by decide)

end Result

end Layout

end AgentShell
