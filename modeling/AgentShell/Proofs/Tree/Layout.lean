import AgentShell.Proofs.LastMatch
import AgentShell.Proofs.Tree.Write
import AgentShell.Tree.Layout

/-!
# What a layout puts where

The tree of a layout is built one path after another. What is seen in it can be read off the lists
at every moment, so one path more is a step from one picture to the next: a directory is made where
there are no files, and a file is written if its path fits those that are listed already.

Paths are compared by their segments, and none has a segment `.` or `..`.

## Main definitions

* `Layout.Compatible`: no file is in the way of another path
* `Layout.lastContent?`, `Layout.OnTheWay`, `Layout.face?`: what a layout puts where
* `Layout.Depicts`: a tree looks like a layout
* `Layout.addDirectory`, `Layout.addFile`, `Layout.Fits`: a path more

## Main results

* `Layout.Depicts.createDirectories`: a directory more is made
* `Layout.Depicts.writeFile_eq_ok_iff`, `Layout.Depicts.writeFile`: a file more is written if it
  fits
-/

namespace AgentShell

namespace Layout

open AgentShell.Path (segments)

variable {l : Layout} {t : Tree} {path c : String} {ss : List String}

/-! ## What a layout says -/

/-- The paths that a layout lists. -/
def listed (l : Layout) : List String :=
  l.directories ++ l.files.map Prod.fst

/-- **No file is in the way of another path**: no file is the root, and the path of a file leads
neither to a directory nor on to one, nor on to another file. -/
structure Compatible (l : Layout) : Prop where
  root : ∀ f ∈ l.files, segments f.1 ≠ []
  directories : ∀ f ∈ l.files, ∀ d ∈ l.directories, ¬segments f.1 <+: segments d
  files : ∀ f ∈ l.files, ∀ g ∈ l.files, segments f.1 <+: segments g.1 → segments f.1 = segments g.1

/-- The content that files leave at the end of a list of names: that of the last one there. -/
def lastContent? (files : List (String × String)) (ss : List String) : Option String :=
  (files.reverse.find? fun f => segments f.1 == ss).map Prod.snd

/-- A list of names that leads to a listed path, or somewhere on the way to one. -/
def OnTheWay (l : Layout) (ss : List String) : Prop :=
  ss = [] ∨ ∃ path ∈ l.listed, ss <+: segments path

instance (l : Layout) (ss : List String) : Decidable (l.OnTheWay ss) :=
  inferInstanceAs (Decidable (_ ∨ _))

/-- **What a layout puts at the end of a list of names**: the last file there, and otherwise a
directory on the way to a listed path. -/
def face? (l : Layout) (ss : List String) : Option Node.Face :=
  match lastContent? l.files ss with
  | some c => some ⟨.file, some c⟩
  | none => if l.OnTheWay ss then some ⟨.directory, none⟩ else none

/-- **A tree looks like a layout.** -/
def Depicts (t : Tree) (l : Layout) : Prop :=
  ∀ ss, t.root.face? ss = l.face? ss

/-- A layout with a directory more. -/
def addDirectory (l : Layout) (path : String) : Layout :=
  { l with directories := l.directories ++ [path] }

/-- A layout with a file more. -/
def addFile (l : Layout) (path c : String) : Layout :=
  { l with files := l.files ++ [(path, c)] }

/-! ## What a layout leaves at a path -/

section Face

variable {files : List (String × String)}

theorem lastContent?_concat (files : List (String × String)) (f : String × String)
    (ss : List String) :
    lastContent? (files ++ [f]) ss =
      if segments f.1 = ss then some f.2 else lastContent? files ss := by
  rw [lastContent?, find?_reverse_concat, lastContent?]
  by_cases h : segments f.1 = ss <;> simp [h]

/-- A content that is left somewhere is that of a file there. -/
theorem exists_of_lastContent? (h : lastContent? files ss = some c) :
    ∃ f ∈ files, segments f.1 = ss ∧ f.2 = c := by
  obtain ⟨f, hf, hc⟩ := Option.map_eq_some_iff.1 h
  refine ⟨f, List.mem_reverse.1 (List.mem_of_find?_eq_some hf), ?_, hc⟩
  simpa using List.find?_some hf

theorem lastContent?_eq_none_iff :
    lastContent? files ss = none ↔ ∀ f ∈ files, segments f.1 ≠ ss := by
  simp [lastContent?]

theorem exists_lastContent? {f : String × String} (h : f ∈ files) :
    ∃ d, lastContent? files (segments f.1) = some d := by
  rw [← Option.ne_none_iff_exists']
  exact fun hn => lastContent?_eq_none_iff.1 hn f h rfl

/-- **The last file counts.** -/
theorem lastContent?_of_last {before after : List (String × String)}
    (h : ∀ f ∈ after, segments f.1 ≠ segments path) :
    lastContent? (before ++ (path, c) :: after) (segments path) = some c := by
  have hlast : (before ++ (path, c) :: after).reverse.find?
      (fun f => segments f.1 == segments path) = some (path, c) :=
    find?_reverse_eq_some_iff.2 ⟨before, after, rfl, by simp, by simpa using h⟩
  rw [lastContent?, hlast, Option.map_some]

theorem face?_eq_file_iff :
    l.face? ss = some ⟨.file, some c⟩ ↔ lastContent? l.files ss = some c := by
  rw [face?]
  cases lastContent? l.files ss with
  | none =>
    dsimp only
    split <;> simp
  | some d => simp

theorem face?_eq_directory_iff :
    l.face? ss = some ⟨.directory, none⟩ ↔
      (∀ f ∈ l.files, segments f.1 ≠ ss) ∧ l.OnTheWay ss := by
  rw [face?, ← lastContent?_eq_none_iff]
  cases lastContent? l.files ss with
  | none => simp
  | some d => simp

end Face

/-! ## One directory more -/

section AddDirectory

theorem onTheWay_addDirectory :
    (l.addDirectory path).OnTheWay ss ↔ ss <+: segments path ∨ l.OnTheWay ss := by
  simp only [OnTheWay, listed, addDirectory, List.mem_append, List.mem_singleton]
  grind

theorem face?_addDirectory (hf : l.files = []) (path : String) (ss : List String) :
    (l.addDirectory path).face? ss =
      if ss <+: segments path then some ⟨.directory, none⟩ else l.face? ss := by
  have hn : lastContent? l.files ss = none := by
    rw [hf]
    rfl
  have hn' : lastContent? (l.addDirectory path).files ss = none := hn
  rw [face?, face?, hn, hn']
  simp only [onTheWay_addDirectory]
  by_cases hp : ss <+: segments path <;> simp [hp]

/-- **A directory more is made** where there are no files. -/
theorem Depicts.createDirectories (h : Depicts t l) (hf : l.files = [])
    (hp : Path.Undotted path) :
    (t.createDirectories path).2 = .ok () ∧
      Depicts (t.createDirectories path).1 (l.addDirectory path) := by
  have hc : (t.createDirectories path).2 = .ok () := by
    refine (Tree.createDirectories_eq_ok_iff hp).2 fun ks _ c hk => ?_
    rw [h, face?_eq_file_iff, hf] at hk
    cases hk
  refine ⟨hc, fun ss => ?_⟩
  rw [Tree.face?_createDirectories hc, h, face?_addDirectory hf]

end AddDirectory

/-! ## One file more -/

section AddFile

theorem onTheWay_addFile :
    (l.addFile path c).OnTheWay ss ↔ ss <+: segments path ∨ l.OnTheWay ss := by
  simp only [OnTheWay, listed, addFile, List.map_append, List.mem_append]
  grind

theorem lastContent?_addFile :
    lastContent? (l.addFile path c).files ss =
      if segments path = ss then some c else lastContent? l.files ss :=
  lastContent?_concat l.files (path, c) ss

/-- The path of a file more is compatible with those that are listed: it is not the root, it leads
to none of them, and no other file leads to it. -/
structure Fits (l : Layout) (path : String) : Prop where
  root : segments path ≠ []
  directories : ∀ d ∈ l.directories, ¬segments path <+: segments d
  onward : ∀ f ∈ l.files, segments path <+: segments f.1 → segments f.1 = segments path
  above : ∀ f ∈ l.files, segments f.1 <+: segments path → segments f.1 = segments path

theorem compatible_addFile_iff (h : l.Compatible) :
    (l.addFile path c).Compatible ↔ l.Fits path := by
  have hmem {f : String × String} (hf : f ∈ l.files) : f ∈ (l.addFile path c).files :=
    List.mem_append_left _ hf
  have hnew : (path, c) ∈ (l.addFile path c).files :=
    List.mem_append_right _ (List.mem_singleton_self _)
  have hcases {f : String × String} (hf : f ∈ (l.addFile path c).files) :
      f ∈ l.files ∨ f = (path, c) := by
    simpa [addFile] using hf
  constructor
  · intro h'
    exact
      { root := h'.root (path, c) hnew
        directories := h'.directories (path, c) hnew
        onward := fun f hf hp => (h'.files (path, c) hnew f (hmem hf) hp).symm
        above := fun f hf => h'.files f (hmem hf) (path, c) hnew }
  · intro hfit
    refine ⟨?_, ?_, ?_⟩
    · intro f hf
      rcases hcases hf with hf | rfl
      · exact h.root f hf
      · exact hfit.root
    · intro f hf
      rcases hcases hf with hf | rfl
      · exact h.directories f hf
      · exact hfit.directories
    · intro f hf g hg hp
      rcases hcases hf with hf | rfl <;> rcases hcases hg with hg | rfl
      · exact h.files f hf g hg hp
      · exact hfit.above f hf hp
      · exact (hfit.onward g hg hp).symm
      · rfl

/-- A path that fits leads to a listed path only where a file has it already. -/
theorem Fits.exists_of_onTheWay (hfit : l.Fits path) (h : l.OnTheWay ss)
    (hp : segments path <+: ss) :
    ∃ f ∈ l.files, segments f.1 = segments path ∧ ss <+: segments path := by
  rcases h with rfl | ⟨q, hq, hss⟩
  · exact absurd (List.prefix_nil.1 hp) hfit.root
  · rcases List.mem_append.1 hq with hd | hm
    · exact absurd (hp.trans hss) (hfit.directories q hd)
    · obtain ⟨f, hf, rfl⟩ := List.mem_map.1 hm
      have he := hfit.onward f hf (hp.trans hss)
      exact ⟨f, hf, he, he ▸ hss⟩

/-- **A file more**: it is in its place, nothing is below it, directories are on the way to it, and
all else is as before. -/
theorem face?_addFile (hfit : l.Fits path) (c : String) (ss : List String) :
    (l.addFile path c).face? ss =
      if ss = segments path then some ⟨.file, some c⟩
      else if ss <+: segments path then some ⟨.directory, none⟩
      else if segments path <+: ss then none else l.face? ss := by
  rw [face?, lastContent?_addFile]
  by_cases hs : ss = segments path
  · simp [hs]
  · rw [if_neg hs, if_neg (Ne.symm hs)]
    simp only [onTheWay_addFile]
    by_cases hp : ss <+: segments path
    · have hn : lastContent? l.files ss = none := by
        refine lastContent?_eq_none_iff.2 fun f hf he => hs ?_
        rw [← he, hfit.above f hf (he ▸ hp)]
      simp [hp, hn]
    · by_cases hb : segments path <+: ss
      · have hw : ¬l.OnTheWay ss := fun hw => hp (hfit.exists_of_onTheWay hw hb).choose_spec.2.2
        have hn : lastContent? l.files ss = none := by
          refine lastContent?_eq_none_iff.2 fun f hf he => hs ?_
          rw [← he, hfit.onward f hf (he ▸ hb)]
        simp [hp, hb, hn, hw]
      · simp [hp, hb, face?]

/-- **A file more is written** if and only if it fits. -/
theorem Depicts.writeFile_eq_ok_iff (h : Depicts t l) (hc : l.Compatible)
    (hp : Path.Undotted path) : (t.writeFile path c).2 = .ok () ↔ l.Fits path := by
  rw [Tree.writeFile_eq_ok_iff hp, h, ne_eq (l.face? _), face?_eq_directory_iff]
  constructor
  · rintro ⟨hroot, hway, hdir⟩
    have hfile (hw : l.OnTheWay (segments path)) : ∃ f ∈ l.files, segments f.1 = segments path := by
      by_contra hno
      push Not at hno
      exact hdir ⟨hno, hw⟩
    refine ⟨hroot, ?_, ?_, ?_⟩
    · intro d hd hpd
      obtain ⟨f, hf, he⟩ := hfile (.inr ⟨d, List.mem_append_left _ hd, hpd⟩)
      exact hc.directories f hf d hd (he ▸ hpd)
    · intro f hf hpf
      have hl : f.1 ∈ l.listed := List.mem_append_right _ (List.mem_map_of_mem hf)
      obtain ⟨g, hg, he⟩ := hfile (.inr ⟨f.1, hl, hpf⟩)
      rw [← he, hc.files g hg f hf (he ▸ hpf)]
    · intro f hf hpf
      by_contra hne
      obtain ⟨d, hd⟩ := exists_lastContent? hf
      exact hway _ hpf hne d ((h _).trans (face?_eq_file_iff.2 hd))
  · intro hfit
    refine ⟨hfit.root, ?_, ?_⟩
    · intro ks hk hne d hd
      rw [h, face?_eq_file_iff] at hd
      obtain ⟨f, hf, rfl, -⟩ := exists_of_lastContent? hd
      exact hne (hfit.above f hf hk)
    · rintro ⟨hno, hw⟩
      obtain ⟨f, hf, he, -⟩ := hfit.exists_of_onTheWay hw (List.prefix_refl _)
      exact hno f hf he

/-- **What is seen behind a file more.** -/
theorem Depicts.writeFile (h : Depicts t l) (hfit : l.Fits path) (hp : Path.Undotted path)
    (hd : (t.writeFile path c).2 = .ok ()) :
    Depicts (t.writeFile path c).1 (l.addFile path c) := by
  intro ss
  rw [Tree.face?_writeFile hp hd, h, face?_addFile hfit]

end AddFile

end Layout

end AgentShell
