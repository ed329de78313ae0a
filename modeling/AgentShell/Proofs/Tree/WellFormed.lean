import AgentShell.Proofs.Text.Octets
import AgentShell.Proofs.Tree.Change

/-!
# Well-formed trees

Whatever calls are made on a tree that starts empty, with whatever arguments, it stays well-formed:
its root is a directory, every entry bears an entry name, and the names in every directory ascend.
That holds of calls that fail too, those included that fail midway and leave behind the directories
that they had made. Because the order of the entries is fixed, a well-formed tree is no more than
what is seen at its paths.

## Main definitions

* `Tree.Change`, `Tree.change`, `Tree.changeAll`: a call, the tree behind it, and calls in turn
* `Tree.Change.Sound`: what the call puts in is well-formed

## Main results

* `Tree.wellFormed_iff`: well-formedness, by the directories of the tree
* `Tree.WellFormed.change`, `Tree.WellFormed.changeAll`: a call keeps a tree well-formed, and so do
  calls in turn
* `Tree.WellFormed.ext`: what is seen at the paths of a well-formed tree determines it
* `Tree.wellFormed_changeAll_and_eq_iff`: both, for trees that start empty
-/

namespace AgentShell

/-- A node is well-formed if every directory in it has entry names in order. -/
theorem Node.wellFormed_of_forall_get? (n : Node)
    (h : ∀ ss es, n.get? ss = some (.directory es) →
      NameTable.Sorted es ∧ ∀ e ∈ es, isEntryName e.1 = true) : n.WellFormed := by
  match n with
  | .file c => exact .file c
  | .directory es =>
    obtain ⟨hs, hn⟩ := h [] es rfl
    refine wellFormed_directory_iff.2 ⟨hs, fun e he => ⟨hn e he, ?_⟩⟩
    refine wellFormed_of_forall_get? e.2 fun ss fs hg => h (e.1 :: ss) fs ?_
    rw [get?_directory_cons, hs.find?_eq_some_iff.2 he]
    exact hg
termination_by sizeOf n
decreasing_by
  have h₁ : sizeOf e < sizeOf es := List.sizeOf_lt_of_mem he
  have h₂ : sizeOf e = 1 + sizeOf e.1 + sizeOf e.2 := rfl
  have h₃ : sizeOf (Node.directory es) = 1 + sizeOf es := Node.directory.sizeOf_spec es
  omega

namespace Tree

/-! ## Calls that change a tree -/

/-- A call that may change a tree. -/
inductive Change where
  | createDirectories (path : String)
  | writeFile (path content : String)
  | insert (parent name : String) (n : Node)
  | remove (path : String)
  /-- The content of the file at a path is edited. -/
  | modifyFile (path : String) (f : String → String)

/-- What the call puts in is well-formed. -/
def Change.Sound : Change → Prop
  | .insert _ _ n => n.WellFormed
  | _ => True

/-- **The tree behind a call**, whether it succeeds or fails. -/
def change (t : Tree) : Change → Tree
  | .createDirectories path => (t.createDirectories path).1
  | .writeFile path content => (t.writeFile path content).1
  | .insert parent name n => (t.insert parent name n).toOption.elim t Prod.fst
  | .remove path => (t.remove path).toOption.elim t Prod.fst
  | .modifyFile path f => (t.modifyFile path f).toOption.getD t

/-- The tree behind calls in turn. -/
def changeAll (t : Tree) (changes : List Change) : Tree :=
  changes.foldl change t

variable {s t t' : Tree} {n : Node} {old : Option Node} {path parent name : String}
  {ss : List String}

/-- **A tree is well-formed** if its root is a directory and in every directory the names are entry
names and ascend in the order of their octets. -/
theorem wellFormed_iff :
    t.WellFormed ↔ t.root.isDirectory = true ∧
      ∀ (ss : List String) (es : NameTable Node), t.root.get? ss = some (.directory es) →
        (es.names.Pairwise fun a b => Text.octets a < Text.octets b) ∧
          ∀ name ∈ es.names, isEntryName name = true := by
  have hnames (es : NameTable Node) :
      (∀ name ∈ es.names, isEntryName name = true) ↔ ∀ e ∈ es, isEntryName e.1 = true := by
    rw [NameTable.names, List.forall_mem_map]
  simp only [← NameTable.sorted_iff_octets, hnames]
  refine and_congr_right fun _ => ⟨?_, ?_⟩
  · intro h ss es hg
    obtain ⟨hs, he⟩ := Node.wellFormed_directory_iff.1 (h.get? hg).2
    exact ⟨hs, fun e hin => (he e hin).1⟩
  · exact t.root.wellFormed_of_forall_get?

/-! ## What the calls preserve -/

section Preservation

theorem wellFormed_empty : empty.WellFormed :=
  ⟨rfl, Node.wellFormed_directory_iff.2 ⟨NameTable.sorted_nil, by simp⟩⟩

/-- A tree stays well-formed under a change at one place that keeps what it changes well-formed, and
a directory a directory. -/
theorem WellFormed.alter (h : t.WellFormed) {f : Node → Node}
    (hf : ∀ m, t.root.get? ss = some m → m.WellFormed → (f m).WellFormed)
    (hd : ∀ m, m.isDirectory = true → (f m).isDirectory = true) :
    WellFormed ⟨t.root.alter f ss⟩ := by
  refine ⟨?_, h.2.alter hf⟩
  obtain ⟨es, he⟩ := Node.isDirectory_iff_exists.1 h.1
  rw [he]
  cases ss with
  | nil => simpa using hd _ rfl
  | cons s ss => simp [Node.alter_directory_cons, Node.isDirectory, Node.kind]

theorem WellFormed.createDirectories (h : t.WellFormed) (path : String) :
    (t.createDirectories path).1.WellFormed := by
  refine ⟨?_, wellFormed_makeDirectories "" h.2⟩
  have hr : t.root.face? [] = some ⟨.directory, none⟩ := by
    rw [Node.face?_nil, Node.isDirectory_iff_face.1 h.1]
  have hm : (t.createDirectories path).1.root.face? [] = some ⟨.directory, none⟩ :=
    face?_makeDirectories "" hr
  rw [Node.face?_nil] at hm
  exact Node.isDirectory_iff_face.2 (Option.some.inj hm)

theorem WellFormed.insert (h : t.WellFormed) (hn : n.WellFormed)
    (hi : t.insert parent name n = .ok (t', old)) : t'.WellFormed := by
  obtain ⟨hname, es, he, rfl⟩ := exists_of_insert hi
  exact h.alter (fun m _ _ => (h.2.get? he).2.insert hname hn) fun _ _ => rfl

theorem WellFormed.remove (h : t.WellFormed) (hr : t.remove path = .ok (t', n)) :
    t'.WellFormed := by
  obtain ⟨parent, name, es, -, he, rfl⟩ := exists_of_remove hr
  exact h.alter (fun m _ _ => (h.2.get? he).2.erase name) fun _ _ => rfl

theorem WellFormed.modifyFile (h : t.WellFormed) {f : String → String}
    (hm : t.modifyFile path f = .ok t') : t'.WellFormed := by
  rw [Tree.modifyFile] at hm
  cases hl : t.lookup path with
  | error e => simp [hl] at hm
  | ok m =>
    simp only [hl, Except.ok.injEq] at hm
    rw [← hm]
    refine h.alter ?_ ?_
    · rintro (c | es) - hw
      · exact .file (f c)
      · exact hw
    · rintro (c | es) hd
      · cases hd
      · exact hd

theorem WellFormed.writeFile (h : t.WellFormed) (path c : String) :
    (t.writeFile path c).1.WellFormed := by
  rcases writeFile_cases t path c with
    ⟨-, he⟩ | ⟨parent, name, -, ⟨e, he⟩ | ⟨-, -, written, old, hi, he⟩⟩
  · rwa [he]
  · rw [he]
    exact h.createDirectories parent
  · rw [he]
    exact (h.createDirectories parent).insert (.file c) hi

/-- **A call keeps a tree well-formed**, whether it succeeds or fails. -/
theorem WellFormed.change (h : t.WellFormed) {c : Change} (hc : c.Sound) :
    (t.change c).WellFormed := by
  cases c with
  | createDirectories path => exact h.createDirectories path
  | writeFile path content => exact h.writeFile path content
  | insert parent name n =>
    rw [Tree.change]
    cases hi : t.insert parent name n with
    | error e => exact h
    | ok r => exact h.insert hc hi
  | remove path =>
    rw [Tree.change]
    cases hr : t.remove path with
    | error e => exact h
    | ok r => exact h.remove hr
  | modifyFile path f =>
    rw [Tree.change]
    cases hm : t.modifyFile path f with
    | error e => exact h
    | ok r => exact h.modifyFile hm

/-- **Calls in turn keep a tree well-formed.** -/
theorem WellFormed.changeAll (h : t.WellFormed) {changes : List Change}
    (hc : ∀ c ∈ changes, c.Sound) : (t.changeAll changes).WellFormed := by
  induction changes generalizing t with
  | nil => exact h
  | cons c changes ih =>
    obtain ⟨hc, hcs⟩ := List.forall_mem_cons.1 hc
    exact ih (h.change hc) hcs

end Preservation

/-! ## Trees that look alike -/

section Ext

theorem faceAt_eq_faceAt_iff :
    s.faceAt path = t.faceAt path ↔
      s.root.face? (Path.segments path) = t.root.face? (Path.segments path) := by
  rw [faceAt_eq, faceAt_eq]
  cases s.root.face? (Path.segments path) <;> cases t.root.face? (Path.segments path) <;> simp

theorem WellFormed.face?_eq_none (h : t.WellFormed) (hs : ¬∀ s ∈ ss, isEntryName s = true) :
    t.root.face? ss = none := by
  rw [Node.face?, Option.map_eq_none_iff, Option.eq_none_iff_forall_ne_some]
  intro n hn
  exact hs (h.2.get? hn).1

/-- **What is seen at the paths of a well-formed tree determines it.** -/
theorem WellFormed.ext (hs : s.WellFormed) (ht : t.WellFormed)
    (h : ∀ path, s.faceAt path = t.faceAt path) : s = t := by
  have hroot : s.root = t.root := by
    refine hs.2.ext ht.2 fun ss => ?_
    by_cases hss : ∀ s ∈ ss, isEntryName s = true
    · have := faceAt_eq_faceAt_iff.1 (h (Path.render ss))
      rwa [Path.segments_render_of_forall_isEntryName hss] at this
    · rw [hs.face?_eq_none hss, ht.face?_eq_none hss]
  rw [← show (⟨s.root⟩ : Tree) = s from rfl, hroot]

end Ext

/-- **A tree that starts empty stays well-formed** whatever calls are made on it, with whatever
arguments, and whether they succeed or fail: its root is a directory, and in every directory the
names are entry names and ascend in the order of their octets. A node that is put in must be so
itself. **Two well-formed trees are the same** if and only if at every path both have nothing, or
nodes of the same kind and, if they are files, with the same content. -/
theorem wellFormed_changeAll_and_eq_iff :
    (∀ t : Tree, t.WellFormed ↔ t.root.isDirectory = true ∧
      ∀ (ss : List String) (es : NameTable Node), t.root.get? ss = some (.directory es) →
        (es.names.Pairwise fun a b => Text.octets a < Text.octets b) ∧
          ∀ name ∈ es.names, isEntryName name = true) ∧
    (∀ changes : List Change, (∀ c ∈ changes, c.Sound) → (empty.changeAll changes).WellFormed) ∧
    ∀ s t : Tree, s.WellFormed → t.WellFormed →
      (s = t ↔ ∀ path, s.faceAt path = t.faceAt path) := by
  refine ⟨fun t => wellFormed_iff, fun changes hc => wellFormed_empty.changeAll hc, ?_⟩
  intro s t hs ht
  refine ⟨?_, hs.ext ht⟩
  rintro rfl path
  rfl

/-- Directories are made up to a name that is no entry name, a file is written and edited, and a
directory is put in and taken out again. The tree looks like one that was made directly. -/
theorem wellFormed_changeAll_of_failure :
    let changes : List Change :=
      [.createDirectories "/b/../c", .writeFile "/a" "x", .modifyFile "/a" (· ++ "y"),
        .insert "/b" "d" (.directory [("e", .file "")]), .remove "/b/./d"]
    let direct : List Change := [.writeFile "/a" "xy", .createDirectories "/b"]
    (∀ c ∈ changes, c.Sound) ∧ (∀ c ∈ direct, c.Sound) ∧ (empty.changeAll changes).WellFormed ∧
      ∀ path, (empty.changeAll changes).faceAt path = (empty.changeAll direct).faceAt path := by
  intro changes direct
  have he : (Node.directory [("e", .file "")]).WellFormed := by
    refine Node.wellFormed_directory_iff.2 ⟨NameTable.sorted_nil.insert "e" _, ?_⟩
    simpa using ⟨by decide, .file ""⟩
  have hc : ∀ c ∈ changes, c.Sound := by simpa [changes, Change.Sound] using he
  have hd : ∀ c ∈ direct, c.Sound := by simp [direct, Change.Sound]
  obtain ⟨-, hrun, hext⟩ := wellFormed_changeAll_and_eq_iff
  exact ⟨hc, hd, hrun changes hc, (hext _ _ (hrun changes hc) (hrun direct hd)).1 (by decide)⟩

end Tree

end AgentShell
