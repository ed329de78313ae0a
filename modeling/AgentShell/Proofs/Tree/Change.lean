import AgentShell.Proofs.Path.Parent
import AgentShell.Proofs.Tree.Walk
import AgentShell.Tree.Basic

/-!
# What a change of a tree does

Each operation on a tree succeeds under a condition that can be read off the tree, and then changes
it at one place; an operation that makes directories may have made some of them when it fails. Here
both are said once for each operation, and also what is seen in the tree behind it.

## Main definitions

* `Tree.faceAt`: what is seen at a path

## Main results

* `Tree.lookup_eq_ok_iff`, `Tree.faceAt_eq_ok_iff`, `Tree.isDirectory_iff`,
  `Tree.contentAt_eq_ok_iff`: reading, by the segments of the path
* `Tree.makeDirectories_cons`: what making directories does with the first name
* `Tree.face?_makeDirectories`, `Tree.get?_makeDirectories`, `Tree.makeDirectories_eq_self`: nothing
  that was there is lost, success leaves a directory, and where one is already nothing changes
* `Tree.makeDirectories_eq_ok_iff`, `Tree.face?_makeDirectories_of_ok`: when making directories
  succeeds, and what is seen then
* `Tree.insert_eq_ok_iff`, `Tree.remove_eq_ok_iff`, `Tree.writeFile_cases`: what the operations do
* `Tree.get?_insert`, `Tree.face?_insert`, `Tree.face?_insert_file`: what is seen after something
  was put in
-/

namespace AgentShell.Tree

open Node (face Face)

variable {t t' : Tree} {n : Node} {path parent name : String} {x : Face}

/-- What is seen at a path, or why nothing is. -/
def faceAt (t : Tree) (path : String) : Except TreeError Face :=
  (t.lookup path).map face

theorem segments_render_of_get? {m : Node} {ss : List String} (hn : n.WellFormed)
    (h : n.get? ss = some m) : Path.segments (Path.render ss) = ss :=
  Path.segments_render_of_forall_isEntryName (hn.get? h).1

/-! ## What is read in a tree -/

section Reading

theorem lookup_eq_ok_iff :
    t.lookup path = .ok n ↔ t.root.get? (Path.segments path) = some n := by
  rw [lookup]
  cases t.root.get? (Path.segments path) <;> simp

/-- What is seen at a path is seen where its segments lead. -/
theorem faceAt_eq (t : Tree) (path : String) :
    t.faceAt path = match t.root.face? (Path.segments path) with
      | some x => .ok x
      | none => .error (.missing path) := by
  rw [faceAt, lookup, Node.face?]
  cases t.root.get? (Path.segments path) <;> rfl

theorem faceAt_eq_ok_iff :
    t.faceAt path = .ok x ↔ t.root.face? (Path.segments path) = some x := by
  rw [faceAt_eq]
  cases t.root.face? (Path.segments path) <;> simp

theorem isDirectory_iff :
    t.isDirectory path = true ↔
      ∃ es, t.root.get? (Path.segments path) = some (.directory es) := by
  rw [isDirectory, lookup]
  cases t.root.get? (Path.segments path) <;> simp [Node.isDirectory_iff_exists]

theorem isDirectory_iff_faceAt :
    t.isDirectory path = true ↔ t.faceAt path = .ok ⟨.directory, none⟩ := by
  rw [isDirectory, faceAt]
  cases t.lookup path with
  | error e => simp [Except.map]
  | ok n => simp [Except.map, Node.isDirectory_iff_face]

theorem entriesAt_eq_ok_iff {entries : List Entry} :
    t.entriesAt path = .ok entries ↔
      ∃ es, t.root.get? (Path.segments path) = some (.directory es) ∧
        entries = es.map fun e => ⟨e.1, e.2.kind⟩ := by
  rw [entriesAt, lookup]
  rcases t.root.get? (Path.segments path) with _ | c | es
  · simp
  · simp
  · simp [eq_comm]

/-- **A path has entries** if and only if it leads to a directory. -/
theorem exists_entriesAt_iff :
    (∃ es, t.entriesAt path = .ok es) ↔ t.isDirectory path = true := by
  unfold entriesAt isDirectory
  cases t.lookup path with
  | error e => simp
  | ok n => cases n <;> simp [Node.isDirectory, Node.kind]

theorem contentAt_eq_ok_iff {c : String} :
    t.contentAt path = .ok c ↔ t.root.get? (Path.segments path) = some (.file c) := by
  rw [contentAt, lookup]
  rcases t.root.get? (Path.segments path) with _ | c' | es <;> simp

theorem contentAt_eq_ok_iff_face? {c : String} :
    t.contentAt path = .ok c ↔ t.root.face? (Path.segments path) = some ⟨.file, some c⟩ := by
  rw [contentAt_eq_ok_iff, Node.face?]
  rcases t.root.get? (Path.segments path) with _ | c' | es <;> simp

theorem contains_iff_exists_lookup : t.contains path = true ↔ ∃ n, t.lookup path = .ok n := by
  rw [contains]
  cases t.lookup path <;> simp [Except.isOk, Except.toBool]

theorem contains_iff_face? :
    t.contains path = true ↔ (t.root.face? (Path.segments path)).isSome = true := by
  rw [contains_iff_exists_lookup, Node.face?, Option.isSome_map, Option.isSome_iff_exists]
  exact exists_congr fun n => lookup_eq_ok_iff

theorem contains_of_isDirectory (h : t.isDirectory path = true) : t.contains path = true := by
  obtain ⟨es, he⟩ := isDirectory_iff.1 h
  rw [contains_iff_face?, Node.face?, he]
  rfl

end Reading

/-! ## Directories along a path -/

theorem checkEntryName_eq_error {s : String} (h : ¬isEntryName s = true) :
    checkEntryName s = .error (.badName s) := by
  rw [checkEntryName, if_neg h]

section MakeDirectories

variable {walked s : String} {ss ks : List String} {es : NameTable Node}

theorem makeDirectories_nil (walked : String) (n : Node) :
    makeDirectories walked n [] =
      (n, if n.isDirectory then .ok () else .error (.taken walked)) := by
  cases n <;> rfl

/-- **What making directories does with the first name**: it fails and leaves the node alone, or it
goes on in the directory under that name, which is made if it is missing. -/
theorem makeDirectories_cons (walked : String) (n : Node) (s : String) (ss : List String) :
    (∃ e, makeDirectories walked n (s :: ss) = (n, .error e)) ∨
      ∃ es, n = .directory es ∧ isEntryName s = true ∧
        makeDirectories walked n (s :: ss) =
          let below := makeDirectories (walked ++ "/" ++ s)
            ((NameTable.find? s es).getD (.directory [])) ss
          (.directory (NameTable.insert s below.1 es), below.2) := by
  by_cases hs : isEntryName s = true
  · cases n with
    | file c =>
      refine .inl ⟨.notADirectory (walked ++ "/" ++ s), ?_⟩
      rw [makeDirectories, checkEntryName_eq_ok_iff.2 hs]
    | directory es =>
      refine .inr ⟨es, rfl, hs, ?_⟩
      rw [makeDirectories, checkEntryName_eq_ok_iff.2 hs]
  · refine .inl ⟨.badName s, ?_⟩
    cases n <;> rw [makeDirectories, checkEntryName_eq_error hs]

/-- **Making directories loses nothing**, whether it succeeds or fails. -/
theorem face?_makeDirectories (walked : String) (h : n.face? ks = some x) :
    (makeDirectories walked n ss).1.face? ks = some x := by
  induction ss generalizing walked n ks with
  | nil => rwa [makeDirectories_nil]
  | cons s ss ih =>
    rcases makeDirectories_cons walked n s ss with ⟨e, he⟩ | ⟨es, rfl, -, he⟩
    · rwa [he]
    · rw [he]
      cases ks with
      | nil => simpa using h
      | cons k ks =>
        rw [Node.face?_directory_cons] at h ⊢
        rw [NameTable.find?_insert]
        by_cases hk : s = k
        · subst hk
          obtain ⟨child, hc, hx⟩ := Option.bind_eq_some_iff.1 h
          simpa [hc] using ih (walked ++ "/" ++ s) hx
        · rwa [if_neg hk]

/-- **Making directories with success** leaves a directory at the end. -/
theorem get?_makeDirectories (h : (makeDirectories walked n ss).2 = .ok ()) :
    ∃ es, (makeDirectories walked n ss).1.get? ss = some (.directory es) := by
  induction ss generalizing walked n with
  | nil =>
    rw [makeDirectories_nil] at h ⊢
    cases n with
    | file c => cases h
    | directory es => exact ⟨es, rfl⟩
  | cons s ss ih =>
    rcases makeDirectories_cons walked n s ss with ⟨e, he⟩ | ⟨es, rfl, -, he⟩
    · rw [he] at h
      cases h
    · rw [he] at h ⊢
      obtain ⟨fs, hfs⟩ := ih h
      refine ⟨fs, ?_⟩
      rw [Node.get?_directory_cons, NameTable.find?_insert, if_pos rfl]
      exact hfs

theorem face?_empty (ks : List String) :
    (Node.directory []).face? ks = if ks = [] then some ⟨.directory, none⟩ else none := by
  cases ks with
  | nil => rfl
  | cons k ks => simp [Node.face?_directory_cons]

/-- What is seen in the directory that is walked into: what is seen there already, and otherwise an
empty directory. -/
theorem face?_getD_find? (es : NameTable Node) (s : String) (ks : List String) :
    ((NameTable.find? s es).getD (.directory [])).face? ks =
      ((Node.directory es).face? (s :: ks)).or
        (if NameTable.find? s es = none ∧ ks = [] then some ⟨.directory, none⟩ else none) := by
  rw [Node.face?_directory_cons]
  cases hs : NameTable.find? s es with
  | none => simp [face?_empty]
  | some m => simp

/-- What making directories comes to below a directory, by its first name. -/
theorem makeDirectories_directory_cons (walked : String) (es : NameTable Node)
    (hs : isEntryName s = true) (ss : List String) :
    makeDirectories walked (.directory es) (s :: ss) =
      let below := makeDirectories (walked ++ "/" ++ s)
        ((NameTable.find? s es).getD (.directory [])) ss
      (.directory (NameTable.insert s below.1 es), below.2) := by
  rw [makeDirectories, checkEntryName_eq_ok_iff.2 hs]

/-- **Making directories changes nothing** where there is one already. -/
theorem makeDirectories_eq_self (walked : String) (hn : n.WellFormed)
    (h : n.get? ss = some (.directory es)) : makeDirectories walked n ss = (n, .ok ()) := by
  induction ss generalizing walked n with
  | nil =>
    obtain rfl := Option.some.inj ((Node.get?_nil n).symm.trans h)
    rfl
  | cons s ss ih =>
    cases n with
    | file c => cases h
    | directory fs =>
      rw [Node.get?_directory_cons] at h
      obtain ⟨child, hc, hchild⟩ := Option.bind_eq_some_iff.1 h
      obtain ⟨hs, hw⟩ := hn.of_find? hc
      have hsame : NameTable.insert s child fs = fs :=
        (Node.wellFormed_directory_iff.1 hn).1.insert_of_find? hc
      rw [makeDirectories_directory_cons walked fs hs, hc, Option.getD_some, ih _ hw hchild]
      simp only [hsame]

/-- **Making directories succeeds** if and only if no list of names on the way leads to a file. -/
theorem makeDirectories_eq_ok_iff (walked : String) (n : Node)
    (hs : ∀ s ∈ ss, isEntryName s = true) :
    (makeDirectories walked n ss).2 = .ok () ↔
      ∀ ks, ks <+: ss → ∀ c, n.face? ks ≠ some ⟨.file, some c⟩ := by
  induction ss generalizing walked n with
  | nil => cases n <;> simp [makeDirectories_nil, Node.isDirectory, Node.kind]
  | cons s ss ih =>
    obtain ⟨hn, hss⟩ := List.forall_mem_cons.1 hs
    cases n with
    | file c =>
      have hf : (makeDirectories walked (.file c) (s :: ss)).2 ≠ .ok () := by
        rw [makeDirectories, checkEntryName_eq_ok_iff.2 hn]
        simp
      exact iff_of_false hf fun h => h [] List.nil_prefix c (Node.face?_nil _)
    | directory es =>
      rw [makeDirectories_directory_cons walked es hn, ih _ _ hss]
      have hfile (ks : List String) (c : String) :
          ((NameTable.find? s es).getD (.directory [])).face? ks = some ⟨.file, some c⟩ ↔
            (Node.directory es).face? (s :: ks) = some ⟨.file, some c⟩ := by
        rw [face?_getD_find?]
        cases (Node.directory es).face? (s :: ks) with
        | none => simp
        | some x => simp
      constructor
      · intro h ks hk c
        rcases List.prefix_cons_iff.1 hk with rfl | ⟨below, rfl, hbelow⟩
        · simp
        · exact fun hc => h below hbelow c ((hfile below c).2 hc)
      · intro h ks hk c hc
        exact h (s :: ks) (List.cons_prefix_cons.2 ⟨rfl, hk⟩) c ((hfile ks c).1 hc)

/-- **What is seen behind directories that were made**: a directory wherever names on the way lead,
and all else as before. -/
theorem face?_makeDirectories_of_ok (h : (makeDirectories walked n ss).2 = .ok ())
    (ks : List String) :
    (makeDirectories walked n ss).1.face? ks =
      if ks <+: ss then some ⟨.directory, none⟩ else n.face? ks := by
  induction ss generalizing walked n ks with
  | nil =>
    rw [makeDirectories_nil] at h ⊢
    by_cases hd : n.isDirectory = true
    · by_cases hk : ks = []
      · simp [hk, Node.isDirectory_iff_face.1 hd]
      · simp [hk]
    · simp [hd] at h
  | cons s ss ih =>
    rcases makeDirectories_cons walked n s ss with ⟨e, he⟩ | ⟨es, rfl, -, he⟩
    · rw [he] at h
      cases h
    · rw [he] at h ⊢
      cases ks with
      | nil => simp
      | cons k ks =>
        rw [Node.face?_directory_cons, NameTable.find?_insert]
        by_cases hk : s = k
        · subst hk
          rw [if_pos rfl, Option.bind_some, ih h ks]
          by_cases hp : ks <+: ss
          · rw [if_pos hp, if_pos (List.cons_prefix_cons.2 ⟨rfl, hp⟩)]
          · have hk : ks ≠ [] := fun h0 => hp (h0 ▸ List.nil_prefix)
            rw [if_neg hp, if_neg (fun hq => hp (List.cons_prefix_cons.1 hq).2), face?_getD_find?]
            simp [hk]
        · rw [if_neg hk, if_neg (fun hq => hk (List.cons_prefix_cons.1 hq).1.symm),
            Node.face?_directory_cons]

theorem wellFormed_makeDirectories (walked : String) (h : n.WellFormed) :
    (makeDirectories walked n ss).1.WellFormed := by
  induction ss generalizing walked n with
  | nil => rwa [makeDirectories_nil]
  | cons s ss ih =>
    rcases makeDirectories_cons walked n s ss with ⟨e, he⟩ | ⟨es, rfl, hs, he⟩
    · rwa [he]
    · rw [he]
      refine h.insert hs (ih _ ?_)
      cases hc : NameTable.find? s es with
      | none => exact Node.wellFormed_directory_iff.2 ⟨NameTable.sorted_nil, by simp⟩
      | some child => exact (h.of_find? hc).2

end MakeDirectories

section CreateDirectories

/-- What is seen in a tree is seen after directories were made. -/
theorem faceAt_createDirectories (path : String) {q : String} (h : t.faceAt q = .ok x) :
    (t.createDirectories path).1.faceAt q = .ok x := by
  rw [faceAt_eq_ok_iff] at h ⊢
  exact face?_makeDirectories "" h

theorem isDirectory_createDirectories (h : (t.createDirectories path).2 = .ok ()) :
    (t.createDirectories path).1.isDirectory path = true :=
  isDirectory_iff.2 (get?_makeDirectories h)

end CreateDirectories

/-! ## Putting an entry in -/

section Insert

variable {old : Option Node} {ks : List String}

/-- **Putting a node in succeeds** under an entry name in a directory, and changes the directory. -/
theorem insert_eq_ok_iff :
    t.insert parent name n = .ok (t', old) ↔
      isEntryName name = true ∧ ∃ es, t.root.get? (Path.segments parent) = some (.directory es) ∧
        t' = ⟨t.root.alter (fun _ => .directory (NameTable.insert name n es))
          (Path.segments parent)⟩ ∧ old = NameTable.find? name es := by
  rw [insert]
  by_cases hn : isEntryName name = true
  · rw [checkEntryName_eq_ok_iff.2 hn, lookup]
    rcases t.root.get? (Path.segments parent) with _ | c | es
    · simp
    · simp
    · simp [hn, eq_comm]
  · rw [checkEntryName_eq_error hn]
    simp [hn]

/-- **What putting a node in does** where it succeeds. -/
theorem exists_of_insert (h : t.insert parent name n = .ok (t', old)) :
    isEntryName name = true ∧ ∃ es, t.root.get? (Path.segments parent) = some (.directory es) ∧
      t' = ⟨t.root.alter (fun _ => .directory (NameTable.insert name n es))
        (Path.segments parent)⟩ := by
  obtain ⟨hn, es, he, ht, -⟩ := insert_eq_ok_iff.1 h
  exact ⟨hn, es, he, ht⟩

/-- **Putting a node in succeeds** under an entry name in a directory. -/
theorem exists_insert_eq_ok (hn : isEntryName name = true) (hp : t.isDirectory parent = true)
    (n : Node) : ∃ t' old, t.insert parent name n = .ok (t', old) := by
  obtain ⟨es, he⟩ := isDirectory_iff.1 hp
  exact ⟨_, _, insert_eq_ok_iff.2 ⟨hn, es, he, rfl, rfl⟩⟩

/-- **What was put in is found** under its name. -/
theorem get?_insert (h : t.insert parent name n = .ok (t', old)) :
    t'.root.get? (Path.segments parent ++ [name]) = some n := by
  obtain ⟨-, es, he, rfl⟩ := exists_of_insert h
  rw [Node.get?_alter_append, he, Option.bind_some, Node.get?_directory_cons,
    NameTable.find?_insert, if_pos rfl, Option.bind_some, Node.get?_nil]

theorem get?_directory_insert {k : String} (hk : name ≠ k) (n : Node) (es : NameTable Node)
    (ks : List String) :
    (Node.directory (NameTable.insert name n es)).get? (k :: ks) =
      (Node.directory es).get? (k :: ks) := by
  rw [Node.get?_directory_cons, Node.get?_directory_cons, NameTable.find?_insert, if_neg hk]

/-- **Elsewhere everything looks as before.** -/
theorem face?_insert (h : t.insert parent name n = .ok (t', old))
    (hk : ¬Path.segments parent ++ [name] <+: ks) : t'.root.face? ks = t.root.face? ks := by
  obtain ⟨-, es, he, rfl⟩ := exists_of_insert h
  by_cases hp : Path.segments parent <+: ks
  · obtain ⟨rest, rfl⟩ := hp
    rw [Node.face?, Node.face?, Node.get?_alter_append, Node.get?_append, he, Option.bind_some,
      Option.bind_some]
    cases rest with
    | nil => simp
    | cons k rest =>
      have hne : name ≠ k := by
        rintro rfl
        exact hk ⟨rest, by simp⟩
      rw [get?_directory_insert hne]
  · exact Node.face?_alter _ _ hp

/-- **What is seen after a file was put in**: the file in its place, nothing below it, and all else
as before. -/
theorem face?_insert_file {c : String} (h : t.insert parent name (.file c) = .ok (t', old))
    (ks : List String) :
    t'.root.face? ks =
      if ks = Path.segments parent ++ [name] then some ⟨.file, some c⟩
      else if Path.segments parent ++ [name] <+: ks then none else t.root.face? ks := by
  by_cases hp : Path.segments parent ++ [name] <+: ks
  · obtain ⟨rest, rfl⟩ := hp
    rw [Node.face?, Node.get?_append, get?_insert h, Option.bind_some]
    cases rest with
    | nil => simp
    | cons k rest => simp
  · have hk : ks ≠ Path.segments parent ++ [name] := fun hk => hp (hk ▸ List.prefix_refl _)
    rw [if_neg hk, if_neg hp, face?_insert h hp]

end Insert

/-! ## Taking an entry out -/

/-- **Taking a node out succeeds** where its directory has an entry under its name, and changes that
directory. -/
theorem remove_eq_ok_iff :
    t.remove path = .ok (t', n) ↔
      ∃ parent name es, Path.splitParent path = some (parent, name) ∧
        t.root.get? (Path.segments parent) = some (.directory es) ∧
        NameTable.find? name es = some n ∧
        t' = ⟨t.root.alter (fun _ => .directory (NameTable.erase name es))
          (Path.segments parent)⟩ := by
  rw [remove]
  rcases hsp : Path.splitParent path with _ | ⟨parent, name⟩
  · simp
  · rcases hg : t.root.get? (Path.segments parent) with _ | c | es
    · simp [hg]
    · simp [hg]
    · rcases hf : NameTable.find? name es with _ | m
      · simp [hg, hf]
      · simp [hg, hf, eq_comm, and_comm]

/-- **What taking a node out does** where it succeeds. -/
theorem exists_of_remove (h : t.remove path = .ok (t', n)) :
    ∃ parent name es, Path.splitParent path = some (parent, name) ∧
      t.root.get? (Path.segments parent) = some (.directory es) ∧
      t' = ⟨t.root.alter (fun _ => .directory (NameTable.erase name es))
        (Path.segments parent)⟩ := by
  obtain ⟨parent, name, es, hsp, hg, -, ht⟩ := remove_eq_ok_iff.1 h
  exact ⟨parent, name, es, hsp, hg, ht⟩

/-! ## Writing a file -/

section WriteFile

variable {c : String}

/-- **What writing a file does.** The root cannot be written. Otherwise the directories above the
file are made, and the file is put in unless that fails or a directory is found at the path as it is
written. -/
theorem writeFile_cases (t : Tree) (path c : String) :
    (Path.splitParent path = none ∧ t.writeFile path c = (t, .error (.taken "/"))) ∨
      ∃ parent name, Path.splitParent path = some (parent, name) ∧
        let made := (t.createDirectories parent).1
        ((∃ e, t.writeFile path c = (made, .error e)) ∨
          (t.createDirectories parent).2 = .ok () ∧ made.isDirectory path = false ∧
            ∃ written old, made.insert parent name (.file c) = .ok (written, old) ∧
              t.writeFile path c = (written, .ok ())) := by
  cases hsp : Path.splitParent path with
  | none => exact .inl ⟨rfl, by rw [writeFile, hsp]⟩
  | some place =>
    obtain ⟨parent, name⟩ := place
    refine .inr ⟨parent, name, rfl, ?_⟩
    rw [writeFile, hsp]
    rcases hm : t.createDirectories parent with ⟨made, e | done⟩
    · exact .inl ⟨e, by simp [hm]⟩
    · cases hd : made.isDirectory path with
      | true => exact .inl ⟨.taken path, by simp [hm, hd]⟩
      | false =>
        cases hi : made.insert parent name (.file c) with
        | error e => exact .inl ⟨e, by simp [hm, hd, hi]⟩
        | ok r => exact .inr ⟨rfl, hd, r.1, r.2, hi, by simp [hm, hd, hi]⟩

/-- **Writing a file succeeds** if the directories above it can be made, no directory is found at
the path as it is written, and the file can be put in. -/
theorem writeFile_eq_ok {old : Option Node} (hsp : Path.splitParent path = some (parent, name))
    (hc : (t.createDirectories parent).2 = .ok ())
    (hd : (t.createDirectories parent).1.isDirectory path = false)
    (hi : (t.createDirectories parent).1.insert parent name (.file c) = .ok (t', old)) :
    t.writeFile path c = (t', .ok ()) := by
  rw [writeFile, hsp]
  rcases hm : t.createDirectories parent with ⟨made, outcome⟩
  rw [hm] at hc hd hi
  obtain rfl : outcome = .ok () := hc
  simp [hm, hd, hi]

/-- A file that is written with success has been put in. -/
theorem exists_of_writeFile (h : (t.writeFile path c).2 = .ok ()) :
    ∃ parent name old, Path.splitParent path = some (parent, name) ∧
      (t.createDirectories parent).2 = .ok () ∧
      (t.createDirectories parent).1.isDirectory path = false ∧
      (t.createDirectories parent).1.insert parent name (.file c) =
        .ok ((t.writeFile path c).1, old) := by
  rcases writeFile_cases t path c with
    ⟨-, he⟩ | ⟨parent, name, hsp, ⟨e, he⟩ | ⟨hc, hd, written, old, hi, he⟩⟩
  · rw [he] at h
    cases h
  · rw [he] at h
    cases h
  · exact ⟨parent, name, old, hsp, hc, hd, by rw [he, hi]⟩

end WriteFile

end AgentShell.Tree
