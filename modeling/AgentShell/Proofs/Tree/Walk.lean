import AgentShell.Proofs.NameTable
import AgentShell.Tree.Node

/-!
# Walking through a node

A list of names leads from a node to a node below it, or nowhere. A change at the end of one list of
names is seen at the ends of the lists that go on from there, and at no other: a directory that is
walked through stays a directory. Nodes that are well-formed stay so under a change, and all that
there is to such a node is what is seen at the ends of all lists.

## Main definitions

* `Node.Face`, `Node.face`: what is seen of a node from outside
* `Node.face?`: what is seen at the end of a list of names

## Main results

* `Node.get?_append`: walking on
* `Node.get?_alter_append`, `Node.face?_alter`: a change, seen from its place on and from elsewhere
* `Node.get?_alter_of_append`, `Node.get?_alter_of_not_prefix`: a change, seen on the way to its
  place and from aside
* `Node.alter_alter`, `Node.WellFormed.alter_eq_self`: two changes at one place, and none
* `Node.wellFormed_directory_iff`, `Node.WellFormed.get?`, `Node.WellFormed.alter`: well-formedness
  of a directory, of what is below a node, and of a changed node
* `Node.WellFormed.ext`: a well-formed node is determined by what is seen in it
-/

namespace AgentShell.Node

/-! ## What is seen of a node -/

/-- What is seen of a node from outside: its kind, and its content if it is a file. -/
structure Face where
  kind : Kind
  content : Option String
deriving DecidableEq, Repr

/-- What is seen of a node. -/
def face (n : Node) : Face :=
  ⟨n.kind, n.content?⟩

/-- What is seen at the end of a list of names; nothing where it leads nowhere. -/
def face? (n : Node) (ss : List String) : Option Face :=
  (n.get? ss).map face

variable {m n : Node} {f : Node → Node} {es : NameTable Node} {ss ks : List String} {s : String}

@[simp] theorem face_file (c : String) : (file c).face = ⟨.file, some c⟩ := rfl

@[simp] theorem face_directory (es : NameTable Node) :
    (directory es).face = ⟨.directory, none⟩ := rfl

theorem isDirectory_iff_face : n.isDirectory = true ↔ n.face = ⟨.directory, none⟩ := by
  cases n <;> simp [isDirectory, kind]

theorem isDirectory_iff_exists : n.isDirectory = true ↔ ∃ es, n = directory es := by
  cases n <;> simp [isDirectory, kind]

/-! ## Walking down -/

section Walk

@[simp] theorem get?_nil (n : Node) : n.get? [] = some n := by
  cases n <;> rfl

@[simp] theorem get?_file_cons (c s : String) (ss : List String) :
    (file c).get? (s :: ss) = none := rfl

theorem get?_directory_cons (es : NameTable Node) (s : String) (ss : List String) :
    (directory es).get? (s :: ss) = (NameTable.find? s es).bind fun m => m.get? ss := by
  rw [get?]
  cases NameTable.find? s es <;> rfl

/-- **Walking on** from where a list of names leads. -/
theorem get?_append (n : Node) (ss ks : List String) :
    n.get? (ss ++ ks) = (n.get? ss).bind fun m => m.get? ks := by
  induction ss generalizing n with
  | nil => simp
  | cons s ss ih =>
    cases n with
    | file c => rfl
    | directory es =>
      rw [List.cons_append, get?_directory_cons, get?_directory_cons, Option.bind_assoc]
      exact congrArg _ (funext fun m => ih m)

@[simp] theorem face?_nil (n : Node) : n.face? [] = some n.face := by
  simp [face?]

theorem face?_directory_cons (es : NameTable Node) (s : String) (ss : List String) :
    (directory es).face? (s :: ss) = (NameTable.find? s es).bind fun m => m.face? ss := by
  rw [face?, get?_directory_cons, Option.map_bind]
  rfl

theorem isDirectory_of_get?_append (h : n.get? (ss ++ s :: ks) = some m) :
    ∃ es, n.get? ss = some (directory es) := by
  rw [get?_append] at h
  obtain ⟨d, hd, hm⟩ := Option.bind_eq_some_iff.1 h
  cases d with
  | file c => cases hm
  | directory es => exact ⟨es, hd⟩

end Walk

/-! ## Changes at one place -/

section Alter

@[simp] theorem alter_nil (f : Node → Node) (n : Node) : n.alter f [] = f n := by
  cases n <;> rfl

theorem alter_directory_cons (f : Node → Node) (es : NameTable Node) (s : String)
    (ss : List String) :
    (directory es).alter f (s :: ss) =
      directory ((NameTable.find? s es).elim es fun m => NameTable.insert s (m.alter f ss) es) := by
  rw [alter]
  cases NameTable.find? s es <;> rfl

/-- **A change, seen from its place on.** -/
theorem get?_alter_append (f : Node → Node) (n : Node) (ss ks : List String) :
    (n.alter f ss).get? (ss ++ ks) = (n.get? ss).bind fun m => (f m).get? ks := by
  induction ss generalizing n with
  | nil => simp
  | cons s ss ih =>
    cases n with
    | file c => rfl
    | directory es =>
      rw [alter_directory_cons, List.cons_append, get?_directory_cons, get?_directory_cons]
      cases hs : NameTable.find? s es with
      | none => simp [hs]
      | some m => simpa [NameTable.find?_insert] using ih m

theorem get?_alter_self (f : Node → Node) {n m : Node} {ss : List String}
    (h : n.get? ss = some m) : (n.alter f ss).get? ss = some (f m) := by
  have ha := get?_alter_append f n ss []
  rwa [List.append_nil, h, Option.bind_some, get?_nil] at ha

/-- **A change, seen from elsewhere**: where a list of names does not lead to the place of the
change or beyond, everything looks as before. -/
theorem face?_alter (f : Node → Node) (n : Node) (h : ¬ss <+: ks) :
    (n.alter f ss).face? ks = n.face? ks := by
  induction ss generalizing n ks with
  | nil => exact absurd (List.nil_prefix) h
  | cons s ss ih =>
    cases n with
    | file c => rfl
    | directory es =>
      rw [alter_directory_cons]
      cases ks with
      | nil => simp
      | cons k ks =>
        simp only [face?_directory_cons]
        cases hs : NameTable.find? s es with
        | none => rfl
        | some m =>
          simp only [Option.elim_some, NameTable.find?_insert]
          by_cases hk : s = k
          · subst hk
            have hks : ¬ss <+: ks := fun hp => h (List.cons_prefix_cons.2 ⟨rfl, hp⟩)
            simpa [hs] using ih m hks
          · rw [if_neg hk]

/-- **A change, seen on the way to its place**: what is walked through is changed further on. -/
theorem get?_alter_of_append (f : Node → Node) (n : Node) (ks ss : List String) :
    (n.alter f (ks ++ ss)).get? ks = (n.get? ks).map fun m => m.alter f ss := by
  induction ks generalizing n with
  | nil => simp
  | cons k ks ih =>
    cases n with
    | file c => rfl
    | directory es =>
      rw [List.cons_append, alter_directory_cons, get?_directory_cons, get?_directory_cons]
      cases hk : NameTable.find? k es with
      | none => simp [hk]
      | some m => simpa [NameTable.find?_insert] using ih m

/-- **A change, seen from aside**: off the way to its place, the nodes are the same. -/
theorem get?_alter_of_not_prefix (f : Node → Node) (n : Node) (h : ¬ss <+: ks) (h' : ¬ks <+: ss) :
    (n.alter f ss).get? ks = n.get? ks := by
  induction ss generalizing n ks with
  | nil => exact absurd List.nil_prefix h
  | cons s ss ih =>
    cases n with
    | file c => rfl
    | directory es =>
      cases ks with
      | nil => exact absurd List.nil_prefix h'
      | cons k ks =>
        rw [alter_directory_cons, get?_directory_cons, get?_directory_cons]
        cases hs : NameTable.find? s es with
        | none => rfl
        | some m =>
          rw [Option.elim_some, NameTable.find?_insert]
          by_cases hk : s = k
          · subst hk
            rw [List.cons_prefix_cons, and_iff_right rfl] at h h'
            simpa [hs] using ih m h h'
          · rw [if_neg hk]

theorem alter_alter (f g : Node → Node) (n : Node) (ss : List String) :
    (n.alter f ss).alter g ss = n.alter (fun m => g (f m)) ss := by
  induction ss generalizing n with
  | nil => simp
  | cons s ss ih =>
    cases n with
    | file c => rfl
    | directory es =>
      rw [alter_directory_cons, alter_directory_cons, alter_directory_cons]
      cases hs : NameTable.find? s es with
      | none => simp [hs]
      | some m =>
        simp only [Option.elim_some, NameTable.find?_insert, if_pos, NameTable.insert_insert, ih m]

end Alter

/-! ## Well-formed nodes -/

section WellFormed

/-- **A directory is well-formed** if its names are entry names in order and what they name is
well-formed. -/
theorem wellFormed_directory_iff :
    WellFormed (.directory es) ↔
      es.Sorted ∧ ∀ e ∈ es, isEntryName e.1 = true ∧ WellFormed e.2 := by
  refine ⟨?_, ?_⟩
  · rintro (_ | ⟨hs, hn, hw⟩)
    exact ⟨hs, fun e he => ⟨hn e he, hw e he⟩⟩
  · rintro ⟨hs, he⟩
    exact .directory hs (fun e h => (he e h).1) (fun e h => (he e h).2)

theorem WellFormed.of_find? (h : WellFormed (.directory es)) (hs : NameTable.find? s es = some m) :
    isEntryName s = true ∧ m.WellFormed :=
  (wellFormed_directory_iff.1 h).2 _ (NameTable.mem_of_find?_eq_some hs)

theorem WellFormed.get? (h : n.WellFormed) (hm : n.get? ss = some m) :
    (∀ s ∈ ss, isEntryName s = true) ∧ m.WellFormed := by
  induction ss generalizing n with
  | nil =>
    rw [get?_nil] at hm
    obtain rfl := Option.some.inj hm
    exact ⟨by simp, h⟩
  | cons s ss ih =>
    cases n with
    | file c => cases hm
    | directory es =>
      rw [get?_directory_cons] at hm
      obtain ⟨child, hc, hm⟩ := Option.bind_eq_some_iff.1 hm
      obtain ⟨hs, hw⟩ := h.of_find? hc
      obtain ⟨hss, hwm⟩ := ih hw hm
      exact ⟨List.forall_mem_cons.2 ⟨hs, hss⟩, hwm⟩

theorem WellFormed.insert (h : WellFormed (.directory es)) (hs : isEntryName s = true)
    (hm : m.WellFormed) : WellFormed (.directory (NameTable.insert s m es)) := by
  obtain ⟨ho, he⟩ := wellFormed_directory_iff.1 h
  refine wellFormed_directory_iff.2 ⟨ho.insert s m, ?_⟩
  intro e hin
  rcases NameTable.mem_insert hin with rfl | hin
  · exact ⟨hs, hm⟩
  · exact he e hin

theorem WellFormed.erase (h : WellFormed (.directory es)) (s : String) :
    WellFormed (.directory (NameTable.erase s es)) := by
  obtain ⟨ho, he⟩ := wellFormed_directory_iff.1 h
  exact wellFormed_directory_iff.2 ⟨ho.erase s, fun e hin => he e (List.mem_filter.1 hin).1⟩

/-- **A well-formed node stays so under a change** that keeps what it changes well-formed. -/
theorem WellFormed.alter (h : n.WellFormed)
    (hf : ∀ m, n.get? ss = some m → m.WellFormed → (f m).WellFormed) :
    (n.alter f ss).WellFormed := by
  induction ss generalizing n with
  | nil => simpa using hf n (get?_nil n) h
  | cons s ss ih =>
    cases n with
    | file c => exact h
    | directory es =>
      rw [alter_directory_cons]
      cases hs : NameTable.find? s es with
      | none => exact h
      | some child =>
        obtain ⟨hn, hw⟩ := h.of_find? hs
        refine h.insert hn (ih hw fun m hm => hf m ?_)
        rw [get?_directory_cons, hs]
        exact hm

/-- A change of a well-formed node that leaves what it changes as it is changes nothing. -/
theorem WellFormed.alter_eq_self (h : n.WellFormed) (hm : n.get? ss = some m) (hf : f m = m) :
    n.alter f ss = n := by
  induction ss generalizing n with
  | nil =>
    rw [get?_nil] at hm
    obtain rfl := Option.some.inj hm
    rw [alter_nil, hf]
  | cons s ss ih =>
    cases n with
    | file c => rfl
    | directory es =>
      rw [get?_directory_cons] at hm
      obtain ⟨child, hc, hm⟩ := Option.bind_eq_some_iff.1 hm
      rw [alter_directory_cons, hc, Option.elim_some, ih (h.of_find? hc).2 hm,
        (wellFormed_directory_iff.1 h).1.insert_of_find? hc]

/-- **A well-formed node is determined by what is seen in it.** -/
theorem WellFormed.ext (hm : m.WellFormed) (hn : n.WellFormed)
    (h : ∀ ss, m.face? ss = n.face? ss) : m = n := by
  -- Induction on the first node: the second has its kind, and the same names in order.
  induction hm generalizing n with
  | file c =>
    have h₀ := h []
    cases n with
    | file d => simpa using h₀
    | directory fs => simp at h₀
  | @directory es hs hnm hw ih =>
    have h₀ := h []
    cases n with
    | file d => simp at h₀
    | directory fs =>
      obtain ⟨hfs, hf⟩ := wellFormed_directory_iff.1 hn
      refine congrArg Node.directory (hs.ext hfs fun s => ?_)
      have hbelow (ss : List String) :
          (NameTable.find? s es).bind (face? · ss) = (NameTable.find? s fs).bind (face? · ss) := by
        simpa only [face?_directory_cons] using h (s :: ss)
      cases he : NameTable.find? s es with
      | none =>
        cases hg : NameTable.find? s fs with
        | none => rfl
        | some d => simpa [he, hg] using hbelow []
      | some c =>
        cases hg : NameTable.find? s fs with
        | none => simpa [he, hg] using hbelow []
        | some d =>
          have hc := NameTable.mem_of_find?_eq_some he
          have hd := (hf _ (NameTable.mem_of_find?_eq_some hg)).2
          have hcd : c = d := ih _ hc hd fun ss => by simpa [he, hg] using hbelow ss
          rw [hcd]

end WellFormed

end AgentShell.Node
