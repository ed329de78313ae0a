import AgentShell.Proofs.Tree.Paths
import AgentShell.Proofs.Tree.Write

/-!
# The order of the paths

The paths of a tree are listed depth first. So behind a path stand the paths that lead on from it,
all of them and nothing between them, and the entries of a directory stand in the order in which
reading the directory lists them, each with what is below it. What is listed are the paths in normal
form that lead somewhere.

## Main definitions

* `Path.IsEntryOf`: a path that is cut into a directory and the name of an entry

## Main results

* `Path.below_append`, `Path.resolve_append_entry`: paths that lead on, and the path of an entry
* `Tree.infix_paths`: a path and all that is below it, as a part of the list
* `Tree.WellFormed.mem_pathsBelow_lead_iff`: what is below a path
* `Tree.WellFormed.mem_directory_iff`: the entries of a directory are found one name further on
* `Tree.filter_pathsBelow`: the entries of a directory among all that is below it
* `Tree.paths_depth_first`: which paths are listed, and in which order
-/

namespace AgentShell

/-! ## Paths of entries -/

namespace Path

variable {s : String} {ss ks : List String}

theorem below_append (above : String) (hs : ss ≠ []) (hk : ks ≠ []) :
    below above (ss ++ ks) = below (below above ss) ks := by
  induction ss generalizing above with
  | nil => exact absurd rfl hs
  | cons s ss ih =>
    cases ss with
    | nil =>
      obtain ⟨k, ks, rfl⟩ := List.exists_cons_of_ne_nil hk
      rw [List.singleton_append, below_cons_cons, below_singleton]
    | cons t ss =>
      rw [List.cons_append, List.cons_append, below_cons_cons, below_cons_cons]
      exact ih _ (List.cons_ne_nil t ss)

/-- **The path of names below a directory.** -/
theorem below_lead (ss : List String) (hk : ks ≠ []) : below (lead ss) ks = render (ss ++ ks) := by
  cases ss with
  | nil =>
    obtain ⟨k, ks, rfl⟩ := List.exists_cons_of_ne_nil hk
    rfl
  | cons s ss =>
    rw [lead, render_cons, ← below_append "" (List.cons_ne_nil s ss) hk]
    rfl

/-- **The path that goes on to an entry** leads to the entry of the directory to which it leads
before. -/
theorem resolve_append_entry {a : String} (ha : a ≠ "") {name : String}
    (hn : isEntryName name = true) (cwd : String) :
    resolve cwd (a ++ "/" ++ name) = join (resolve cwd a) name := by
  have hs : ∀ s ∈ segments (resolve cwd a), isEntryName s = true :=
    fun _ => isEntryName_of_mem_segments_resolve
  rw [resolve_append_slash ha, segments_of_isSegment (isEntryName_iff.1 hn).1, List.foldl_cons,
    List.foldl_nil, enter_of_isEntryName hn, ← join_render_eq_render hs, render_segments_resolve]

/-- The path `q` is cut into the directory `d` and the name of an entry. -/
def IsEntryOf (d q : String) : Prop :=
  (splitParent q).map Prod.fst = some d

instance (d q : String) : Decidable (IsEntryOf d q) :=
  inferInstanceAs (Decidable (_ = _))

theorem isEntryOf_render_iff (hs : ∀ s ∈ ss, isEntryName s = true)
    (hk : ∀ k ∈ ks, isEntryName k = true) :
    IsEntryOf (render ss) (render ks) ↔ ∃ name, ks = ss ++ [name] := by
  rw [IsEntryOf, splitParent_render hk]
  rcases List.eq_nil_or_concat ks with rfl | ⟨init, last, rfl⟩
  · simp
  · rw [List.concat_eq_append] at hk ⊢
    have hinit : ∀ s ∈ init, isEntryName s = true := fun s hm => hk s (by simp [hm])
    simp only [List.getLast?_append, List.getLast?_singleton, Option.some_or, Option.map_some,
      List.dropLast_concat, Option.some.injEq]
    constructor
    · intro he
      rw [← segments_render_of_forall_isEntryName hinit, he,
        segments_render_of_forall_isEntryName hs]
      exact ⟨last, rfl⟩
    · rintro ⟨name, he⟩
      rw [(List.append_inj' he rfl).1]

end Path

namespace Tree

open AgentShell.Path (below lead segments)

variable {t : Tree} {n m : Node} {es : NameTable Node} {p q d s : String} {ss ks : List String}

/-! ## A node and what is below it -/

section Block

/-- An entry of a directory and all that is below it stand together. -/
theorem infix_pathsBelow_of_mem {e : String × Node} (above : String) (he : e ∈ es) :
    (above ++ "/" ++ e.1) :: pathsBelow (above ++ "/" ++ e.1) e.2 <:+:
      pathsBelow above (.directory es) := by
  obtain ⟨before, after, rfl⟩ := List.append_of_mem he
  rw [pathsBelow_directory, List.flatMap_append, List.flatMap_cons]
  exact ⟨_, _, List.append_assoc ..⟩

/-- **A path and all that is below it stand together** among the paths below a node. -/
theorem infix_pathsBelow (above : String) (h : n.get? (s :: ss) = some m) :
    below above (s :: ss) :: pathsBelow (below above (s :: ss)) m <:+: pathsBelow above n := by
  induction ss generalizing above n s with
  | nil =>
    cases n with
    | file c => cases h
    | directory es =>
      rw [Node.get?_directory_cons] at h
      obtain ⟨child, hc, hm⟩ := Option.bind_eq_some_iff.1 h
      obtain rfl := Option.some.inj ((Node.get?_nil child).symm.trans hm)
      rw [Path.below_singleton]
      exact infix_pathsBelow_of_mem above (NameTable.mem_of_find?_eq_some hc)
  | cons k ss ih =>
    cases n with
    | file c => cases h
    | directory es =>
      rw [Node.get?_directory_cons] at h
      obtain ⟨child, hc, hm⟩ := Option.bind_eq_some_iff.1 h
      have hblock := ih (above ++ "/" ++ s) hm
      rw [← Path.below_cons_cons] at hblock
      have hchild := List.suffix_cons (above ++ "/" ++ s) (pathsBelow (above ++ "/" ++ s) child)
      exact (hblock.trans hchild.isInfix).trans
        (infix_pathsBelow_of_mem above (NameTable.mem_of_find?_eq_some hc))

/-- **A path and all that is below it stand together** among the paths of a tree. -/
theorem infix_paths (h : t.root.get? ss = some m) :
    Path.render ss :: pathsBelow (lead ss) m <:+: t.paths := by
  cases ss with
  | nil =>
    obtain rfl := Option.some.inj ((Node.get?_nil t.root).symm.trans h)
    exact List.infix_refl _
  | cons s ss =>
    exact (infix_pathsBelow "" h).trans (List.suffix_cons "/" _).isInfix

end Block

/-! ## What is listed -/

section Members

/-- A listed path is rendered from its segments, and they lead somewhere. -/
theorem WellFormed.exists_of_mem_paths (hw : t.WellFormed) (hp : p ∈ t.paths) :
    p = Path.render (segments p) ∧ ∃ n, t.root.get? (segments p) = some n := by
  obtain ⟨ss, n, hg, rfl⟩ := hw.mem_paths_iff.1 hp
  rw [segments_render_of_get? hw.2 hg]
  exact ⟨rfl, n, hg⟩

/-- **The paths that are listed** are those in normal form at which there is something. -/
theorem WellFormed.mem_paths_iff_contains (hw : t.WellFormed) :
    p ∈ t.paths ↔ t.contains p = true ∧ Path.resolve "/" p = p := by
  rw [contains_iff_exists_lookup]
  simp only [lookup_eq_ok_iff]
  constructor
  · intro hp
    obtain ⟨hr, n, hg⟩ := hw.exists_of_mem_paths hp
    refine ⟨⟨n, hg⟩, ?_⟩
    rw [Path.resolve_root, Path.normalize_of_forall_isEntryName (hw.2.get? hg).1, ← hr]
  · rintro ⟨⟨n, hg⟩, hr⟩
    rw [Path.resolve_root, Path.normalize_of_forall_isEntryName (hw.2.get? hg).1] at hr
    exact hw.mem_paths_iff.2 ⟨_, n, hg, hr.symm⟩

/-- **What is below a path** are the listed paths that lead on from it. -/
theorem WellFormed.mem_pathsBelow_lead_iff (hw : t.WellFormed) (h : t.root.get? ss = some m) :
    q ∈ pathsBelow (lead ss) m ↔ q ∈ t.paths ∧ segments q ≠ ss ∧ ss <+: segments q := by
  rw [mem_pathsBelow_iff (hw.2.get? h).2]
  constructor
  · rintro ⟨k, ks, m', hg, rfl⟩
    have hgo : t.root.get? (ss ++ k :: ks) = some m' := by
      rw [Node.get?_append, h, Option.bind_some, hg]
    rw [Path.below_lead ss (List.cons_ne_nil k ks), segments_render_of_get? hw.2 hgo]
    exact ⟨hw.mem_paths_iff.2 ⟨_, m', hgo, rfl⟩, by simp, List.prefix_append _ _⟩
  · rintro ⟨hq, hne, rest, hrest⟩
    obtain ⟨hr, n, hg⟩ := hw.exists_of_mem_paths hq
    rw [← hrest] at hg hne
    cases rest with
    | nil => exact absurd (List.append_nil ss) hne
    | cons k ks =>
      rw [Node.get?_append, h, Option.bind_some] at hg
      refine ⟨k, ks, n, hg, ?_⟩
      rw [Path.below_lead ss (List.cons_ne_nil k ks), hrest, ← hr]

end Members

/-! ## The entries of one directory -/

section Entries

theorem WellFormed.pairwise_names (hw : t.WellFormed) (h : t.lookup d = .ok (.directory es)) :
    es.Pairwise fun a b => Text.octets a.1 < Text.octets b.1 := by
  obtain ⟨ho, -⟩ := (wellFormed_iff.1 hw).2 _ es (lookup_eq_ok_iff.1 h)
  rwa [NameTable.names, List.pairwise_map] at ho

/-- **The entries of a directory** are what is found one name further on. -/
theorem WellFormed.mem_directory_iff (hw : t.WellFormed) (h : t.lookup d = .ok (.directory es))
    {name : String} :
    (name, n) ∈ es ↔ isEntryName name = true ∧ t.lookup (Path.join d name) = .ok n := by
  rw [lookup_eq_ok_iff] at h
  obtain ⟨hs, he⟩ := Node.wellFormed_directory_iff.1 (hw.2.get? h).2
  have hfind (hn : isEntryName name = true) :
      t.lookup (Path.join d name) = .ok n ↔ (name, n) ∈ es := by
    rw [lookup_eq_ok_iff, Path.segments_join_of_isEntryName hn, Node.get?_append, h,
      Option.bind_some, Node.get?_directory_cons, ← hs.find?_eq_some_iff]
    cases NameTable.find? name es <;> simp
  constructor
  · intro hm
    have hn := (he _ hm).1
    exact ⟨hn, (hfind hn).2 hm⟩
  · rintro ⟨hn, hl⟩
    exact (hfind hn).1 hl

/-- **The entries of a directory** are listed in order among all that is below it. -/
theorem filter_pathsBelow (hd : (Node.directory es).WellFormed)
    (hs : ∀ s ∈ ss, isEntryName s = true) :
    (pathsBelow (lead ss) (.directory es)).filter (fun q => Path.IsEntryOf (Path.render ss) q) =
      es.map fun e => lead ss ++ "/" ++ e.1 := by
  obtain ⟨-, he⟩ := Node.wellFormed_directory_iff.1 hd
  have hentry (e : String × Node) (hm : e ∈ es) :
      ((lead ss ++ "/" ++ e.1) :: pathsBelow (lead ss ++ "/" ++ e.1) e.2).filter
        (fun q => Path.IsEntryOf (Path.render ss) q) = [lead ss ++ "/" ++ e.1] := by
    obtain ⟨hname, hnode⟩ := he e hm
    have hpath : lead ss ++ "/" ++ e.1 = Path.render (ss ++ [e.1]) := by
      rw [← Path.below_lead ss (by simp), Path.below_singleton]
    have hss : ∀ s ∈ ss ++ [e.1], isEntryName s = true := by
      simpa [or_imp, forall_and] using ⟨hs, hname⟩
    have hlead : lead (ss ++ [e.1]) = Path.render (ss ++ [e.1]) := Path.lead_of_ne_nil (by simp)
    rw [hpath, List.filter_cons_of_pos, List.filter_eq_nil_iff.2]
    · intro q hq
      rw [← hlead] at hq
      obtain ⟨k, ks, m, hg, rfl⟩ := (mem_pathsBelow_iff hnode _).1 hq
      rw [Path.below_lead _ (List.cons_ne_nil k ks), decide_eq_true_eq,
        Path.isEntryOf_render_iff hs]
      · rintro ⟨name, hk⟩
        simpa using congrArg List.length hk
      · exact List.forall_mem_append.2 ⟨hss, (hnode.get? hg).1⟩
    · rw [decide_eq_true_eq, Path.isEntryOf_render_iff hs hss]
      exact ⟨e.1, rfl⟩
  rw [pathsBelow_directory, List.filter_flatMap, List.flatMap_congr hentry, List.map_eq_flatMap]

/-- **The entries of a directory** are listed in order among the paths of a tree. -/
theorem WellFormed.filter_paths (hw : t.WellFormed) (h : t.root.get? ss = some (.directory es)) :
    t.paths.filter (fun q => Path.IsEntryOf (Path.render ss) q) =
      es.map fun e => lead ss ++ "/" ++ e.1 := by
  obtain ⟨hs, hd⟩ := hw.2.get? h
  obtain ⟨before, after, hl⟩ := infix_paths h
  have hentry {q : String} (hq : q ∈ t.paths) (he : Path.IsEntryOf (Path.render ss) q) :
      q ∈ pathsBelow (lead ss) (.directory es) := by
    obtain ⟨hr, n, hg⟩ := hw.exists_of_mem_paths hq
    rw [hr, Path.isEntryOf_render_iff hs (hw.2.get? hg).1] at he
    obtain ⟨name, hk⟩ := he
    exact (hw.mem_pathsBelow_lead_iff h).2 ⟨hq, by simp [hk], hk ▸ List.prefix_append _ _⟩
  have hnodup := hw.nodup_paths
  rw [← hl, List.append_assoc, List.nodup_append'] at hnodup
  obtain ⟨-, hrest, hbefore⟩ := hnodup
  obtain ⟨hblock, -, hafter⟩ := List.nodup_append'.1 hrest
  have hself : Path.render ss ∉ pathsBelow (lead ss) (.directory es) := (List.nodup_cons.1 hblock).1
  have hroot : Path.render ss ∈ t.paths := hl ▸ by simp
  rw [← hl, List.filter_append, List.filter_append, List.filter_cons_of_neg,
    filter_pathsBelow hd hs, List.filter_eq_nil_iff.2, List.filter_eq_nil_iff.2, List.nil_append,
    List.append_nil]
  · intro q hq he
    have hm := hentry (hl ▸ List.mem_append_right _ hq) (of_decide_eq_true he)
    exact hafter (List.mem_cons_of_mem _ hm) hq
  · intro q hq he
    have hm := hentry (hl ▸ by simp [hq]) (of_decide_eq_true he)
    exact hbefore hq (List.mem_append_left _ (List.mem_cons_of_mem _ hm))
  · intro he
    exact hself (hentry hroot (of_decide_eq_true he))

end Entries

/-- **The paths of a tree are listed depth first.** Each is listed once, the root in front, and what
is listed are the paths in normal form at which there is something. A path is followed by what is
below it, all of it and nothing else in between; and the entries of a directory are listed in the
order in which they are read. -/
theorem paths_depth_first {t : Tree} (hw : t.WellFormed) :
    (t.paths.Nodup ∧ t.paths.head? = some "/") ∧
    (∀ p, p ∈ t.paths ↔ t.contains p = true ∧ Path.resolve "/" p = p) ∧
    (∀ d ∈ t.paths, ∃ below, d :: below <:+: t.paths ∧
      ∀ q, q ∈ below ↔ q ∈ t.paths ∧ q ≠ d ∧ Path.segments d <+: Path.segments q) ∧
    ∀ d ∈ t.paths, ∀ entries, t.entriesAt d = .ok entries →
      t.paths.filter (fun q => Path.IsEntryOf d q) = entries.map fun e => Path.join d e.name := by
  refine ⟨⟨hw.nodup_paths, rfl⟩, fun p => hw.mem_paths_iff_contains, ?_, ?_⟩
  · intro d hd
    obtain ⟨hr, m, hg⟩ := hw.exists_of_mem_paths hd
    refine ⟨pathsBelow (lead (segments d)) m, ?_, ?_⟩
    · have hblock := infix_paths hg
      rwa [← hr] at hblock
    · intro q
      rw [hw.mem_pathsBelow_lead_iff hg]
      refine and_congr_right fun hq => and_congr_left fun _ => not_congr ⟨?_, congrArg segments⟩
      intro he
      rw [(hw.exists_of_mem_paths hq).1, he, ← hr]
  · intro d hd entries he
    obtain ⟨hr, -⟩ := hw.exists_of_mem_paths hd
    obtain ⟨es, hg, rfl⟩ := entriesAt_eq_ok_iff.1 he
    have hfilter := hw.filter_paths hg
    rw [← hr] at hfilter
    rw [hfilter, List.map_map]
    refine List.map_congr_left fun e _ => ?_
    have hj := Path.join_render (hw.2.get? hg).1 e.1
    rw [← hr] at hj
    exact hj.symm

/-- In a tree with a directory beside a file, what is below the directory `/a` stands together, and
its entries stand in order with what is below them in between. -/
theorem paths_depth_first_of_two_directories :
    let t := empty.changeAll [.writeFile "/b" "x", .writeFile "/a/d/f" "y", .writeFile "/a/e" "z"]
    t.WellFormed ∧ t.paths = ["/", "/a", "/a/d", "/a/d/f", "/a/e", "/b"] ∧
      (∃ below, "/a" :: below <:+: t.paths ∧ "/a/d/f" ∈ below ∧ "/b" ∉ below) ∧
      t.paths.filter (fun q => Path.IsEntryOf "/a" q) = ["/a/d", "/a/e"] := by
  intro t
  have hw : t.WellFormed := wellFormed_empty.changeAll (by simp [Change.Sound])
  have hp : t.paths = ["/", "/a", "/a/d", "/a/d/f", "/a/e", "/b"] := by decide +kernel
  obtain ⟨-, -, hblock, hentries⟩ := paths_depth_first hw
  have ha : "/a" ∈ t.paths := by simp [hp]
  obtain ⟨below, hinfix, hbelow⟩ := hblock "/a" ha
  refine ⟨hw, hp, ⟨below, hinfix, ?_, ?_⟩, ?_⟩
  · exact (hbelow _).2 ⟨by simp [hp], by decide, by decide⟩
  · exact fun hb => absurd ((hbelow _).1 hb).2.2 (by decide)
  · exact hentries "/a" ha [⟨"d", .directory⟩, ⟨"e", .file⟩] (by decide +kernel)

end Tree

end AgentShell
