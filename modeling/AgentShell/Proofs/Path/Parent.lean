import AgentShell.Proofs.Path.Canonical
import AgentShell.Tree.Basic
import Mathlib.Data.List.DropRight

/-!
# The directory above a path

A path other than the root has a directory above it and a last name: its normal form is cut at the
last slash, and what is in front of that slash is the directory, or the root if nothing is. Joining
the two gives back the normal form, and a directory in normal form and a name that are joined are
cut into just these again.

## Main definitions

* `Path.lead`: what stands in front of the names of the entries of a directory

## Main results

* `Path.segments_join`, `Path.join_render`, `Path.join_render_eq_render`: a directory and a name put
  together
* `Path.splitParent_eq_some_iff`, `Path.splitParent_eq_none_iff`: the directory above a path, by the
  names in its normal form, and the path that has none
* `Path.splitParent_eq_some_iff_last_slash`: the same by the last slash
* `Path.segments_of_splitParent`, `Path.splitParent_join`: the segments of what is cut, and what was
  joined before it is cut
* `Path.join_undoes_splitParent`: cutting and joining
-/

namespace AgentShell

theorem checkEntryName_eq_ok_iff {s : String} :
    checkEntryName s = .ok () ↔ isEntryName s = true := by
  rw [checkEntryName]
  split <;> simp_all

namespace Path

variable {p dir name s : String} {ss : List String}

/-! ## Paths of names -/

/-- What stands in front of the names of the entries of a directory: the path of the directory, but
nothing for the root. -/
def lead : List String → String
  | [] => ""
  | s :: ss => render (s :: ss)

theorem lead_of_ne_nil (h : ss ≠ []) : lead ss = render ss := by
  cases ss with
  | nil => exact absurd rfl h
  | cons s ss => rfl

/-- **The last name of a rendered path** stands behind a slash. -/
theorem render_concat (ss : List String) (s : String) :
    render (ss ++ [s]) = lead ss ++ "/" ++ s := by
  cases ss with
  | nil => rfl
  | cons t ss =>
    have hi : "/".intercalate (t :: ss ++ [s]) = "/".intercalate (t :: ss) ++ "/" ++ s := by
      rw [String.intercalate_append_of_ne_nil (List.cons_ne_nil t ss) (List.cons_ne_nil s []),
        String.intercalate_singleton]
    show "/" ++ "/".intercalate (t :: ss ++ [s]) = "/" ++ "/".intercalate (t :: ss) ++ "/" ++ s
    rw [hi, ← String.append_assoc, ← String.append_assoc]

theorem render_eq_slash_iff (h : ∀ s ∈ ss, isEntryName s = true) : render ss = "/" ↔ ss = [] := by
  refine ⟨fun he => ?_, fun he => he ▸ rfl⟩
  rw [← segments_render_of_forall_isEntryName h, he, segments_slash]

/-! ## A name behind a path -/

section Join

theorem segments_trimSlashes (p : String) : segments (trimSlashes p) = segments p := by
  suffices h : ∀ cs : List Char,
      segments (String.ofList (cs.rdropWhile (· == '/'))) = segments (String.ofList cs) by
    have hp := h p.toList
    rwa [String.ofList_toList] at hp
  -- Induction from the end of the text: a slash there is taken off, and anything else stays.
  intro cs
  induction cs using List.reverseRecOn with
  | nil => rfl
  | append_singleton cs c ih =>
    by_cases hc : c = '/'
    · have hs : String.ofList (cs ++ [c]) = String.ofList cs ++ "/" ++ "" := by
        rw [hc, String.ofList_append, String.append_empty]
      rw [List.rdropWhile_concat_pos _ _ _ (by simp [hc]), ih, hs, segments_append_slash,
        segments_empty, List.append_nil]
    · rw [List.rdropWhile_concat_neg _ _ _ (by simp [hc])]

/-- **The segments of a directory and a name** put together. -/
theorem segments_join (dir name : String) :
    segments (join dir name) = segments dir ++ segments name := by
  rw [join]
  split_ifs with hd
  · rw [segments_slash_append, hd, segments_slash, List.nil_append]
  · rw [segments_append_slash, segments_trimSlashes]

theorem segments_join_of_isEntryName {name : String} (hn : isEntryName name = true)
    (dir : String) : segments (join dir name) = segments dir ++ [name] := by
  rw [segments_join, segments_of_isSegment (isEntryName_iff.1 hn).1]

/-- A path that ends with a segment ends with no slash. -/
theorem trimSlashes_append (above : String) (h : IsSegment s) :
    trimSlashes (above ++ s) = above ++ s := by
  have hs : s.toList ≠ [] := fun he => h.1 (String.toList_inj.1 he)
  have ht : (above ++ s).toList = above.toList ++ s.toList := String.toList_append
  show String.ofList ((above ++ s).toList.rdropWhile (· == '/')) = _
  rw [List.rdropWhile_eq_self_iff.2, String.ofList_toList]
  intro hne hlast
  simp only [ht, List.getLast_append_of_ne_nil _ hs, beq_iff_eq] at hlast
  exact h.2 (hlast ▸ List.getLast_mem hs)

/-- **The path of an entry**: its directory and its name are joined. -/
theorem join_render (h : ∀ s ∈ ss, isEntryName s = true) (name : String) :
    join (render ss) name = lead ss ++ "/" ++ name := by
  rcases List.eq_nil_or_concat ss with rfl | ⟨init, last, rfl⟩
  · rfl
  · rw [List.concat_eq_append] at h ⊢
    have hl : IsSegment last := (isEntryName_iff.1 (h last (by simp))).1
    have hroot : render (init ++ [last]) ≠ "/" := by simp [render_eq_slash_iff h]
    have htrim : trimSlashes (render (init ++ [last])) = render (init ++ [last]) := by
      rw [render_concat, trimSlashes_append _ hl]
    rw [join, if_neg hroot, htrim, lead_of_ne_nil (by simp)]

theorem join_render_eq_render (h : ∀ s ∈ ss, isEntryName s = true) (name : String) :
    join (render ss) name = render (ss ++ [name]) := by
  rw [join_render h, render_concat]

end Join

/-! ## Cutting off the last name -/

section SplitParent

/-- The normal form of a path is cut as the path is. -/
theorem splitParent_resolve (path : String) :
    splitParent (resolve "/" path) = splitParent path := by
  have hn : normalize (normalize (segments path)) = normalize (segments path) :=
    normalize_of_forall_isEntryName fun _ => isEntryName_of_mem_normalize_segments
  rw [splitParent, splitParent, segments_resolve_root, hn]

theorem splitParent_render (h : ∀ s ∈ ss, isEntryName s = true) :
    splitParent (render ss) = ss.getLast?.map fun name => (render ss.dropLast, name) := by
  rw [splitParent, segments_render_of_forall_isEntryName h, normalize_of_forall_isEntryName h]

/-- **The directory above a path**: its normal form is rendered from the names of the directory and
one more. -/
theorem splitParent_eq_some_iff :
    splitParent p = some (dir, name) ↔ ∃ ss, (∀ s ∈ ss ++ [name], isEntryName s = true) ∧
      resolve "/" p = render (ss ++ [name]) ∧ dir = render ss := by
  constructor
  · intro h
    obtain ⟨last, hl, he⟩ := Option.map_eq_some_iff.1 h
    obtain ⟨rfl, rfl⟩ := Prod.mk.inj he
    have hs : normalize (segments p) = (normalize (segments p)).dropLast ++ [last] :=
      (List.dropLast_append_getLast? _ hl).symm
    refine ⟨_, ?_, by rw [← hs, resolve_root], rfl⟩
    rw [← hs]
    exact fun s => isEntryName_of_mem_normalize_segments
  · rintro ⟨ss, hss, hr, rfl⟩
    rw [← splitParent_resolve, hr, splitParent_render hss]
    simp

/-- **The root alone has no directory above it.** -/
theorem splitParent_eq_none_iff : splitParent p = none ↔ resolve "/" p = "/" := by
  rw [splitParent, Option.map_eq_none_iff, List.getLast?_eq_none_iff, resolve_root,
    render_eq_slash_iff fun _ => isEntryName_of_mem_normalize_segments]

theorem exists_splitParent (h : resolve "/" p ≠ "/") :
    ∃ parent name, splitParent p = some (parent, name) := by
  cases hsp : splitParent p with
  | none => exact absurd (splitParent_eq_none_iff.1 hsp) h
  | some place => exact ⟨place.1, place.2, rfl⟩

/-- **The normal form of a path is cut at its last slash**: the name stands behind it, and the
directory in front of it. A slash with nothing in front is the root. -/
theorem splitParent_eq_some_iff_last_slash :
    splitParent p = some (dir, name) ↔ ∃ front, resolve "/" p = front ++ "/" ++ name ∧
      IsSegment name ∧ dir = if front = "" then "/" else front := by
  have hcut {dir name : String} (h : splitParent p = some (dir, name)) :
      ∃ front, resolve "/" p = front ++ "/" ++ name ∧ IsSegment name ∧
        dir = if front = "" then "/" else front := by
    obtain ⟨ss, hss, hr, rfl⟩ := splitParent_eq_some_iff.1 h
    refine ⟨lead ss, hr.trans (render_concat ss name),
      (isEntryName_iff.1 (hss name (by simp))).1, ?_⟩
    cases ss with
    | nil => rfl
    | cons s ss => rw [lead, if_neg (by simp [render])]
  refine ⟨hcut, ?_⟩
  rintro ⟨front, hr, hn, rfl⟩
  have hseg : segments (resolve "/" p) = segments front ++ [name] := by
    rw [hr, segments_append_slash, segments_of_isSegment hn]
  have hroot : resolve "/" p ≠ "/" := by
    intro he
    rw [he, segments_slash] at hseg
    simp at hseg
  obtain ⟨dir', name', h⟩ := exists_splitParent hroot
  obtain ⟨front', hr', hn', rfl⟩ := hcut h
  rw [hr', segments_append_slash, segments_of_isSegment hn'] at hseg
  obtain rfl : name' = name := by simpa using (List.append_inj' hseg rfl).2
  have hfront : front' = front :=
    (String.append_left_inj _).1 ((String.append_left_inj _).1 (hr'.symm.trans hr))
  rw [h, hfront]

/-- **The directory and the last name of a path** make up its normal form. -/
theorem segments_of_splitParent (h : splitParent p = some (dir, name)) :
    segments (resolve "/" p) = segments dir ++ [name] ∧ isEntryName name = true := by
  obtain ⟨ss, hss, hr, rfl⟩ := splitParent_eq_some_iff.1 h
  have hdir : ∀ s ∈ ss, isEntryName s = true := fun s hs => hss s (List.mem_append_left _ hs)
  refine ⟨?_, hss name (by simp)⟩
  rw [hr, segments_render_of_forall_isEntryName hss, segments_render_of_forall_isEntryName hdir]

/-- **Cutting undoes joining**, if the directory has no segments `.` and `..`. -/
theorem splitParent_join (hd : ∀ s ∈ segments dir, isEntryName s = true)
    (hn : isEntryName name = true) :
    splitParent (join dir name) = some (render (segments dir), name) := by
  have hs : normalize (segments (join dir name)) = segments dir ++ [name] := by
    rw [segments_join_of_isEntryName hn, normalize_of_forall_isEntryName]
    simpa [or_imp, forall_and] using ⟨hd, hn⟩
  simp [splitParent, hs]

end SplitParent

/-- **Cutting and joining undo each other.** The root alone is not cut. Every other path is cut into
a directory in normal form and a name that an entry may bear, and they are joined to its normal
form; a directory in normal form and such a name are joined to a path that is cut into them.
Whatever is joined, its segments are those of the two parts in order. -/
theorem join_undoes_splitParent :
    (∀ p, splitParent p = none ↔ resolve "/" p = "/") ∧
    (∀ p, resolve "/" p ≠ "/" → ∃ dir name, splitParent p = some (dir, name) ∧ IsNormal dir ∧
      checkEntryName name = .ok () ∧ join dir name = resolve "/" p) ∧
    (∀ dir name, IsNormal dir → checkEntryName name = .ok () →
      splitParent (join dir name) = some (dir, name)) ∧
    ∀ dir name, segments (join dir name) = segments dir ++ segments name := by
  refine ⟨fun p => splitParent_eq_none_iff, ?_, ?_, segments_join⟩
  · intro p hp
    obtain ⟨dir, name, h⟩ := exists_splitParent hp
    obtain ⟨ss, hss, hr, rfl⟩ := splitParent_eq_some_iff.1 h
    have hdir : ∀ s ∈ ss, isEntryName s = true := fun s hs => hss s (List.mem_append_left _ hs)
    refine ⟨_, name, h, isNormal_iff_exists_render.2 ⟨ss, hdir, rfl⟩, ?_, ?_⟩
    · exact checkEntryName_eq_ok_iff.2 (hss name (by simp))
    · rw [join_render_eq_render hdir, hr]
  · intro dir name hdir hname
    obtain ⟨ss, hss, rfl⟩ := isNormal_iff_exists_render.1 hdir
    have hseg : segments (render ss) = ss := segments_render_of_forall_isEntryName hss
    rw [splitParent_join (hseg.symm ▸ hss) (checkEntryName_eq_ok_iff.1 hname), hseg]

/-- Slashes to spare and dots are gone behind a cut; a name may hold any other character. -/
theorem join_undoes_splitParent_of_spare_slashes :
    resolve "/" "//a/.//é\n/b/../..\\ /" ≠ "/" ∧
      (∃ dir name, splitParent "//a/.//é\n/b/../..\\ /" = some (dir, name) ∧ IsNormal dir ∧
        checkEntryName name = .ok () ∧ join dir name = "/a/é\n/..\\ ") ∧
      IsNormal "/" ∧ checkEntryName "..." = .ok () ∧
      splitParent (join "/" "...") = some ("/", "...") ∧
      splitParent "a/../.." = none := by
  have hvalue : resolve "/" "//a/.//é\n/b/../..\\ /" = "/a/é\n/..\\ " := by decide +kernel
  have hne : resolve "/" "//a/.//é\n/b/../..\\ /" ≠ "/" := by
    rw [hvalue]
    decide
  have hdots : checkEntryName "..." = .ok () := checkEntryName_eq_ok_iff.2 (by decide)
  obtain ⟨hroot, hsplit, hjoin, -⟩ := join_undoes_splitParent
  refine ⟨hne, ?_, .inl rfl, hdots, hjoin "/" "..." (.inl rfl) hdots, ?_⟩
  · rw [← hvalue]
    exact hsplit _ hne
  · exact (hroot "a/../..").2 (by decide +kernel)

end Path

end AgentShell
