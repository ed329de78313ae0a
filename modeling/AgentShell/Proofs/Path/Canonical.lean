import AgentShell.Proofs.Path.NormalForm

/-!
# Paths in normal form

Which texts are normal forms can be said without resolving anything: the root, and names with a
single slash in front of each, where `.` and `..` are no names. Resolving leads to such a text from
wherever it starts, and it moves no such text. So these are its fixed points, and resolving once
more changes nothing, whatever the directory is in between.

## Main definitions

* `Path.IsNormal`: a path in normal form

## Main results

* `Path.isNormal_iff_exists_render`: the paths in normal form are those that are rendered from names
* `Path.isNormal_resolve`, `Path.resolve_of_isNormal`: resolving leads to a path in normal form, and
  moves none
* `Path.isNormal_iff_fixed_point`: these together
-/

namespace AgentShell.Path

variable {p : String}

/-- **A path in normal form**: the root, or names with a slash in front of each. A name is not
empty, it holds no slash, and it is neither `.` nor `..`. -/
def IsNormal (p : String) : Prop :=
  p = "/" ∨ ∃ names : List String, names ≠ [] ∧
    (∀ s ∈ names, s ≠ "" ∧ '/' ∉ s.toList ∧ s ≠ "." ∧ s ≠ "..") ∧ p = "/" ++ "/".intercalate names

/-- What is asked of the names in a path is what is asked of the name of an entry. -/
theorem isEntryName_iff_name {s : String} :
    isEntryName s = true ↔ s ≠ "" ∧ '/' ∉ s.toList ∧ s ≠ "." ∧ s ≠ ".." := by
  rw [isEntryName_iff, IsSegment, and_assoc]

theorem render_of_ne_nil {names : List String} (h : names ≠ []) :
    render names = "/" ++ "/".intercalate names := by
  cases names with
  | nil => exact absurd rfl h
  | cons s names => rfl

/-- **The paths in normal form** are those that are rendered from names of entries. -/
theorem isNormal_iff_exists_render :
    IsNormal p ↔ ∃ names, (∀ s ∈ names, isEntryName s = true) ∧ p = render names := by
  simp only [isEntryName_iff_name]
  constructor
  · rintro (rfl | ⟨names, hne, hnames, rfl⟩)
    · exact ⟨[], nofun, rfl⟩
    · exact ⟨names, hnames, (render_of_ne_nil hne).symm⟩
  · rintro ⟨names, hnames, rfl⟩
    by_cases hne : names = []
    · rw [hne]
      exact .inl rfl
    · exact .inr ⟨names, hne, hnames, render_of_ne_nil hne⟩

/-- **Resolving leads to a path in normal form.** -/
theorem isNormal_resolve (cwd input : String) : IsNormal (resolve cwd input) :=
  isNormal_iff_exists_render.2
    ⟨_, fun _ => isEntryName_of_mem_normalize_segments, rfl⟩

/-- **A path in normal form is not moved** by resolving it. -/
theorem resolve_of_isNormal (h : IsNormal p) (cwd : String) : resolve cwd p = p := by
  obtain ⟨names, hnames, rfl⟩ := isNormal_iff_exists_render.1 h
  rw [resolve_of_isAbsolute (isAbsolute_render names), resolve_root,
    segments_render_of_forall_isEntryName hnames, normalize_of_forall_isEntryName hnames]

theorem isNormal_of_resolve_eq {cwd : String} (h : resolve cwd p = p) : IsNormal p :=
  h ▸ isNormal_resolve cwd p

instance : DecidablePred IsNormal := fun p =>
  decidable_of_iff (resolve "/" p = p) ⟨isNormal_of_resolve_eq, fun h => resolve_of_isNormal h "/"⟩

/-- **The paths in normal form are the fixed points of resolving**, from every directory, be it
absolute or not. Resolving any path leads to one of them, so resolving it once more, from wherever,
changes nothing. -/
theorem isNormal_iff_fixed_point :
    (∀ cwd input, IsNormal (resolve cwd input)) ∧
    (∀ cwd p, resolve cwd p = p ↔ IsNormal p) ∧
    ∀ cwd cwd' input, resolve cwd' (resolve cwd input) = resolve cwd input := by
  refine ⟨isNormal_resolve, fun cwd p => ⟨isNormal_of_resolve_eq, fun h => ?_⟩, ?_⟩
  · exact resolve_of_isNormal h cwd
  · intro cwd cwd' input
    exact resolve_of_isNormal (isNormal_resolve cwd input) cwd'

/-- Three dots are a name; a slash at the end is one too many. -/
example : IsNormal "/a/..." ∧ ¬ IsNormal "/a/" ∧ ¬ IsNormal "a" ∧ ¬ IsNormal "/a/.." := by
  decide +kernel

end AgentShell.Path
