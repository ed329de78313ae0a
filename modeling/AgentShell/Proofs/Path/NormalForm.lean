import AgentShell.Path
import AgentShell.Proofs.Text.Words
import AgentShell.Tree.Node
import Mathlib.Data.List.Infix
import Mathlib.Tactic.SplitIfs
import Mathlib.Tactic.Tauto

/-!
# The normal form of a path

Cutting a path at its slashes undoes the rendering of segments, and what is left when `.` and `..`
are carried out are names that an entry may bear. So a path in normal form is rendered from entry
names, it has exactly those names as its segments, and resolving it again, from whatever directory,
gives it back.

## Main definitions

* `Path.IsSegment`: what may stand between two slashes

## Main results

* `Path.segments_append_slash`, `Path.segments_render`: the segments of a longer path, and of a
  rendered one
* `Path.isEntryName_of_mem_normalize`, `Path.normalize_of_forall_isEntryName`: normalizing leaves
  entry names, and leaves entry names alone
* `Path.segments_resolve_root`, `Path.resolve_resolve`: the segments of a normal form, and its
  normal form
* `Path.resolve_append_slash`: a path that goes on from where another leads
-/

namespace AgentShell

/-- The text of a segment: not empty, and without a slash. -/
def Path.IsSegment (s : String) : Prop :=
  s ≠ "" ∧ '/' ∉ s.toList

/-- The entry names are the segments that stand for themselves. -/
theorem isEntryName_iff {s : String} :
    isEntryName s = true ↔ Path.IsSegment s ∧ s ≠ "." ∧ s ≠ ".." := by
  simp only [isEntryName, Path.IsSegment, Bool.and_eq_true, decide_eq_true_eq, Bool.not_eq_true',
    List.contains_eq_mem, decide_eq_false_iff_not]
  tauto

namespace Path

theorem not_mem_of_mem_splitOn {c : Char} {cs piece : List Char} (h : piece ∈ cs.splitOn c) :
    c ∉ piece :=
  fun hm => by simpa using Text.eq_false_of_mem_splitOnP h c hm

theorem isSegment_of_mem_segments {p s : String} (h : s ∈ segments p) : IsSegment s := by
  obtain ⟨piece, hp, rfl⟩ := List.mem_map.1 h
  rw [List.mem_filter] at hp
  refine ⟨?_, ?_⟩
  · intro he
    have : piece = [] := by simpa using congrArg String.toList he
    simp [this] at hp
  · rw [String.toList_ofList]
    exact not_mem_of_mem_splitOn hp.1

/-- **The segments of two paths with a slash between them** are those of the first and then those of
the second. -/
theorem segments_append_slash (a b : String) :
    segments (a ++ "/" ++ b) = segments a ++ segments b := by
  have ht : (a ++ "/" ++ b).toList = a.toList ++ '/' :: b.toList := by simp
  rw [segments, ht, List.splitOn_append_cons_self, List.filter_append, List.map_append]
  rfl

@[simp] theorem segments_empty : segments "" = [] := by
  simp [segments]

@[simp] theorem segments_slash : segments "/" = [] :=
  segments_append_slash "" ""

theorem segments_slash_append (p : String) : segments ("/" ++ p) = segments p := by
  simpa using segments_append_slash "" p

theorem segments_of_isSegment {s : String} (h : IsSegment s) : segments s = [s] := by
  have hs : s.toList ≠ [] := fun he => h.1 (String.toList_inj.1 he)
  simp [segments, List.splitOn_eq_singleton h.2, hs]

theorem segments_intercalate {ss : List String} (h : ∀ s ∈ ss, IsSegment s) :
    segments ("/".intercalate ss) = ss := by
  induction ss with
  | nil => simp
  | cons s ss ih =>
    have hs := segments_of_isSegment (h s List.mem_cons_self)
    have ih := ih fun t ht => h t (List.mem_cons_of_mem _ ht)
    cases ss with
    | nil => simpa using hs
    | cons t ss =>
      rw [String.intercalate_cons_cons, segments_append_slash, hs, ih, List.singleton_append]

/-- **Cutting undoes rendering.** -/
theorem segments_render {ss : List String} (h : ∀ s ∈ ss, IsSegment s) :
    segments (render ss) = ss := by
  cases ss with
  | nil => exact segments_slash
  | cons s ss =>
    show segments ("/" ++ "/".intercalate (s :: ss)) = s :: ss
    rw [segments_slash_append, segments_intercalate h]

theorem segments_render_of_forall_isEntryName {ss : List String}
    (h : ∀ s ∈ ss, isEntryName s = true) : segments (render ss) = ss :=
  segments_render fun s hs => (isEntryName_iff.1 (h s hs)).1

theorem isAbsolute_render (ss : List String) : isAbsolute (render ss) = true := by
  cases ss with
  | nil => rfl
  | cons s ss => simp [isAbsolute, render]

section Normalize

theorem enter_of_isEntryName {s : String} (h : isEntryName s = true) (stack : List String) :
    enter stack s = stack ++ [s] := by
  obtain ⟨-, hd, hdd⟩ := isEntryName_iff.1 h
  rw [enter, if_neg hd, if_neg hdd]

theorem isEntryName_of_mem_enter {stack : List String} {s : String}
    (hst : ∀ t ∈ stack, isEntryName t = true) (hs : IsSegment s) :
    ∀ t ∈ enter stack s, isEntryName t = true := by
  intro t ht
  rw [enter] at ht
  split_ifs at ht with hd hdd
  · exact hst t ht
  · exact hst t (List.mem_of_mem_dropLast ht)
  · rcases List.mem_append.1 ht with ht | ht
    · exact hst t ht
    · rw [List.mem_singleton.1 ht]
      exact isEntryName_iff.2 ⟨hs, hd, hdd⟩

/-- **Normalizing leaves entry names only.** -/
theorem isEntryName_of_mem_normalize {ss : List String} (h : ∀ s ∈ ss, IsSegment s) :
    ∀ s ∈ normalize ss, isEntryName s = true := by
  -- Induction on the segments; the stack before them holds entry names already.
  suffices hst : ∀ stack : List String, (∀ t ∈ stack, isEntryName t = true) →
      ∀ t ∈ ss.foldl enter stack, isEntryName t = true from hst [] (by simp)
  induction ss with
  | nil => exact fun _ hst => hst
  | cons s ss ih =>
    intro stack hst
    refine ih (fun t ht => h t (List.mem_cons_of_mem _ ht)) _ ?_
    exact isEntryName_of_mem_enter hst (h s List.mem_cons_self)

/-- **Normalizing leaves entry names alone.** -/
theorem normalize_of_forall_isEntryName {ss : List String} (h : ∀ s ∈ ss, isEntryName s = true) :
    normalize ss = ss := by
  suffices hst : ∀ stack : List String, ss.foldl enter stack = stack ++ ss from hst []
  induction ss with
  | nil => exact fun stack => (List.append_nil stack).symm
  | cons s ss ih =>
    intro stack
    rw [List.foldl_cons, enter_of_isEntryName (h s List.mem_cons_self),
      ih (fun t ht => h t (List.mem_cons_of_mem _ ht)), List.append_assoc, List.singleton_append]

end Normalize

section Resolve

theorem isEntryName_of_mem_normalize_segments {p s : String} (h : s ∈ normalize (segments p)) :
    isEntryName s = true :=
  isEntryName_of_mem_normalize (fun _ => isSegment_of_mem_segments) s h

theorem resolve_root (p : String) : resolve "/" p = render (normalize (segments p)) := by
  rw [resolve]
  split
  · rfl
  · rw [segments_append_slash, segments_slash, List.nil_append]

theorem resolve_slash : resolve "/" "/" = "/" := by
  rw [resolve_root, segments_slash]
  rfl

theorem resolve_of_isAbsolute {p : String} (h : isAbsolute p = true) (cwd : String) :
    resolve cwd p = resolve "/" p := by
  rw [resolve, resolve, if_pos h, if_pos h]

theorem segments_render_normalize (p : String) :
    segments (render (normalize (segments p))) = normalize (segments p) :=
  segments_render_of_forall_isEntryName fun _ => isEntryName_of_mem_normalize_segments

theorem segments_resolve_root (p : String) :
    segments (resolve "/" p) = normalize (segments p) := by
  rw [resolve_root, segments_render_normalize]

theorem isEntryName_of_mem_segments_resolve {cwd p s : String} (h : s ∈ segments (resolve cwd p)) :
    isEntryName s = true := by
  rw [resolve, segments_render_normalize] at h
  exact isEntryName_of_mem_normalize_segments h

/-- A path whose segments are entry names is read by them alone. -/
theorem segments_resolve_of_forall_isEntryName {p : String}
    (h : ∀ s ∈ segments p, isEntryName s = true) : segments (resolve "/" p) = segments p := by
  rw [segments_resolve_root, normalize_of_forall_isEntryName h]

/-- **A normal form is its own normal form**, from whatever directory. -/
theorem resolve_resolve (cwd cwd' p : String) : resolve cwd' (resolve cwd p) = resolve cwd p := by
  have ha : isAbsolute (resolve cwd p) = true := isAbsolute_render _
  have hn : normalize (segments (resolve cwd p)) = segments (resolve cwd p) :=
    normalize_of_forall_isEntryName fun _ => isEntryName_of_mem_segments_resolve
  rw [resolve_of_isAbsolute ha, resolve_root, hn, resolve, segments_render_normalize]

theorem render_segments_resolve (cwd p : String) :
    render (segments (resolve cwd p)) = resolve cwd p := by
  rw [resolve, segments_render_normalize]

theorem normalize_append (ss ks : List String) :
    normalize (ss ++ ks) = ks.foldl enter (normalize ss) :=
  List.foldl_append

theorem isAbsolute_append {a : String} (ha : a ≠ "") (b : String) :
    isAbsolute (a ++ b) = isAbsolute a := by
  have hne : a.toList ≠ [] := fun he => ha (String.toList_inj.1 he)
  rw [isAbsolute, isAbsolute, String.toList_append, List.head?_append_of_ne_nil _ hne]

/-- **A path that goes on** from where another leads. -/
theorem resolve_append_slash {a : String} (ha : a ≠ "") (cwd b : String) :
    resolve cwd (a ++ "/" ++ b) = render ((segments b).foldl enter (segments (resolve cwd a))) := by
  have hcut : segments (if isAbsolute (a ++ "/" ++ b) then a ++ "/" ++ b
      else cwd ++ "/" ++ (a ++ "/" ++ b)) =
      segments (if isAbsolute a then a else cwd ++ "/" ++ a) ++ segments b := by
    rw [String.append_assoc, isAbsolute_append ha, ← String.append_assoc]
    split
    · exact segments_append_slash a b
    · rw [← String.append_assoc, ← String.append_assoc, segments_append_slash]
  rw [resolve, hcut, normalize_append, resolve, segments_render_normalize]

end Resolve

end Path

end AgentShell
