import AgentShell.Proofs.Tree.Change
import Mathlib.Data.List.Nodup

/-!
# The paths of a tree

The paths of a well-formed tree are rendered from the lists of names that lead somewhere in it, each
of them once.

## Main results

* `Tree.mem_pathsBelow_iff`, `Tree.WellFormed.mem_paths_iff`: which paths there are
* `Tree.nodup_pathsBelow`, `Tree.WellFormed.nodup_paths`: none occurs twice
-/

namespace AgentShell

namespace Path

variable {above s : String} {ss ks : List String}

/-- The path that leads on from `above` by at least one name. -/
def below (above : String) (ss : List String) : String :=
  above ++ "/" ++ "/".intercalate ss

theorem render_cons (s : String) (ss : List String) : render (s :: ss) = below "" (s :: ss) := rfl

theorem below_singleton (above s : String) : below above [s] = above ++ "/" ++ s := by
  simp [below]

theorem below_cons_cons (above s t : String) (ss : List String) :
    below above (s :: t :: ss) = below (above ++ "/" ++ s) (t :: ss) := by
  simp [below, String.intercalate_cons_cons, String.append_assoc]

theorem eq_of_below_eq (hs : ∀ s ∈ ss, isEntryName s = true) (hk : ∀ k ∈ ks, isEntryName k = true)
    (h : below above ss = below above ks) : ss = ks := by
  have hi : "/".intercalate ss = "/".intercalate ks := (String.append_right_inj _).1 h
  rw [← segments_intercalate fun s hm => (isEntryName_iff.1 (hs s hm)).1, hi,
    segments_intercalate fun k hm => (isEntryName_iff.1 (hk k hm)).1]

end Path

namespace Tree

open AgentShell.Path (below)

variable {t : Tree} {n : Node} {es : NameTable Node} {p : String}

theorem pathsOfEntries_eq_flatMap (above : String) (es : List (String × Node)) :
    pathsOfEntries above es = es.flatMap fun e =>
      (above ++ "/" ++ e.1) :: pathsBelow (above ++ "/" ++ e.1) e.2 := by
  induction es with
  | nil => rfl
  | cons e es ih => rw [pathsOfEntries, ih, List.flatMap_cons]

theorem pathsBelow_directory (above : String) (es : List (String × Node)) :
    pathsBelow above (.directory es) = es.flatMap fun e =>
      (above ++ "/" ++ e.1) :: pathsBelow (above ++ "/" ++ e.1) e.2 := by
  rw [pathsBelow, pathsOfEntries_eq_flatMap]

/-- **The paths below a well-formed node** lead on by names that lead somewhere in it. -/
theorem mem_pathsBelow_iff (h : n.WellFormed) (above : String) :
    p ∈ pathsBelow above n ↔
      ∃ s ss m, n.get? (s :: ss) = some m ∧ p = below above (s :: ss) := by
  induction h generalizing above p with
  | file c => simp [pathsBelow]
  | @directory es hs hn hw ih =>
    rw [pathsBelow_directory, List.mem_flatMap]
    constructor
    · rintro ⟨e, he, hp⟩
      have hf := hs.find?_eq_some_iff.2 he
      rcases List.mem_cons.1 hp with rfl | hp
      · refine ⟨e.1, [], e.2, ?_, (Path.below_singleton ..).symm⟩
        rw [Node.get?_directory_cons, hf, Option.bind_some, Node.get?_nil]
      · obtain ⟨s, ss, m, hg, rfl⟩ := (ih e he _).1 hp
        refine ⟨e.1, s :: ss, m, ?_, (Path.below_cons_cons ..).symm⟩
        rw [Node.get?_directory_cons, hf, Option.bind_some, hg]
    · rintro ⟨s, ss, m, hg, rfl⟩
      rw [Node.get?_directory_cons] at hg
      obtain ⟨child, hf, hm⟩ := Option.bind_eq_some_iff.1 hg
      have he := hs.find?_eq_some_iff.1 hf
      refine ⟨(s, child), he, ?_⟩
      cases ss with
      | nil => exact List.mem_cons.2 (.inl (Path.below_singleton ..))
      | cons k ss =>
        refine List.mem_cons_of_mem _ ((ih _ he _).2 ⟨k, ss, m, hm, ?_⟩)
        rw [Path.below_cons_cons]

/-- **The paths of a well-formed tree** are rendered from the names that lead somewhere in it. -/
theorem WellFormed.mem_paths_iff (h : t.WellFormed) :
    p ∈ t.paths ↔ ∃ ss n, t.root.get? ss = some n ∧ p = Path.render ss := by
  rw [paths, List.mem_cons, mem_pathsBelow_iff h.2]
  constructor
  · rintro (rfl | ⟨s, ss, m, hg, rfl⟩)
    · exact ⟨[], t.root, Node.get?_nil _, rfl⟩
    · exact ⟨s :: ss, m, hg, (Path.render_cons ..).symm⟩
  · rintro ⟨ss, n, hg, rfl⟩
    cases ss with
    | nil => exact .inl rfl
    | cons s ss => exact .inr ⟨s, ss, n, hg, Path.render_cons ..⟩

/-- A path among those of one entry goes through the name of the entry. -/
theorem exists_of_mem_pathsOfEntry {e : String × Node} (h : e.2.WellFormed) {above : String}
    (hp : p ∈ (above ++ "/" ++ e.1) :: pathsBelow (above ++ "/" ++ e.1) e.2) :
    ∃ ss, (∀ s ∈ ss, isEntryName s = true) ∧ p = below above (e.1 :: ss) := by
  rcases List.mem_cons.1 hp with rfl | hp
  · exact ⟨[], by simp, (Path.below_singleton ..).symm⟩
  · obtain ⟨s, ss, m, hg, rfl⟩ := (mem_pathsBelow_iff h _).1 hp
    exact ⟨s :: ss, (h.get? hg).1, (Path.below_cons_cons ..).symm⟩

theorem nodup_pathsBelow (h : n.WellFormed) (above : String) : (pathsBelow above n).Nodup := by
  induction h generalizing above with
  | file c => exact List.nodup_nil
  | @directory es hs hn hw ih =>
    rw [pathsBelow_directory, List.nodup_flatMap]
    refine ⟨?_, ?_⟩
    · intro e he
      refine List.nodup_cons.2 ⟨?_, ih e he _⟩
      intro hp
      obtain ⟨s, ss, m, hg, hb⟩ := (mem_pathsBelow_iff (hw e he) _).1 hp
      rw [← Path.below_cons_cons, ← Path.below_singleton] at hb
      have hss := ((hw e he).get? hg).1
      have := Path.eq_of_below_eq (by simpa using hn e he)
        (List.forall_mem_cons.2 ⟨hn e he, hss⟩) hb
      cases this
    · refine (List.pairwise_map.1 hs).imp_of_mem ?_
      intro a b ha hb hlt p hpa hpb
      obtain ⟨ss, hss, rfl⟩ := exists_of_mem_pathsOfEntry (hw a ha) hpa
      obtain ⟨ks, hks, he⟩ := exists_of_mem_pathsOfEntry (hw b hb) hpb
      have := Path.eq_of_below_eq (List.forall_mem_cons.2 ⟨hn a ha, hss⟩)
        (List.forall_mem_cons.2 ⟨hn b hb, hks⟩) he
      rw [(List.cons.inj this).1] at hlt
      exact String.lt_irrefl _ hlt

/-- **No path of a well-formed tree occurs twice.** -/
theorem WellFormed.nodup_paths (h : t.WellFormed) : t.paths.Nodup := by
  refine List.nodup_cons.2 ⟨?_, nodup_pathsBelow h.2 ""⟩
  intro hp
  obtain ⟨s, ss, m, hg, hr⟩ := (mem_pathsBelow_iff h.2 "").1 hp
  have := segments_render_of_get? h.2 hg
  rw [Path.render_cons, ← hr, Path.segments_slash] at this
  cases this

end Tree

end AgentShell
