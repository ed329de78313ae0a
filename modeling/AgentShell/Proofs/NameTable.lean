import AgentShell.NameTable
import Mathlib.Data.List.Sort
import Mathlib.Tactic.SplitIfs

/-!
# The laws of a table

What is found in a table after something was put in or taken out, and that the names stay in order.
A table in order is determined by what is found in it. The order of the names is that of their code
points, which is the order of the octets of their encodings.

## Main results

* `NameTable.find?_insert`, `NameTable.find?_erase`: what is found after a change
* `NameTable.insert_insert`, `NameTable.erase_insert`: a change of what was changed
* `NameTable.Sorted.insert`, `NameTable.Sorted.erase`: the names stay in order
* `NameTable.Sorted.find?_eq_some_iff`, `NameTable.Sorted.ext`: a table in order, by what is found
* `NameTable.Sorted.insert_of_find?`, `NameTable.Sorted.insert_erase`: changes that lead back
-/

namespace AgentShell.NameTable

variable {α : Type} {s t : NameTable α} {name : String} {v : α}

section Find

theorem find?_cons (e : String × α) (t : NameTable α) (name : String) :
    find? name (e :: t) = if e.1 = name then some e.2 else find? name t := rfl

theorem mem_of_find?_eq_some (h : find? name t = some v) : (name, v) ∈ t := by
  induction t with
  | nil => cases h
  | cons e t ih =>
    rw [find?_cons] at h
    by_cases he : e.1 = name
    · rw [if_pos he] at h
      obtain rfl := Option.some.inj h
      obtain rfl := he
      exact List.mem_cons_self
    · rw [if_neg he] at h
      exact List.mem_cons_of_mem _ (ih h)

theorem mem_names_iff : name ∈ names t ↔ (find? name t).isSome := by
  induction t with
  | nil => simp
  | cons e t ih =>
    rw [names_cons, List.mem_cons, find?_cons, ih]
    by_cases he : e.1 = name
    · simp [he]
    · simp [he, Ne.symm he]

theorem mem_insert {e : String × α} (h : e ∈ insert name v t) : e = (name, v) ∨ e ∈ t := by
  induction t with
  | nil => exact .inl (List.mem_singleton.1 h)
  | cons a t ih =>
    rw [insert] at h
    split_ifs at h with hk hlt
    · exact (List.mem_cons.1 h).imp_right (List.mem_cons_of_mem _)
    · exact List.mem_cons.1 h
    · rcases List.mem_cons.1 h with rfl | h
      · exact .inr List.mem_cons_self
      · exact (ih h).imp_right (List.mem_cons_of_mem _)

/-- **What is found after something was put in**: it under its name, and all else as before. -/
theorem find?_insert (name k : String) (v : α) (t : NameTable α) :
    find? k (insert name v t) = if name = k then some v else find? k t := by
  induction t with
  | nil => rfl
  | cons a t ih =>
    rw [insert]
    by_cases hk : a.1 = name
    · rw [if_pos hk, find?_cons, find?_cons, hk]
      split_ifs <;> rfl
    · rw [if_neg hk]
      by_cases hlt : name < a.1
      · rw [if_pos hlt]
        rfl
      · rw [if_neg hlt, find?_cons, find?_cons, ih]
        split_ifs with hn hn'
        · exact absurd (hn.trans hn'.symm) hk
        · rfl
        · rfl
        · rfl

/-- **What is found after a name was taken out**: all that was there under other names. -/
theorem find?_erase (name k : String) (t : NameTable α) :
    find? k (erase name t) = if name = k then none else find? k t := by
  induction t with
  | nil => simp [erase]
  | cons a t ih =>
    rw [erase] at ih ⊢
    by_cases ha : a.1 = name
    · rw [List.filter_cons_of_neg (by simpa using ha), ih, find?_cons, ha]
      split_ifs <;> rfl
    · rw [List.filter_cons_of_pos (by simpa using ha), find?_cons, find?_cons, ih]
      split_ifs with hk hn hn
      · exact absurd (hk.trans hn.symm) ha
      · rfl
      · rfl
      · rfl

theorem insert_insert (name : String) (v w : α) (t : NameTable α) :
    insert name v (insert name w t) = insert name v t := by
  induction t with
  | nil => simp [insert]
  | cons a t ih =>
    simp only [insert]
    split_ifs with hk hlt
    · simp [insert]
    · simp [insert]
    · simp [insert, hk, hlt, ih]

theorem erase_insert (name : String) (v : α) (t : NameTable α) :
    erase name (insert name v t) = erase name t := by
  induction t with
  | nil => simp [insert, erase]
  | cons a t ih =>
    simp only [insert]
    split_ifs with hk hlt
    · simp [erase, hk]
    · simp [erase]
    · simpa [erase, hk] using ih

theorem erase_of_find?_eq_none (h : find? name t = none) : erase name t = t := by
  induction t with
  | nil => rfl
  | cons a t ih =>
    rw [find?_cons] at h
    split_ifs at h with ha
    simpa [erase, ha] using ih h

end Find

section Order

/-- Two names neither of which is before the other are the same. -/
theorem eq_of_not_lt {a b : String} (h : ¬a < b) (h' : ¬b < a) : a = b :=
  String.le_antisymm (String.not_lt.1 h') (String.not_lt.1 h)

theorem sorted_cons {e : String × α} {t : NameTable α} :
    Sorted (e :: t) ↔ (∀ a ∈ t, e.1 < a.1) ∧ Sorted t := by
  rw [Sorted, names_cons, List.pairwise_cons, names, List.forall_mem_map]
  rfl

@[simp] theorem sorted_nil : Sorted ([] : NameTable α) :=
  List.Pairwise.nil

/-- **A table stays in order** when something is put in. -/
theorem Sorted.insert (h : t.Sorted) (name : String) (v : α) :
    (NameTable.insert name v t).Sorted := by
  induction t with
  | nil => exact sorted_cons.2 ⟨by simp, sorted_nil⟩
  | cons a t ih =>
    obtain ⟨ha, ht⟩ := sorted_cons.1 h
    rw [NameTable.insert]
    split_ifs with hk hlt
    · exact sorted_cons.2 ⟨hk ▸ ha, ht⟩
    · refine sorted_cons.2 ⟨?_, h⟩
      intro b hb
      rcases List.mem_cons.1 hb with rfl | hb
      · exact hlt
      · exact String.lt_trans hlt (ha b hb)
    · refine sorted_cons.2 ⟨?_, ih ht⟩
      intro b hb
      rcases mem_insert hb with rfl | hb
      · by_contra hn
        exact hk (eq_of_not_lt hn hlt)
      · exact ha b hb

theorem Sorted.erase (h : t.Sorted) (name : String) : (NameTable.erase name t).Sorted :=
  List.Pairwise.sublist (List.filter_sublist.map Prod.fst) h

/-- **In a table in order everything is found.** -/
theorem Sorted.find?_eq_some_iff (h : t.Sorted) : find? name t = some v ↔ (name, v) ∈ t := by
  refine ⟨mem_of_find?_eq_some, ?_⟩
  intro hm
  induction t with
  | nil => cases hm
  | cons a t ih =>
    obtain ⟨ha, ht⟩ := sorted_cons.1 h
    rw [find?_cons]
    rcases List.mem_cons.1 hm with rfl | hm
    · rw [if_pos rfl]
    · rw [if_neg, ih ht hm]
      intro he
      exact String.lt_irrefl _ (he ▸ ha _ hm)

/-- **A table in order is determined by what is found in it.** -/
theorem Sorted.ext (hs : s.Sorted) (ht : t.Sorted) (h : ∀ name, find? name s = find? name t) :
    s = t := by
  have hp : ∀ {u : NameTable α}, u.Sorted → u.Pairwise fun a b => a.1 < b.1 :=
    fun hu => List.pairwise_map.1 hu
  have : Std.Antisymm fun a b : String × α => a.1 < b.1 :=
    ⟨fun _ _ hab hba => absurd hba (String.lt_asymm hab)⟩
  have : Std.Irrefl fun a b : String × α => a.1 < b.1 := ⟨fun _ => String.lt_irrefl _⟩
  refine List.Pairwise.eq_of_mem_iff (hp hs) (hp ht) ?_
  rintro ⟨name, v⟩
  rw [← hs.find?_eq_some_iff, ← ht.find?_eq_some_iff, h]

theorem Sorted.insert_of_find? (h : t.Sorted) (hv : find? name t = some v) :
    NameTable.insert name v t = t := by
  refine (h.insert name v).ext h fun k => ?_
  rw [find?_insert]
  split_ifs with hk
  · rw [← hk, hv]
  · rfl

/-- What was taken out can be put back in its place. -/
theorem Sorted.insert_erase (h : t.Sorted) (hv : find? name t = some v) :
    NameTable.insert name v (NameTable.erase name t) = t := by
  refine ((h.erase name).insert name v).ext h fun k => ?_
  rw [find?_insert, find?_erase]
  split_ifs with hk
  · rw [← hk, hv]
  · rfl

end Order

end AgentShell.NameTable
