import AgentShell.Command.Builtin
import AgentShell.Proofs.LastMatch
import AgentShell.Proofs.NameTable
import AgentShell.Proofs.Text.Lowercase.Small
import AgentShell.Proofs.Text.Octets
import Mathlib.Data.List.Induction

/-!
# Commands registered one after another

A command is put under the lower-case form of its name, so it replaces the commands whose names have
the same form, and a verb means the last of those that share its form. A verb of the list that the
registry gives is such a form itself. It is found as it stands because a lower-case form is its own,
and it means what every verb means whose form it is.

## Main definitions

* `Command.IsBuiltin`: the built-in commands, one by one

## Main results

* `Registry.find?_table_registerAll`: the commands under the keys of the table, after registrations
* `Registry.find?_registerAll_eq_some_iff`: the command that a verb means
* `Registry.mem_names_registerAll_iff`: the verbs that are listed
* `Registry.find?_lowercase`: a verb and its lower-case form mean the same
* `Registry.verbs_mean_last_registered`: the law of the registry as a whole
* `Registry.find?_builtin_eq_some_iff`: the built-in commands under verbs
-/

namespace AgentShell

namespace Registry

variable {r : Registry} {c : Command} {cs : List Command} {verb n : String}

theorem registerAll_concat (r : Registry) (cs : List Command) (c : Command) :
    r.registerAll (cs ++ [c]) = (r.registerAll cs).register c :=
  List.foldl_concat ..

/-- **What stands under a key after registrations**: the last command among them whose name has the
key as its lower-case form, or else what stood there before. -/
theorem find?_table_registerAll (r : Registry) (cs : List Command) (key : String) :
    (r.registerAll cs).table.find? key =
      (cs.reverse.find? fun c => Text.lowercase c.name = key).or (r.table.find? key) := by
  induction cs using List.reverseRecOn with
  | nil => rfl
  | append_singleton cs c ih =>
    rw [registerAll_concat, register, NameTable.find?_insert, ih, find?_reverse_concat]
    by_cases hc : Text.lowercase c.name = key <;> simp [hc]

theorem sorted_registerAll (h : r.table.Sorted) (cs : List Command) :
    (r.registerAll cs).table.Sorted := by
  induction cs using List.reverseRecOn with
  | nil => exact h
  | append_singleton cs c ih =>
    rw [registerAll_concat]
    exact ih.insert ..

/-- **A verb and its lower-case form mean the same.** -/
@[simp] theorem find?_lowercase (r : Registry) (verb : String) :
    r.find? (Text.lowercase verb) = r.find? verb := by
  rw [find?, find?, Text.lowercase_lowercase]

section Empty

/-- **The command that a verb means** is the last one whose name has its lower-case form. -/
theorem find?_registerAll_eq_some_iff :
    (empty.registerAll cs).find? verb = some c ↔
      ∃ before after, cs = before ++ c :: after ∧ Text.lowercase c.name = Text.lowercase verb ∧
        ∀ d ∈ after, Text.lowercase d.name ≠ Text.lowercase verb := by
  have hlast : (empty.registerAll cs).find? verb =
      cs.reverse.find? fun c => Text.lowercase c.name = Text.lowercase verb := by
    rw [find?, find?_table_registerAll]
    exact Option.or_none
  simp [hlast, find?_reverse_eq_some_iff]

theorem find?_registerAll_eq_none_iff :
    (empty.registerAll cs).find? verb = none ↔
      ∀ c ∈ cs, Text.lowercase c.name ≠ Text.lowercase verb := by
  rw [find?, find?_table_registerAll, Option.or_eq_none_iff]
  simp [empty]

/-- **The verbs that are listed** are the lower-case forms of the names. -/
theorem mem_names_registerAll_iff :
    n ∈ (empty.registerAll cs).names ↔ ∃ c ∈ cs, Text.lowercase c.name = n := by
  rw [names, NameTable.mem_names_iff, find?_table_registerAll]
  simp [empty]

/-- **What a registry answers after any registrations.** A verb means the last command registered
under a name with the lower-case form of the verb, and nothing if there is no such name. The verbs
are listed without repetition in the order of their code points, which is that of their octets. They
are the lower-case forms of the names, and each is found itself: it means the command that all verbs
mean whose lower-case form it is. -/
theorem verbs_mean_last_registered (cs : List Command) :
    let r := empty.registerAll cs
    (∀ verb c, r.find? verb = some c ↔
        ∃ before after, cs = before ++ c :: after ∧ Text.lowercase c.name = Text.lowercase verb ∧
          ∀ d ∈ after, Text.lowercase d.name ≠ Text.lowercase verb) ∧
      (∀ verb, r.find? verb = none ↔ ∀ c ∈ cs, Text.lowercase c.name ≠ Text.lowercase verb) ∧
      (∀ verb, r.contains verb = true ↔ ∃ c, r.find? verb = some c) ∧
      r.names.Pairwise (· < ·) ∧
      (r.names.Pairwise fun m n => Text.octets m < Text.octets n) ∧
      (∀ n, n ∈ r.names ↔ ∃ c ∈ cs, Text.lowercase c.name = n) ∧
      ∀ n ∈ r.names, ∃ c, r.find? n = some c ∧
        ∀ verb, Text.lowercase verb = n → r.find? verb = some c := by
  intro r
  have hsorted : r.table.Sorted := sorted_registerAll NameTable.sorted_nil cs
  refine ⟨fun _ _ => find?_registerAll_eq_some_iff, fun _ => find?_registerAll_eq_none_iff,
    fun _ => Option.isSome_iff_exists, hsorted, (NameTable.sorted_iff_octets _).1 hsorted,
    fun _ => mem_names_registerAll_iff, fun n hn => ?_⟩
  obtain ⟨d, hd, rfl⟩ := mem_names_registerAll_iff.1 hn
  obtain ⟨c, hc⟩ : ∃ c, r.find? d.name = some c := by
    rw [← Option.ne_none_iff_exists']
    exact fun hnone => find?_registerAll_eq_none_iff.1 hnone d hd rfl
  refine ⟨c, (find?_lowercase r d.name).trans hc, fun verb hverb => ?_⟩
  rw [← find?_lowercase r verb, hverb, find?_lowercase, hc]

/-- The names "ΑΣ" and "ας" have one lower-case form, which ends in a final sigma. It is a verb that
is listed, and it means the command that was registered last, as the other spelling does. -/
theorem verbs_mean_last_registered_of_sigmas :
    let last : Command := ⟨"ας", Command.clear.run⟩
    let r := empty.registerAll [⟨"ΑΣ", Command.help.run⟩, ⟨"İ", Command.help.run⟩, last]
    "ας" ∈ r.names ∧ Text.lowercase "ΑΣ" = "ας" ∧
      r.find? "ας" = some last ∧ r.find? "ΑΣ" = some last := by
  intro last r
  have hself : Text.lowercase "ας" = "ας" := by decide +kernel
  have hcapital : Text.lowercase "ΑΣ" = "ας" := by decide +kernel
  obtain ⟨hfound, -, -, -, -, hlisted, heach⟩ :=
    verbs_mean_last_registered [⟨"ΑΣ", Command.help.run⟩, ⟨"İ", Command.help.run⟩, last]
  have hmem : "ας" ∈ r.names := (hlisted "ας").2 ⟨last, by simp, hself⟩
  have hlast : r.find? "ας" = some last := (hfound "ας" last).2 ⟨[_, _], [], rfl, rfl, by simp⟩
  obtain ⟨c, hc, hall⟩ := heach "ας" hmem
  obtain rfl := Option.some.inj (hc.symm.trans hlast)
  exact ⟨hmem, hcapital, hlast, hall "ΑΣ" hcapital⟩

end Empty

end Registry

section Builtin

variable {c : Command} {verb : String}

/-- The built-in commands, one by one. -/
inductive Command.IsBuiltin : Command → Prop where
  | help : IsBuiltin .help
  | clear : IsBuiltin .clear
  | ls : IsBuiltin .ls
  | cd : IsBuiltin .cd
  | cat : IsBuiltin .cat
  | status : IsBuiltin .status
  | task : IsBuiltin .task

theorem Command.mem_builtin_iff : c ∈ builtin ↔ c.IsBuiltin := by
  constructor
  · intro h
    simp only [builtin, List.mem_cons, List.not_mem_nil, or_false] at h
    rcases h with rfl | rfl | rfl | rfl | rfl | rfl | rfl <;> constructor
  · intro h
    cases h <;> simp [builtin]

theorem Command.lowercase_name (h : c ∈ builtin) : Text.lowercase c.name = c.name := by
  cases mem_builtin_iff.1 h <;> decide

/-- **The command that a verb means**: the built-in command whose name is its lower-case form. -/
theorem Registry.find?_builtin_eq_some_iff :
    Registry.builtin.find? verb = some c ↔ c ∈ Command.builtin ∧ c.name = Text.lowercase verb := by
  constructor
  · intro h
    obtain ⟨before, after, hparts, hname, -⟩ := find?_registerAll_eq_some_iff.1 h
    have hc : c ∈ Command.builtin := by simp [hparts]
    exact ⟨hc, Command.lowercase_name hc ▸ hname⟩
  · rintro ⟨hm, hn⟩
    rw [find?, ← hn]
    cases Command.mem_builtin_iff.1 hm <;> rfl

theorem Registry.find?_builtin_eq_none_iff :
    Registry.builtin.find? verb = none ↔ ∀ c ∈ Command.builtin, c.name ≠ Text.lowercase verb := by
  simp only [Option.eq_none_iff_forall_ne_some, ne_eq, find?_builtin_eq_some_iff, not_and]

end Builtin

end AgentShell
