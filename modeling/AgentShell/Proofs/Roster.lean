import AgentShell.Agent
import AgentShell.Proofs.LastMatch
import AgentShell.Proofs.Text.Lowercase
import Mathlib.Data.List.Induction

/-!
# Agents that arrive one after another

A roster compares names in two ways. An agent that arrives replaces those whose names differ from
its own in the case of the letters A to Z at most; a name means every agent whose name has the same
full lower-case form. So names that agree in the second way only stand in a roster together, and
look-up answers with the one of them that stands first, which is not the one that came last.

## Main definitions

* `Agent.spelling`: what the names of two agents share when one replaces the other
* `Agent.IsCalled`: the agents that a name means
* `Roster.registerAll`: a roster after some arrivals
* `Roster.unreplaced`: the arrivals that no later one has replaced
* `Roster.latest?`: the last arrival that a name means

## Main results

* `agents_registerAll`: a roster holds the arrivals that no later one has replaced
* `find?_registerAll`, `find?_unreplaced_eq_some_iff`: the arrival with which look-up answers
* `find?_unreplaced_eq_latest?_iff`: it is the last one that the name means exactly where all
  arrivals that the name means have one spelling
* `find?_register_self_iff`: when an agent that has just arrived is found
* `find?_is_latest_iff_one_spelling`: the law for the empty roster and for the family
-/

namespace AgentShell

/-- What the names of two agents share when one of them replaces the other. -/
def Agent.spelling (a : Agent) : String :=
  Text.lowercaseAscii a.name

/-- The name of the agent is `name` but for the case of its letters. -/
def Agent.IsCalled (a : Agent) (name : String) : Prop :=
  Text.lowercase a.name = Text.lowercase name
deriving Decidable

namespace Roster

variable {r : Roster} {a b : Agent} {as all : List Agent} {name : String}

theorem isCalled_iff_of_spelling_eq (h : a.spelling = b.spelling) (name : String) :
    a.IsCalled name ↔ b.IsCalled name := by
  rw [Agent.IsCalled, Agent.IsCalled, Text.lowercase_eq_of_lowercaseAscii_eq h]

/-- The roster after agents have arrived one after another. -/
def registerAll (r : Roster) (as : List Agent) : Roster :=
  as.foldl register r

/-- The arrivals that no later one has replaced. -/
def unreplaced : List Agent → List Agent
  | [] => []
  | a :: as => if ∃ b ∈ as, b.spelling = a.spelling then unreplaced as else a :: unreplaced as

/-- The last arrival that the name means. -/
def latest? (all : List Agent) (name : String) : Option Agent :=
  all.reverse.find? (·.IsCalled name)

/-! ## What a roster holds -/

theorem mem_of_mem_unreplaced (h : a ∈ unreplaced all) : a ∈ all := by
  induction all with
  | nil => exact h
  | cons b as ih =>
    rw [unreplaced] at h
    split at h
    · exact .tail _ (ih h)
    · obtain rfl | h := List.mem_cons.1 h
      · exact .head _
      · exact .tail _ (ih h)

theorem exists_mem_unreplaced (h : a ∈ all) : ∃ b ∈ unreplaced all, b.spelling = a.spelling := by
  induction all generalizing a with
  | nil => cases h
  | cons c as ih =>
    rw [unreplaced]
    split
    case isTrue hc =>
      obtain rfl | h := List.mem_cons.1 h
      · obtain ⟨b, hb, hba⟩ := hc
        obtain ⟨d, hd, hdb⟩ := ih hb
        exact ⟨d, hd, hdb.trans hba⟩
      · exact ih h
    case isFalse hc =>
      obtain rfl | h := List.mem_cons.1 h
      · exact ⟨a, .head _, rfl⟩
      · obtain ⟨b, hb, hba⟩ := ih h
        exact ⟨b, .tail _ hb, hba⟩

/-- One more arrival takes the place of those with its spelling, at the end. -/
theorem unreplaced_append_singleton (all : List Agent) (a : Agent) :
    unreplaced (all ++ [a]) =
      (unreplaced all).filter (fun b => b.spelling ≠ a.spelling) ++ [a] := by
  induction all with
  | nil => rfl
  | cons b as ih =>
    rw [List.cons_append, unreplaced, unreplaced, ih]
    by_cases hb : ∃ c ∈ as, c.spelling = b.spelling
    · obtain ⟨c, hc, hcb⟩ := hb
      rw [if_pos ⟨c, List.mem_append_left _ hc, hcb⟩, if_pos ⟨c, hc, hcb⟩]
    · by_cases ha : a.spelling = b.spelling
      · rw [if_pos ⟨a, by simp, ha⟩, if_neg hb]
        simp [ha]
      · have hnone : ¬ ∃ c ∈ as ++ [a], c.spelling = b.spelling := by
          rintro ⟨c, hc, hcb⟩
          obtain hc | hc := List.mem_append.1 hc
          · exact hb ⟨c, hc, hcb⟩
          · exact ha (List.mem_singleton.1 hc ▸ hcb)
        rw [if_neg hnone, if_neg hb, List.filter_cons_of_pos (by simpa using Ne.symm ha),
          List.cons_append]

theorem unreplaced_eq_self (h : all.Pairwise fun a b => a.spelling ≠ b.spelling) :
    unreplaced all = all := by
  induction h with
  | nil => rfl
  | @cons a as hne _ ih =>
    have hnone : ¬ ∃ b ∈ as, b.spelling = a.spelling := fun ⟨b, hb, hba⟩ => hne b hb hba.symm
    rw [unreplaced, if_neg hnone, ih]

/-- **A roster holds the arrivals that no later one has replaced**, where the agents that it starts
with have different spellings and count as arrivals in their order. -/
theorem agents_registerAll (hr : r.agents.Pairwise fun a b => a.spelling ≠ b.spelling)
    (as : List Agent) : (r.registerAll as).agents = unreplaced (r.agents ++ as) := by
  induction as using List.reverseRecOn with
  | nil => rw [List.append_nil, unreplaced_eq_self hr]; rfl
  | append_singleton as a ih =>
    rw [← List.append_assoc, unreplaced_append_singleton, ← ih, registerAll, List.foldl_append]
    rfl

/-! ## What look-up answers -/

theorem find?_eq_find?_agents (r : Roster) (name : String) :
    r.find? name = r.agents.find? (·.IsCalled name) :=
  rfl

theorem exists_parts_of_find?_unreplaced
    (h : (unreplaced all).find? (·.IsCalled name) = some a) :
    ∃ before after, all = before ++ a :: after ∧ a.IsCalled name ∧
      (∀ b ∈ after, b.spelling ≠ a.spelling) ∧
      ∀ b ∈ before, b.IsCalled name → ∃ c ∈ a :: after, c.spelling = b.spelling := by
  induction all with
  | nil => cases h
  | cons x as ih =>
    rw [unreplaced] at h
    split at h
    case isTrue hx =>
      obtain ⟨before, after, rfl, ha, hafter, hbefore⟩ := ih h
      refine ⟨x :: before, after, rfl, ha, hafter,
        List.forall_mem_cons.2 ⟨fun hname => ?_, hbefore⟩⟩
      -- what replaced `x` has itself been replaced, unless it is the answer or behind it
      obtain ⟨c, hc, hcx⟩ := hx
      obtain hc | hc := List.mem_append.1 hc
      · obtain ⟨d, hd, hdc⟩ := hbefore c hc ((isCalled_iff_of_spelling_eq hcx name).2 hname)
        exact ⟨d, hd, hdc.trans hcx⟩
      · exact ⟨c, hc, hcx⟩
    case isFalse hx =>
      by_cases hname : x.IsCalled name
      · rw [List.find?_cons_of_pos (by simpa using hname)] at h
        obtain rfl := Option.some.inj h
        exact ⟨[], as, rfl, hname, fun b hb hba => hx ⟨b, hb, hba⟩, by simp⟩
      · rw [List.find?_cons_of_neg (by simpa using hname)] at h
        obtain ⟨before, after, rfl, ha, hafter, hbefore⟩ := ih h
        exact ⟨x :: before, after, rfl, ha, hafter,
          List.forall_mem_cons.2 ⟨fun h => absurd h hname, hbefore⟩⟩

theorem find?_unreplaced_of_parts {before after : List Agent} (ha : a.IsCalled name)
    (hafter : ∀ b ∈ after, b.spelling ≠ a.spelling)
    (hbefore : ∀ b ∈ before, b.IsCalled name → ∃ c ∈ a :: after, c.spelling = b.spelling) :
    (unreplaced (before ++ a :: after)).find? (·.IsCalled name) = some a := by
  induction before with
  | nil =>
    have hlast : ¬ ∃ b ∈ after, b.spelling = a.spelling := fun ⟨b, hb, hba⟩ => hafter b hb hba
    rw [List.nil_append, unreplaced, if_neg hlast, List.find?_cons_of_pos (by simpa using ha)]
  | cons x before ih =>
    obtain ⟨hx, hbefore⟩ := List.forall_mem_cons.1 hbefore
    rw [List.cons_append, unreplaced]
    split
    case isTrue => exact ih hbefore
    case isFalse hkept =>
      have hname : ¬ x.IsCalled name := by
        intro hname
        obtain ⟨c, hc, hcx⟩ := hx hname
        exact hkept ⟨c, List.mem_append_right _ hc, hcx⟩
      rw [List.find?_cons_of_neg (by simpa using hname)]
      exact ih hbefore

/-- **What look-up answers with**: the last arrival of its spelling, if of those before it that the
name means each has been replaced by it or by a later one. -/
theorem find?_unreplaced_eq_some_iff :
    (unreplaced all).find? (·.IsCalled name) = some a ↔
      ∃ before after, all = before ++ a :: after ∧ a.IsCalled name ∧
        (∀ b ∈ after, b.spelling ≠ a.spelling) ∧
        ∀ b ∈ before, b.IsCalled name → ∃ c ∈ a :: after, c.spelling = b.spelling := by
  refine ⟨exists_parts_of_find?_unreplaced, ?_⟩
  rintro ⟨before, after, rfl, ha, hafter, hbefore⟩
  exact find?_unreplaced_of_parts ha hafter hbefore

theorem find?_unreplaced_eq_none_iff :
    (unreplaced all).find? (·.IsCalled name) = none ↔ ∀ a ∈ all, ¬ a.IsCalled name := by
  simp only [List.find?_eq_none, decide_eq_true_eq]
  constructor
  · intro h a ha hname
    obtain ⟨b, hb, hba⟩ := exists_mem_unreplaced ha
    exact h b hb ((isCalled_iff_of_spelling_eq hba name).2 hname)
  · exact fun h a ha => h a (mem_of_mem_unreplaced ha)

theorem latest?_eq_none_iff : latest? all name = none ↔ ∀ a ∈ all, ¬ a.IsCalled name := by
  simp [latest?]

theorem latest?_eq_some_iff :
    latest? all name = some a ↔
      ∃ before after, all = before ++ a :: after ∧ a.IsCalled name ∧
        ∀ b ∈ after, ¬ b.IsCalled name := by
  simp [latest?, find?_reverse_eq_some_iff]

/-- An element stands for the last time in one place only. -/
theorem parts_eq_of_last {before before' after after' : List Agent}
    (h : before ++ a :: after = before' ++ a :: after') (ha : a ∉ after) (ha' : a ∉ after') :
    before = before' ∧ after = after' := by
  simp only [List.append_eq_append_iff, List.cons_eq_append_iff, List.cons_eq_cons] at h
  rcases h with ⟨c, rfl, ⟨rfl, -, rfl⟩ | ⟨d, rfl, rfl⟩⟩ | ⟨c, rfl, ⟨rfl, -, rfl⟩ | ⟨d, rfl, rfl⟩⟩
  all_goals simp_all

/-- If the name means nobody behind `a`, and each before `a` whom it means has been replaced by `a`
or by a later arrival, then all whom it means have the spelling of `a`. -/
theorem spelling_eq_of_last {before after : List Agent}
    (hbefore : ∀ b ∈ before, b.IsCalled name → ∃ c ∈ a :: after, c.spelling = b.spelling)
    (hafter : ∀ b ∈ after, ¬ b.IsCalled name) (hb : b ∈ before ++ a :: after)
    (hname : b.IsCalled name) : b.spelling = a.spelling := by
  obtain hb | hb := List.mem_append.1 hb
  · obtain ⟨c, hc, hcb⟩ := hbefore b hb hname
    obtain rfl | hc := List.mem_cons.1 hc
    · exact hcb.symm
    · exact absurd ((isCalled_iff_of_spelling_eq hcb name).2 hname) (hafter c hc)
  · obtain rfl | hb := List.mem_cons.1 hb
    · rfl
    · exact absurd hname (hafter b hb)

/-- **Look-up answers with the last arrival that the name means exactly where all arrivals that the
name means have one spelling.** -/
theorem find?_unreplaced_eq_latest?_iff :
    (unreplaced all).find? (·.IsCalled name) = latest? all name ↔
      ∀ a ∈ all, ∀ b ∈ all, a.IsCalled name → b.IsCalled name → a.spelling = b.spelling := by
  constructor
  · intro h
    cases hl : latest? all name with
    | none => exact fun a ha _ _ hname => absurd hname (latest?_eq_none_iff.1 hl a ha)
    | some z =>
      obtain ⟨before, after, rfl, -, hafter, hbefore⟩ :=
        find?_unreplaced_eq_some_iff.1 (h.trans hl)
      obtain ⟨before', after', hparts, hz, hafter'⟩ := latest?_eq_some_iff.1 hl
      obtain ⟨rfl, rfl⟩ := parts_eq_of_last hparts (fun hmem => hafter z hmem rfl)
        (fun hmem => hafter' z hmem hz)
      exact fun a ha b hb hna hnb => (spelling_eq_of_last hbefore hafter' ha hna).trans
        (spelling_eq_of_last hbefore hafter' hb hnb).symm
  · intro hone
    cases hf : (unreplaced all).find? (·.IsCalled name) with
    | none => exact (latest?_eq_none_iff.2 (find?_unreplaced_eq_none_iff.1 hf)).symm
    | some a =>
      obtain ⟨before, after, rfl, ha, hafter, -⟩ := find?_unreplaced_eq_some_iff.1 hf
      refine (latest?_eq_some_iff.2 ⟨before, after, rfl, ha, fun b hb hname => ?_⟩).symm
      exact hafter b hb (hone b (by simp [hb]) a (by simp) hname ha)

section Arrivals

variable (hr : r.agents.Pairwise fun a b => a.spelling ≠ b.spelling)
include hr

theorem find?_registerAll (as : List Agent) (name : String) :
    (r.registerAll as).find? name = (unreplaced (r.agents ++ as)).find? (·.IsCalled name) := by
  rw [find?_eq_find?_agents, agents_registerAll hr]

/-- **An agent that has just arrived** is found under its own name exactly where its spelling is
that of all whom this name means. -/
theorem find?_register_self_iff (as : List Agent) (a : Agent) :
    ((r.registerAll as).register a).find? a.name = some a ↔
      ∀ b ∈ r.agents ++ as, b.IsCalled a.name → b.spelling = a.spelling := by
  have hregister : (r.registerAll as).register a = r.registerAll (as ++ [a]) := by
    rw [registerAll, registerAll, List.foldl_append]
    rfl
  have hlast : latest? (r.agents ++ as ++ [a]) a.name = some a :=
    latest?_eq_some_iff.2 ⟨r.agents ++ as, [], rfl, rfl, by simp⟩
  rw [hregister, find?_registerAll hr, ← List.append_assoc, ← hlast,
    find?_unreplaced_eq_latest?_iff]
  constructor
  · exact fun hone b hb hname =>
      hone b (List.mem_append_left _ hb) a (List.mem_append_right _ (.head _)) hname rfl
  · intro hone
    have hall : ∀ b ∈ r.agents ++ as ++ [a], b.IsCalled a.name → b.spelling = a.spelling := by
      intro b hb hname
      obtain hb | hb := List.mem_append.1 hb
      · exact hone b hb hname
      · rw [List.mem_singleton.1 hb]
    exact fun b hb c hc hnb hnc => (hall b hb hnb).trans (hall c hc hnc).symm

end Arrivals

/-! ## The law for the two rosters that a shell starts from -/

theorem spelling_eq_of_ascii (ha : ∀ c ∈ a.name.toList, c.toNat < 0x80)
    (hb : ∀ c ∈ b.name.toList, c.toNat < 0x80) (hna : a.IsCalled name) (hnb : b.IsCalled name) :
    a.spelling = b.spelling := by
  rw [Agent.spelling, Agent.spelling, ← Text.lowercase_eq_lowercaseAscii ha,
    ← Text.lowercase_eq_lowercaseAscii hb]
  exact hna.trans hnb.symm

theorem pairwise_spelling_of_start (hr : r = {} ∨ r = family) :
    r.agents.Pairwise fun a b => a.spelling ≠ b.spelling := by
  obtain rfl | rfl := hr
  · exact .nil
  · decide +kernel

/-- **What look-up answers after any arrivals** in the empty roster or the family. There is no
answer where the name means nobody. Otherwise it is the last arrival of its spelling, and whoever
came before it and is meant too has been replaced. It is the last arrival of all that the name means
exactly where these have one spelling, as ASCII names do that differ in case only; and an agent that
has just arrived is found under its own name exactly where all whom this name means have its
spelling. -/
theorem find?_is_latest_iff_one_spelling (hr : r = {} ∨ r = family) (as : List Agent)
    (name : String) :
    let all := r.agents ++ as
    let found := (r.registerAll as).find? name
    (found = none ↔ ∀ a ∈ all, ¬ a.IsCalled name) ∧
      (∀ a, found = some a ↔ ∃ before after, all = before ++ a :: after ∧ a.IsCalled name ∧
        (∀ b ∈ after, b.spelling ≠ a.spelling) ∧
        ∀ b ∈ before, b.IsCalled name → ∃ c ∈ a :: after, c.spelling = b.spelling) ∧
      (found = latest? all name ↔
        ∀ a ∈ all, ∀ b ∈ all, a.IsCalled name → b.IsCalled name → a.spelling = b.spelling) ∧
      ((∀ a ∈ all, a.IsCalled name → ∀ c ∈ a.name.toList, c.toNat < 0x80) →
        found = latest? all name) ∧
      ∀ a, ((r.registerAll as).register a).find? a.name = some a ↔
        ∀ b ∈ all, b.IsCalled a.name → b.spelling = a.spelling := by
  have hdistinct := pairwise_spelling_of_start hr
  intro all found
  have hfound : found = (unreplaced all).find? (·.IsCalled name) := find?_registerAll hdistinct ..
  have hlatest : found = latest? all name ↔
      ∀ a ∈ all, ∀ b ∈ all, a.IsCalled name → b.IsCalled name → a.spelling = b.spelling := by
    rw [hfound, find?_unreplaced_eq_latest?_iff]
  refine ⟨?_, fun a => ?_, hlatest, fun hascii => ?_, find?_register_self_iff hdistinct as⟩
  · rw [hfound, find?_unreplaced_eq_none_iff]
  · rw [hfound, find?_unreplaced_eq_some_iff]
  · exact hlatest.2 fun a ha b hb hna hnb =>
      spelling_eq_of_ascii (hascii a ha hna) (hascii b hb hnb) hna hnb

/-- A second "Lyra" takes the place of the first, and "É" and "é" make no difference to it. -/
theorem find?_in_family_of_two_accents :
    let as : List Agent :=
      [⟨"Lyra", "second", "", []⟩, ⟨"É", "first", "", []⟩, ⟨"é", "second", "", []⟩]
    (family = {} ∨ family = family) ∧
      (family.registerAll as).find? "lyra" = some ⟨"Lyra", "second", "", []⟩ := by
  intro as
  have hascii : ∀ a ∈ family.agents ++ as, a.IsCalled "lyra" →
      a.name.toList.all (fun c => c.toNat < 0x80) = true := by decide +kernel
  have hlatest : latest? (family.agents ++ as) "lyra" = some ⟨"Lyra", "second", "", []⟩ := by
    decide +kernel
  have law := find?_is_latest_iff_one_spelling (r := family) (.inr rfl) as "lyra"
  exact ⟨.inr rfl, (law.2.2.2.1 fun a ha hn => by simpa using hascii a ha hn).trans hlatest⟩

/-- **The last arrival is not always found**: "é" does not replace "É", which stands first. -/
theorem find?_of_two_accents :
    let big : Agent := ⟨"É", "first", "", []⟩
    let small : Agent := ⟨"é", "second", "", []⟩
    let r := registerAll {} [big, small]
    big.IsCalled small.name ∧ latest? [big, small] small.name = some small ∧
      r.find? small.name = some big := by
  decide +kernel

end Roster

end AgentShell
