import AgentShell.Proofs.Command.Files

/-!
# One step after another

To go somewhere in steps is to go there at once: a relative path that is resolved where another path
leads comes to the same as both with a slash between them, wherever segments `..` stand and however
often they reach the root. So a session that takes one `cd` after another is where a single `cd`
takes it, with all the paths behind each other. The single `cd` may go further, since nothing has to
be on its way.

## Main definitions

* `Workspace.StepsTo`: a `cd` that succeeds
* `Workspace.WalksTo`: one such step after another

## Main results

* `Path.resolve_resolve_of_relative`: a relative path, seen from where another leads
* `Workspace.stepsTo_iff`: when a `cd` succeeds, and where it leads
* `Workspace.StepsTo.trans`, `Workspace.WalksTo.stepsTo`: two steps, or any number, taken at once
* `Workspace.steps_lead_where_one_leads`: these together
-/

namespace AgentShell

theorem Text.IsWord.append_slash {a b : String} (ha : IsWord a) (hb : IsWord b) :
    IsWord (a ++ "/" ++ b) :=
  (ha.append (by decide)).append hb.2

/-- **A relative path, seen from where another leads.** -/
theorem Path.resolve_resolve_of_relative {a b : String} (ha : a ≠ "") (hb : isAbsolute b = false)
    (cwd : String) : resolve (resolve cwd a) b = resolve cwd (a ++ "/" ++ b) := by
  have hn : normalize (segments (resolve cwd a)) = segments (resolve cwd a) :=
    normalize_of_forall_isEntryName fun _ => isEntryName_of_mem_segments_resolve
  rw [resolve_append_slash ha, resolve, if_neg (by simp [hb]), segments_append_slash,
    normalize_append, hn]

namespace Workspace

/-- **A step**: a `cd` without an error leads from one workspace to another. -/
def StepsTo (i : Interpreter) (g : Generator) (w : Workspace) (target : String) (w' : Workspace) :
    Prop :=
  ∃ o, i.execute g ("cd " ++ target) w = some o ∧ o.hasError = false ∧ w' = w.applyAll o.effects

/-- **A walk**: one step after another. -/
inductive WalksTo (i : Interpreter) (g : Generator) :
    Workspace → List String → Workspace → Prop where
  | stay {w} : WalksTo i g w [] w
  | step {w target w' targets w''} (first : StepsTo i g w target w')
      (rest : WalksTo i g w' targets w'') : WalksTo i g w (target :: targets) w''

variable {i : Interpreter} {g : Generator} {w w' w'' : Workspace} {a b : String} {bs : List String}

section Steps

variable (hi : i.registry = .builtin) (ha : Text.IsWord a)

include hi ha

/-- **A step is possible** if and only if there is a directory at its path, and it leads there. -/
theorem stepsTo_iff :
    StepsTo i g w a w' ↔ w.tree.isDirectory (Path.resolve w.cwd a) = true ∧
      w' = { w with cwd := Path.resolve w.cwd a } := by
  have hanswer := Interpreter.execute_look hi .enter ha g w
  have hkind : (Command.Look.enter.answer w a).hasError = false ↔
      w.tree.isDirectory (Path.resolve w.cwd a) = true := by
    rw [Command.Look.enter.hasError_answer_iff, Command.Look.wants, Tree.kindAt?_eq_directory_iff]
  have hmoves (hd : w.tree.isDirectory (Path.resolve w.cwd a) = true) :
      w.applyAll (Command.Look.enter.answer w a).effects =
        { w with cwd := Path.resolve w.cwd a } := by
    rw [Command.Look.answer, Command.changeDirectory_of_isDirectory hd, Output.ofEffect,
      applyAll_cons, applyAll_nil, apply_of_isDirectory hd]
  constructor
  · rintro ⟨o, ho, he, rfl⟩
    obtain rfl := Option.some.inj (hanswer.symm.trans ho)
    exact ⟨hkind.1 he, hmoves (hkind.1 he)⟩
  · rintro ⟨hd, rfl⟩
    exact ⟨_, hanswer, hkind.2 hd, (hmoves hd).symm⟩

/-- **Two steps taken at once.** -/
theorem StepsTo.trans (h : StepsTo i g w a w') (hb : Text.IsWord b)
    (hrel : Path.isAbsolute b = false) (h' : StepsTo i g w' b w'') :
    StepsTo i g w (a ++ "/" ++ b) w'' := by
  obtain ⟨-, rfl⟩ := (stepsTo_iff hi ha).1 h
  obtain ⟨hd, rfl⟩ := (stepsTo_iff hi hb).1 h'
  rw [Path.resolve_resolve_of_relative ha.1 hrel] at hd ⊢
  exact (stepsTo_iff hi (ha.append_slash hb)).2 ⟨hd, rfl⟩

/-- **A walk taken at once**: the paths of its steps behind each other, with slashes in between. -/
theorem WalksTo.stepsTo (hbs : ∀ b ∈ bs, Text.IsWord b ∧ Path.isAbsolute b = false)
    (h : WalksTo i g w (a :: bs) w') :
    StepsTo i g w (bs.foldl (fun path b => path ++ "/" ++ b) a) w' := by
  -- Induction on the later steps: the first two of them become one.
  induction bs generalizing a with
  | nil =>
    cases h with
    | step first rest =>
      cases rest
      exact first
  | cons b bs ih =>
    obtain ⟨⟨hb, hrel⟩, hbs⟩ := List.forall_mem_cons.1 hbs
    cases h with
    | step first rest =>
      cases rest with
      | step second rest =>
        exact ih (ha.append_slash hb) hbs (.step (first.trans hi ha hb hrel second) rest)

end Steps

/-- **Steps lead where a single step leads.** A relative path that is resolved where another path
leads is both paths with a slash between them, resolved at once; an absolute path leads to the same
place from everywhere. So two `cd` that succeed one after the other, the second with a relative
path, do what a single one does with both paths, and so do any number of them. -/
theorem steps_lead_where_one_leads :
    (∀ cwd a b, a ≠ "" → Path.isAbsolute b = false →
      Path.resolve (Path.resolve cwd a) b = Path.resolve cwd (a ++ "/" ++ b)) ∧
    (∀ cwd cwd' b, Path.isAbsolute b = true → Path.resolve cwd b = Path.resolve cwd' b) ∧
    ∀ (i : Interpreter) (g : Generator) (w : Workspace) (a : String), i.registry = .builtin →
      Text.IsWord a →
      (∀ w' b w'', Text.IsWord b → Path.isAbsolute b = false →
        StepsTo i g w a w' → StepsTo i g w' b w'' →
          StepsTo i g w (a ++ "/" ++ b) w'' ∧ w''.cwd = Path.resolve w.cwd (a ++ "/" ++ b)) ∧
      ∀ bs w', (∀ b ∈ bs, Text.IsWord b ∧ Path.isAbsolute b = false) →
        WalksTo i g w (a :: bs) w' →
          StepsTo i g w (bs.foldl (fun path b => path ++ "/" ++ b) a) w' := by
  refine ⟨?_, ?_, ?_⟩
  · intro cwd a b ha hb
    exact Path.resolve_resolve_of_relative ha hb cwd
  · intro cwd cwd' b hb
    rw [Path.resolve_of_isAbsolute hb, Path.resolve_of_isAbsolute hb cwd']
  · intro i g w a hi ha
    refine ⟨?_, fun bs w' hbs h => h.stepsTo hi ha hbs⟩
    intro w' b w'' hb hrel first second
    have hboth := first.trans hi ha hb hrel second
    refine ⟨hboth, ?_⟩
    rw [((stepsTo_iff hi (ha.append_slash hb)).1 hboth).2]

/-- A walk that goes up beyond the root on its way, and then down and up again. -/
theorem steps_lead_where_one_leads_beyond_root :
    let i : Interpreter := {}
    let g := Generator.persona 0
    let tree : Tree := ⟨.directory [("a", .directory [("b", .directory [])])]⟩
    let w (cwd : String) : Workspace := ⟨tree, cwd, "/a"⟩
    i.registry = .builtin ∧
      Path.resolve (Path.resolve "/a/b" "../../..") "a/./b" = "/a/b" ∧
      Path.resolve "/a/b" "../../../a/./b" = "/a/b" ∧
      Path.resolve "a" "/b//.." = Path.resolve "/c/d" "/b//.." ∧
      StepsTo i g (w "/a") "../../.." (w "/") ∧ StepsTo i g (w "/") "a/./b" (w "/a/b") ∧
      StepsTo i g (w "/a") "../../../a/./b" (w "/a/b") ∧
      WalksTo i g (w "/a") ["../../..", "a/./b", ".."] (w "/a") ∧
      StepsTo i g (w "/a") "../../../a/./b/.." (w "/a") := by
  intro i g tree w
  have hi : i.registry = .builtin := rfl
  have hup : Text.IsWord "../../.." := by decide
  have hdown : Text.IsWord "a/./b" ∧ Path.isAbsolute "a/./b" = false := by decide
  have hback : Text.IsWord ".." ∧ Path.isAbsolute ".." = false := by decide
  have hstep (cwd target cwd' : String) (ht : Text.IsWord target)
      (hd : tree.isDirectory cwd' = true) (hr : Path.resolve cwd target = cwd') :
      StepsTo i g (w cwd) target (w cwd') := by
    subst hr
    exact (stepsTo_iff hi ht).2 ⟨hd, rfl⟩
  have first := hstep "/a" "../../.." "/" hup (by decide +kernel) (by decide +kernel)
  have second := hstep "/" "a/./b" "/a/b" hdown.1 (by decide +kernel) (by decide +kernel)
  have third := hstep "/a/b" ".." "/a" hback.1 (by decide +kernel) (by decide +kernel)
  have walk : WalksTo i g (w "/a") ["../../..", "a/./b", ".."] (w "/a") :=
    .step first (.step second (.step third .stay))
  obtain ⟨hresolve, habsolute, hsteps⟩ := steps_lead_where_one_leads
  obtain ⟨htwo, hall⟩ := hsteps i g (w "/a") "../../.." hi hup
  have hpath := hresolve "/a/b" "../../.." "a/./b" (by decide) hdown.2
  have hvalue : Path.resolve "/a/b" "../../../a/./b" = "/a/b" := by decide +kernel
  exact ⟨hi, hpath.trans hvalue, hvalue, habsolute "a" "/c/d" "/b//.." (by decide), first, second,
    (htwo _ _ _ hdown.1 hdown.2 first second).1, walk,
    hall ["a/./b", ".."] _ (by simp [hdown, hback]) walk⟩

end Workspace

end AgentShell
