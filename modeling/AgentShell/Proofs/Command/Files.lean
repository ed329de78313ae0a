import AgentShell.Proofs.Command.Failure
import AgentShell.Proofs.Tree.Listing

/-!
# Looking at a path

Three commands look at the place that a path means from the working directory: `ls` and `cd` want a
directory there, and `cat` wants a file. They reach the tree in three ways, and yet they agree: what
is at the place decides which of them succeed. A command that fails quotes the path as it was typed
and says nothing else, so it answers the same wherever it fails. What `ls` lists can be followed by
the other two, with the name of an entry typed behind the path that was listed.

## Main definitions

* `Tree.kindAt?`: the kind of what is at a path
* `Command.Look`: the commands that look at a path, with the line that makes each look, the kind
  that it wants and what it answers
* `Interpreter.Succeeds`, `Interpreter.FailsWith`: how a line turns out
* `Output.Shows`: the output that is a text and nothing else

## Main results

* `Command.Look.hasError_answer_iff`, `Command.Look.answer_of_ne`: when a look fails, and what it
  answers then
* `Interpreter.execute_look`: a line that looks at a path
* `Interpreter.looks_succeed_by_kind`: these together
* `Command.shows_showFile`: a file is shown as it is stored
* `Interpreter.enter_entry`, `Interpreter.read_entry`: an entry that is followed
* `Interpreter.listed_entries_lead_on`: a listing, and where its entries lead
-/

namespace AgentShell

/-! ## What stands at a path -/

namespace Tree

variable {t : Tree} {path : String} {k : Node.Kind}

/-- The kind of what is at a path, none where nothing is. -/
def kindAt? (t : Tree) (path : String) : Option Node.Kind :=
  match t.lookup path with
  | .ok n => some n.kind
  | .error _ => none

theorem kindAt?_eq_some_iff :
    t.kindAt? path = some k ↔ ∃ n, t.lookup path = .ok n ∧ n.kind = k := by
  rw [kindAt?]
  cases t.lookup path <;> simp

theorem kindAt?_eq_directory_iff :
    t.kindAt? path = some .directory ↔ t.isDirectory path = true := by
  rw [kindAt?, isDirectory]
  cases t.lookup path <;> simp [Node.isDirectory]

theorem kindAt?_eq_file_iff :
    t.kindAt? path = some .file ↔ ∃ content, t.contentAt path = .ok content := by
  rw [kindAt?, contentAt]
  rcases t.lookup path with _ | _ | _ <;> simp [Node.kind]

end Tree

/-! ## The three commands that look at a path -/

namespace Command

/-- The commands that look at a path. -/
inductive Look where
  | list
  | enter
  | read
deriving DecidableEq, Repr

namespace Look

/-- The line that looks at a path. -/
def line (target : String) : Look → String
  | list => "ls " ++ target
  | enter => "cd " ++ target
  | read => "cat " ++ target

/-- The kind that a look wants to find. -/
def wants : Look → Node.Kind
  | list => .directory
  | enter => .directory
  | read => .file

/-- What a look answers. -/
def answer : Look → Workspace → String → Output
  | list => Command.list
  | enter => changeDirectory
  | read => showFile

/-- What a look answers if it does not find what it wants. -/
def refusal (target : String) : Look → Output
  | list => .ofError s!"Error: ls: cannot access '{target}': No such directory"
  | enter => .ofError s!"Error: cd: {target}: Not a directory or does not exist"
  | read => .ofError s!"Error: cat: {target}: No such file or is a directory"

variable {w : Workspace} {target : String}

theorem words_line (l : Look) (ht : Text.IsWord target) :
    ∃ c ∈ builtin, Text.words (l.line target) = [c.name, target] ∧
      ∀ ctx : Context, ctx.arguments = [target] →
        c.run ctx = .done (l.answer ctx.workspace target) := by
  cases l with
  | list =>
    have hwords := Text.words_pair (s := "ls") (by decide) ht
    refine ⟨ls, mem_builtin_iff.2 .ls, hwords, fun ctx hc => ?_⟩
    simp only [ls, hc, List.head?_cons, Option.getD_some, answer]
  | enter =>
    have hwords := Text.words_pair (s := "cd") (by decide) ht
    refine ⟨cd, mem_builtin_iff.2 .cd, hwords, fun ctx hc => ?_⟩
    simp only [cd, hc, List.head?_cons, Option.getD_some, answer]
  | read =>
    have hwords := Text.words_pair (s := "cat") (by decide) ht
    refine ⟨cat, mem_builtin_iff.2 .cat, hwords, fun ctx hc => ?_⟩
    simp only [cat, hc, List.head?_cons, answer]

theorem hasError_answer (l : Look) (h : w.tree.kindAt? (Path.resolve w.cwd target) = some l.wants) :
    (l.answer w target).hasError = false := by
  cases l with
  | list =>
    have hd := Tree.kindAt?_eq_directory_iff.1 h
    rw [answer, hasError_list hd]
  | enter =>
    have hd := Tree.kindAt?_eq_directory_iff.1 h
    rw [answer, changeDirectory_of_isDirectory hd]
    rfl
  | read =>
    obtain ⟨content, hc⟩ := Tree.kindAt?_eq_file_iff.1 h
    rw [answer, hasError_showFile hc]

/-- **A look that does not find what it wants** answers the same wherever it is made. -/
theorem answer_of_ne (l : Look) (h : w.tree.kindAt? (Path.resolve w.cwd target) ≠ some l.wants) :
    l.answer w target = l.refusal target := by
  cases l with
  | list =>
    have hd : w.tree.isDirectory (Path.resolve w.cwd target) = false := by
      simpa [wants, Tree.kindAt?_eq_directory_iff] using h
    rw [answer, list_of_not_isDirectory hd, refusal]
  | enter =>
    have hd : w.tree.isDirectory (Path.resolve w.cwd target) = false := by
      simpa [wants, Tree.kindAt?_eq_directory_iff] using h
    rw [answer, changeDirectory_of_not_isDirectory hd, refusal]
  | read =>
    have hc : ∀ content, w.tree.contentAt (Path.resolve w.cwd target) ≠ .ok content := by
      simpa [wants, Tree.kindAt?_eq_file_iff] using h
    rw [answer, showFile_of_no_content hc, refusal]

theorem hasError_refusal (l : Look) (target : String) : (l.refusal target).hasError = true := by
  cases l <;> rfl

/-- **A look succeeds** if and only if it finds what it wants. -/
theorem hasError_answer_iff (l : Look) :
    (l.answer w target).hasError = false ↔
      w.tree.kindAt? (Path.resolve w.cwd target) = some l.wants := by
  refine ⟨fun h => by_contra fun hne => ?_, l.hasError_answer⟩
  rw [l.answer_of_ne hne, hasError_refusal] at h
  cases h

end Look

end Command

/-! ## Which looks succeed -/

namespace Interpreter

open Command (Look)

variable {i i' : Interpreter} {g g' : Generator} {line target : String} {w w' : Workspace}
  {o o' : Output}

/-- The line comes to an output in which no error is reported. -/
def Succeeds (i : Interpreter) (g : Generator) (line : String) (w : Workspace) : Prop :=
  ∃ o, i.execute g line w = some o ∧ o.hasError = false

/-- The line comes to the output `o`, in which an error is reported. -/
def FailsWith (i : Interpreter) (g : Generator) (line : String) (w : Workspace) (o : Output) :
    Prop :=
  i.execute g line w = some o ∧ o.hasError = true

/-- **A line that looks at a path.** -/
theorem execute_look (hi : i.registry = .builtin) (l : Look) (ht : Text.IsWord target)
    (g : Generator) (w : Workspace) : i.execute g (l.line target) w = some (l.answer w target) := by
  obtain ⟨c, hc, hw, hrun⟩ := l.words_line ht
  refine execute_of_start ?_
  rw [start_of_name hi hw hc (Command.lowercase_name hc).symm, hrun _ rfl]

theorem succeeds_look_iff (hi : i.registry = .builtin) (l : Look) (ht : Text.IsWord target) :
    i.Succeeds g (l.line target) w ↔
      w.tree.kindAt? (Path.resolve w.cwd target) = some l.wants := by
  rw [Succeeds, execute_look hi l ht, ← l.hasError_answer_iff]
  simp

theorem failsWith_look_iff (hi : i.registry = .builtin) (l : Look) (ht : Text.IsWord target) :
    i.FailsWith g (l.line target) w o ↔
      w.tree.kindAt? (Path.resolve w.cwd target) ≠ some l.wants ∧ o = l.refusal target := by
  rw [FailsWith, execute_look hi l ht, Option.some.injEq]
  constructor
  · rintro ⟨rfl, he⟩
    have hne : w.tree.kindAt? (Path.resolve w.cwd target) ≠ some l.wants := by
      rw [ne_eq, ← l.hasError_answer_iff, he]
      simp
    exact ⟨hne, l.answer_of_ne hne⟩
  · rintro ⟨hne, rfl⟩
    exact ⟨l.answer_of_ne hne, l.hasError_refusal target⟩

theorem exists_failsWith_look_iff (hi : i.registry = .builtin) (l : Look)
    (ht : Text.IsWord target) :
    (∃ o, i.FailsWith g (l.line target) w o) ↔
      w.tree.kindAt? (Path.resolve w.cwd target) ≠ some l.wants := by
  simp [failsWith_look_iff hi l ht]

/-- **What is at a path decides which looks succeed**: a directory can be listed and entered but not
shown, with a file it is the other way round, and where nothing is each look fails. A look that
fails answers the same in all surroundings: what stood in its way cannot be told from the answer. -/
theorem looks_succeed_by_kind (ht : Text.IsWord target) :
    (∀ (i : Interpreter) (g : Generator) (w : Workspace), i.registry = .builtin →
      (w.tree.kindAt? (Path.resolve w.cwd target) = some .directory ↔
        i.Succeeds g ("ls " ++ target) w ∧ i.Succeeds g ("cd " ++ target) w ∧
          ∃ o, i.FailsWith g ("cat " ++ target) w o) ∧
      (w.tree.kindAt? (Path.resolve w.cwd target) = some .file ↔
        (∃ o, i.FailsWith g ("ls " ++ target) w o) ∧ (∃ o, i.FailsWith g ("cd " ++ target) w o) ∧
          i.Succeeds g ("cat " ++ target) w) ∧
      (w.tree.kindAt? (Path.resolve w.cwd target) = none ↔
        (∃ o, i.FailsWith g ("ls " ++ target) w o) ∧ (∃ o, i.FailsWith g ("cd " ++ target) w o) ∧
          ∃ o, i.FailsWith g ("cat " ++ target) w o)) ∧
    ∀ (l : Look) (i i' : Interpreter) (g g' : Generator) (w w' : Workspace) (o o' : Output),
      i.registry = .builtin → i'.registry = .builtin →
        i.FailsWith g (l.line target) w o → i'.FailsWith g' (l.line target) w' o' → o = o' := by
  refine ⟨?_, ?_⟩
  · intro i g w hi
    have hs (l : Look) := succeeds_look_iff (g := g) (w := w) hi l ht
    have hf (l : Look) := exists_failsWith_look_iff (g := g) (w := w) hi l ht
    have hlist := And.intro (hs .list) (hf .list)
    have henter := And.intro (hs .enter) (hf .enter)
    have hread := And.intro (hs .read) (hf .read)
    simp only [Look.line, Look.wants] at hlist henter hread
    rw [hlist.1, hlist.2, henter.1, henter.2, hread.1, hread.2]
    rcases w.tree.kindAt? (Path.resolve w.cwd target) with _ | _ | _ <;> simp
  · intro l i i' g g' w w' o o' hi hi' h h'
    rw [((failsWith_look_iff hi l ht).1 h).2, ((failsWith_look_iff hi' l ht).1 h').2]

/-- `a/b` cannot be shown for three reasons: nothing is there, the way goes through a file, or there
is a directory. The answer does not tell which, but at the directory the other looks succeed. -/
theorem looks_succeed_by_kind_of_three_obstacles :
    let i : Interpreter := {}
    let missing : Workspace := ⟨⟨.directory [("a", .directory [])]⟩, "/", "/"⟩
    let through : Workspace := ⟨⟨.directory [("a", .file "b")]⟩, "/", "/"⟩
    let directory : Workspace :=
      ⟨⟨.directory [("d", .directory [("a", .directory [("b", .directory [])])])]⟩, "/d", "/"⟩
    let o : Output := .ofError "Error: cat: a/b: No such file or is a directory"
    Text.IsWord "a/b" ∧ i.registry = .builtin ∧
      i.FailsWith (.persona 0) "cat a/b" missing o ∧
      i.FailsWith (.persona 7) "cat a/b" through o ∧
      i.FailsWith (.persona 7) "cat a/b" directory o ∧
      (∃ o', i.FailsWith (.persona 7) "ls a/b" through o') ∧
      i.Succeeds (.persona 7) "ls a/b" directory ∧ i.Succeeds (.persona 7) "cd a/b" directory := by
  intro i missing through directory o
  have ht : Text.IsWord "a/b" := by decide
  have hi : i.registry = .builtin := rfl
  have hmissing : missing.tree.kindAt? (Path.resolve missing.cwd "a/b") ≠ some .file := by
    decide +kernel
  have hthrough : through.tree.kindAt? (Path.resolve through.cwd "a/b") = none := by
    decide +kernel
  have hdirectory :
      directory.tree.kindAt? (Path.resolve directory.cwd "a/b") = some .directory := by
    decide +kernel
  have hls : "ls " ++ "a/b" = "ls a/b" := by decide
  have hcd : "cd " ++ "a/b" = "cd a/b" := by decide
  have hcat : Look.read.line "a/b" = "cat a/b" := by decide
  have ho : o = Look.read.refusal "a/b" := by decide
  have hm : i.FailsWith (.persona 0) (Look.read.line "a/b") missing o :=
    (failsWith_look_iff hi .read ht).2 ⟨hmissing, ho⟩
  obtain ⟨hkind, hsame⟩ := looks_succeed_by_kind ht
  obtain ⟨hlist, -, ot, hot⟩ := (hkind i (.persona 7) through hi).2.2.1 hthrough
  obtain ⟨hl, he, od, hod⟩ := (hkind i (.persona 7) directory hi).1.1 hdirectory
  have hto := hsame .read i i (.persona 0) (.persona 7) missing through o ot hi hi hm hot
  have hdo := hsame .read i i (.persona 0) (.persona 7) missing directory o od hi hi hm hod
  rw [← hto] at hot
  rw [← hdo] at hod
  rw [← hcat, ← hls, ← hcd]
  exact ⟨ht, hi, hm, hot, hod, hlist, hl, he⟩

end Interpreter

/-! ## What a look shows -/

namespace Output

/-- The output is a text and nothing else: it has the lines of the text, which are the text again
with a line feed between any two. -/
def Shows (o : Output) (content : String) : Prop :=
  o.effects = [] ∧ ∃ texts : List String, o.lines = texts.map .text ∧
    (∀ s ∈ texts, '\n' ∉ s.toList) ∧ "\n".intercalate texts = content

variable {o : Output} {content : String}

theorem Shows.hasError_eq_false (h : o.Shows content) : o.hasError = false := by
  obtain ⟨-, texts, hl, -⟩ := h
  rw [hasError, hl]
  exact hasError_texts texts fun s => s

end Output

namespace Command

variable {w : Workspace} {target content : String} {entries : List Entry}

/-- **A file is shown as it is stored.** -/
theorem shows_showFile (h : w.tree.contentAt (Path.resolve w.cwd target) = .ok content) :
    (showFile w target).Shows content := by
  unfold showFile
  rw [h]
  refine ⟨rfl, (content.toList.splitOn '\n').map String.ofList, by simp, ?_, ?_⟩
  · rw [List.forall_mem_map]
    intro piece hp
    rw [String.toList_ofList]
    exact Path.not_mem_of_mem_splitOn hp
  · have hid : String.toList ∘ String.ofList = id := funext fun _ => String.toList_ofList
    rw [← String.toList_inj, String.toList_intercalate, List.map_map, hid, List.map_id]
    exact List.intercalate_splitOn '\n'

/-- An output with a listing in it is this listing, of the entries that are read. -/
theorem list_of_listing_mem (h : .listing entries ∈ (list w target).lines) :
    list w target = { lines := [.listing entries] } ∧
      w.tree.entriesAt (Path.resolve w.cwd target) = .ok entries := by
  unfold list at h ⊢
  revert h
  cases w.tree.entriesAt (Path.resolve w.cwd target) with
  | error e =>
    intro h
    cases List.mem_singleton.1 h
  | ok es =>
    cases es with
    | nil =>
      intro h
      cases List.mem_singleton.1 h
    | cons e es =>
      intro h
      obtain rfl := OutputLine.listing.inj (List.mem_singleton.1 h)
      exact ⟨rfl, rfl⟩

end Command

/-! ## The entries of a listing, followed -/

namespace Interpreter

open Command (Look)

variable {i : Interpreter} {g : Generator} {w : Workspace} {t name : String} {n : Node} {o : Output}
  {entries : List Entry}

section Follow

variable (hi : i.registry = .builtin) (ht : Text.IsWord t) (hn : isEntryName name = true)
  (hb : name.toList.any Text.isBlank = false)
  (h : w.tree.lookup (Path.join (Path.resolve w.cwd t) name) = .ok n)

include ht hn h in
/-- What is found where an entry is typed behind the path of its directory. -/
theorem kindAt?_resolve_entry :
    w.tree.kindAt? (Path.resolve w.cwd (t ++ "/" ++ name)) = some n.kind := by
  rw [Path.resolve_append_entry ht.1 hn]
  exact Tree.kindAt?_eq_some_iff.2 ⟨n, h, rfl⟩

include ht hb in
theorem isWord_entry : Text.IsWord (t ++ "/" ++ name) :=
  (ht.append (by decide)).append hb

include hi ht hn hb h

/-- **An entry that is followed with `cd`.** -/
theorem enter_entry :
    ∃ o, i.execute g ("cd " ++ (t ++ "/" ++ name)) w = some o ∧
      (o.hasError = false ↔ n.kind = .directory) ∧
      (o.hasError = false →
        (w.applyAll o.effects).cwd = Path.join (Path.resolve w.cwd t) name) := by
  have hkind := kindAt?_resolve_entry ht hn h
  have herr : (Look.enter.answer w (t ++ "/" ++ name)).hasError = false ↔ n.kind = .directory := by
    rw [Look.enter.hasError_answer_iff, hkind, Option.some.injEq, Look.wants]
  refine ⟨_, execute_look hi .enter (isWord_entry ht hb) g w, herr, fun ho => ?_⟩
  have hd : w.tree.isDirectory (Path.resolve w.cwd (t ++ "/" ++ name)) = true := by
    rw [← Tree.kindAt?_eq_directory_iff, hkind, herr.1 ho]
  rw [← Path.resolve_append_entry ht.1 hn, Look.answer,
    Command.changeDirectory_of_isDirectory hd, Output.ofEffect, Workspace.applyAll_cons,
    Workspace.applyAll_nil, Workspace.apply_of_isDirectory hd]

/-- **An entry that is followed with `cat`.** -/
theorem read_entry :
    ∃ o, i.execute g ("cat " ++ (t ++ "/" ++ name)) w = some o ∧
      (o.hasError = false ↔ n.kind = .file) ∧
      ((∃ content, n = .file content ∧ o.Shows content) ↔ n.kind = .file) := by
  have hkind := kindAt?_resolve_entry ht hn h
  have herr : (Look.read.answer w (t ++ "/" ++ name)).hasError = false ↔ n.kind = .file := by
    rw [Look.read.hasError_answer_iff, hkind, Option.some.injEq, Look.wants]
  refine ⟨_, execute_look hi .read (isWord_entry ht hb) g w, herr, ?_, ?_⟩
  · rintro ⟨content, -, hs⟩
    exact herr.1 hs.hasError_eq_false
  · intro hf
    cases n with
    | directory es => cases hf
    | file content =>
      have hc : w.tree.contentAt (Path.resolve w.cwd (t ++ "/" ++ name)) = .ok content := by
        rw [Path.resolve_append_entry ht.1 hn, Tree.contentAt, h]
      refine ⟨content, rfl, ?_⟩
      rw [Look.answer]
      exact Command.shows_showFile hc

end Follow

/-- **What is listed can be followed.** A listing has the entries of the directory at the path, each
once, in the order of the octets of their names; they are what is found one name further on. Where
the name of an entry can be typed, it is followed behind the path that was listed: with `cd`, which
moves there, if and only if it is a directory, and with `cat`, which shows the file as it is stored,
if and only if it is a file. -/
theorem listed_entries_lead_on (hi : i.registry = .builtin) (hw : w.tree.WellFormed)
    (ht : Text.IsWord t) (ho : i.execute g ("ls " ++ t) w = some o)
    (hl : .listing entries ∈ o.lines) :
    let dir := Path.resolve w.cwd t
    (o = { lines := [.listing entries] } ∧
      ∃ es, w.tree.lookup dir = .ok (.directory es) ∧ entries = es.map fun e => ⟨e.1, e.2.kind⟩) ∧
    (entries.Pairwise fun a b => Text.octets a.name < Text.octets b.name) ∧
    (∀ e : Entry, e ∈ entries ↔ isEntryName e.name = true ∧
      ∃ n, w.tree.lookup (Path.join dir e.name) = .ok n ∧ n.kind = e.kind) ∧
    ∀ e ∈ entries, e.name.toList.any Text.isBlank = false →
      (∃ o, i.execute g ("cd " ++ (t ++ "/" ++ e.name)) w = some o ∧
        (o.hasError = false ↔ e.kind = .directory) ∧
        (o.hasError = false → (w.applyAll o.effects).cwd = Path.join dir e.name)) ∧
      ∃ o, i.execute g ("cat " ++ (t ++ "/" ++ e.name)) w = some o ∧
        (o.hasError = false ↔ e.kind = .file) ∧
        ((∃ content, w.tree.lookup (Path.join dir e.name) = .ok (.file content) ∧
          o.Shows content) ↔ e.kind = .file) := by
  intro dir
  have hanswer := execute_look hi .list ht g w
  rw [Look.line, ho, Option.some.injEq, Look.answer] at hanswer
  rw [hanswer] at hl
  obtain ⟨hout, hentries⟩ := Command.list_of_listing_mem hl
  rw [← hanswer] at hout
  obtain ⟨es, hg, rfl⟩ := Tree.entriesAt_eq_ok_iff.1 hentries
  have hdir : w.tree.lookup dir = .ok (.directory es) := Tree.lookup_eq_ok_iff.2 hg
  have hmem (e : Entry) : e ∈ es.map (fun e => (⟨e.1, e.2.kind⟩ : Entry)) ↔
      isEntryName e.name = true ∧
        ∃ n, w.tree.lookup (Path.join dir e.name) = .ok n ∧ n.kind = e.kind := by
    obtain ⟨name, kind⟩ := e
    rw [List.mem_map]
    constructor
    · rintro ⟨⟨_, n⟩, hm, ⟨⟩⟩
      obtain ⟨hn, hlook⟩ := (hw.mem_directory_iff hdir).1 hm
      exact ⟨hn, n, hlook, rfl⟩
    · rintro ⟨hn, n, hlook, rfl⟩
      exact ⟨(name, n), (hw.mem_directory_iff hdir).2 ⟨hn, hlook⟩, rfl⟩
  refine ⟨⟨hout, es, hdir, rfl⟩, List.pairwise_map.2 (hw.pairwise_names hdir), hmem, ?_⟩
  intro e he hb
  obtain ⟨hn, n, hlook, hk⟩ := (hmem e).1 he
  rw [← hk, hlook]
  simp only [Except.ok.injEq]
  exact ⟨enter_entry hi ht hn hb hlook, read_entry hi ht hn hb hlook⟩

/-- A listing by a path that leads above the root, with a directory whose name is three dots. It is
entered behind that path, and not shown; a file in the listing is shown with its empty lines. -/
theorem listed_entries_lead_on_of_three_dots :
    let i : Interpreter := {}
    let tree := Tree.empty.changeAll [.writeFile "/d/f" "x\n\ny\n", .createDirectories "/d/...",
      .writeFile "/d/g h" ""]
    let w : Workspace := ⟨tree, "/d", "/"⟩
    let o : Output :=
      { lines := [.listing [⟨"...", .directory⟩, ⟨"f", .file⟩, ⟨"g h", .file⟩]] }
    i.registry = .builtin ∧ tree.WellFormed ∧ Text.IsWord "../../d/." ∧
      i.execute (.persona 0) "ls ../../d/." w = some o ∧
      (∃ o, i.execute (.persona 0) "cd ../../d/./..." w = some o ∧
        (w.applyAll o.effects).cwd = "/d/...") ∧
      (∃ o, i.execute (.persona 0) "cat ../../d/./..." w = some o ∧ o.hasError = true) ∧
      ∃ o, i.execute (.persona 0) "cat ../../d/./f" w = some o ∧ o.Shows "x\n\ny\n" := by
  intro i tree w o
  have hi : i.registry = .builtin := rfl
  have hw : tree.WellFormed := Tree.wellFormed_empty.changeAll (by simp [Tree.Change.Sound])
  have ht : Text.IsWord "../../d/." := by decide
  have hout : Look.list.answer w "../../d/." = o := by decide +kernel
  have hls := execute_look hi .list ht (.persona 0) w
  rw [hout, show Look.list.line "../../d/." = "ls ../../d/." by decide] at hls
  obtain ⟨-, -, -, hfollow⟩ := listed_entries_lead_on hi hw ht hls (List.mem_singleton_self _)
  have hjoin : Path.join (Path.resolve w.cwd "../../d/.") "..." = "/d/..." := by decide +kernel
  have hstored : tree.lookup (Path.join (Path.resolve w.cwd "../../d/.") "f") =
      .ok (.file "x\n\ny\n") := by decide +kernel
  obtain ⟨⟨entered, hentered, hdir, hmoves⟩, refused, hrefused, hfile, -⟩ :=
    hfollow ⟨"...", .directory⟩ (by simp) (by decide)
  obtain ⟨-, shown, hshown, -, hshows⟩ := hfollow ⟨"f", .file⟩ (by simp) (by decide)
  obtain ⟨content, hcontent, hs⟩ := hshows.2 rfl
  obtain rfl := Node.file.inj (Except.ok.inj (hstored.symm.trans hcontent))
  refine ⟨hi, hw, ht, hls, ⟨entered, hentered, ?_⟩, ⟨refused, hrefused, ?_⟩, shown, hshown, hs⟩
  · rw [hmoves (hdir.2 rfl), hjoin]
  · simpa using hfile

end Interpreter

end AgentShell
