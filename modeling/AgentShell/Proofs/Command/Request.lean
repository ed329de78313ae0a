import AgentShell.Command.Task
import AgentShell.Proofs.Text.Words

/-!
# The request of a line

A line is looked at twice: it is cut into words to find its command, and a task reads the line once
more to find its agent and its prompt. Both begin with the same word, so the agent is the first
argument of the line. The prompt stands between the first two quotes behind the verb, as it is.

## Main definitions

* `Task.BetweenQuotes`: what stands between the first two quotes of a text

## Main results

* `Task.exists_eq_append_behindVerb`: what a task reads stands behind the verb
* `Task.firstQuoted?_eq_some_iff`: the text between the first two quotes
* `Task.Request.parse_eq_ok_iff`: the request of a line with a verb
* `Task.words_behindVerb`, `Task.firstQuoted?_behindVerb_eq_some_iff`: what a task reads, by the
  words of the line and the quotes behind the first of them
* `Task.Request.parse_by_words_and_quotes`: when a line is a request, and why it is none
-/

namespace AgentShell.Task

open Text (words isBlank)

variable {line verb text prompt : String} {arguments : List String} {blanks w rest : List Char}
  {request : Request}

/-! ## Behind the verb -/

theorem behindVerb_of_parts (hl : line.toList = blanks ++ w ++ rest)
    (hb : ∀ c ∈ blanks, isBlank c = true) (hne : w ≠ []) (hw : ∀ c ∈ w, isBlank c = false)
    (hr : ∀ c ∈ rest.head?, isBlank c = true) : behindVerb line = String.ofList rest := by
  have hfirst : (w ++ rest).dropWhile isBlank = w ++ rest := by
    obtain ⟨c, cs, rfl⟩ := List.exists_cons_of_ne_nil hne
    rw [List.cons_append, List.dropWhile_cons_of_neg]
    simpa using hw c List.mem_cons_self
  have hrest : rest.dropWhile (fun c => !isBlank c) = rest := by
    cases rest with
    | nil => rfl
    | cons c cs =>
      rw [List.dropWhile_cons_of_neg]
      simpa using hr c rfl
  rw [behindVerb, Text.toList_trimStart, hl, List.append_assoc, List.dropWhile_append_of_pos hb,
    hfirst, List.dropWhile_append_of_pos (fun c hc => by simpa using hw c hc), hrest]

/-- **What a task reads of a line stands behind the verb**, and its words are the arguments. -/
theorem exists_eq_append_behindVerb (h : words line = verb :: arguments) :
    (∃ blanks, line.toList = blanks ++ verb.toList ++ (behindVerb line).toList ∧
      (∀ c ∈ blanks, isBlank c = true) ∧ ∀ c ∈ verb.toList, isBlank c = false) ∧
      words (behindVerb line) = arguments := by
  obtain ⟨blanks, rest, hl, hb, hne, hw, hr, ha⟩ := Text.exists_parts_of_words_eq_cons h
  rw [behindVerb_of_parts hl hb hne hw hr, String.toList_ofList]
  exact ⟨⟨blanks, hl, hb, hw⟩, ha⟩

/-! ## The first quoted text -/

section Quote

variable {cs front tail : List Char} {c : Char}

/-- A text is what stands in front of its first quote, and what stands from there. -/
theorem eq_of_dropWhile_quote (h : cs.dropWhile (· != '"') = c :: tail) :
    cs = cs.takeWhile (· != '"') ++ '"' :: tail := by
  have hc := List.head?_dropWhile_not (· != '"') cs
  rw [h] at hc
  obtain rfl : c = '"' := by simpa using hc
  rw [← h, List.takeWhile_append_dropWhile]

theorem not_mem_takeWhile_quote (cs : List Char) : '"' ∉ cs.takeWhile (· != '"') := by
  intro h
  simpa using List.mem_takeWhile_imp h

theorem dropWhile_quote (h : '"' ∉ front) (tail : List Char) :
    (front ++ '"' :: tail).dropWhile (· != '"') = '"' :: tail := by
  rw [List.dropWhile_append_of_pos fun c hc => by simpa using ne_of_mem_of_not_mem hc h,
    List.dropWhile_cons_of_neg (by simp)]

theorem takeWhile_quote (h : '"' ∉ front) (tail : List Char) :
    (front ++ '"' :: tail).takeWhile (· != '"') = front := by
  rw [List.takeWhile_append_of_pos fun c hc => by simpa using ne_of_mem_of_not_mem hc h,
    List.takeWhile_cons_of_neg (by simp), List.append_nil]

end Quote

/-- **The text between the first two quotes.** -/
theorem firstQuoted?_eq_some_iff :
    firstQuoted? text = some prompt ↔
      ∃ front tail, text.toList = front ++ '"' :: (prompt.toList ++ '"' :: tail) ∧
        '"' ∉ front ∧ '"' ∉ prompt.toList := by
  constructor
  · intro h
    rw [firstQuoted?] at h
    cases hopen : text.toList.dropWhile (· != '"') with
    | nil => simp [hopen] at h
    | cons c body =>
      cases hclose : body.dropWhile (· != '"') with
      | nil => simp [hopen, hclose] at h
      | cons d tail =>
        simp only [hopen, hclose, Option.some.injEq] at h
        refine ⟨text.toList.takeWhile (· != '"'), tail, ?_, not_mem_takeWhile_quote _, ?_⟩
        · rw [← h, String.toList_ofList, ← eq_of_dropWhile_quote hclose]
          exact eq_of_dropWhile_quote hopen
        · rw [← h, String.toList_ofList]
          exact not_mem_takeWhile_quote body
  · rintro ⟨front, tail, ht, hf, hp⟩
    rw [firstQuoted?, ht, dropWhile_quote hf]
    dsimp only
    rw [dropWhile_quote hp, takeWhile_quote hp, String.ofList_toList]

/-- **The request of a line with a verb**: its first argument names the agent, and the prompt stands
between the first two quotes behind the verb. -/
theorem Request.parse_eq_ok_iff (h : words line = verb :: arguments) :
    Request.parse line = .ok request ↔
      arguments.head? = some request.agent ∧ request.agent.toList.head? ≠ some '"' ∧
        firstQuoted? (behindVerb line) = some request.prompt ∧ request.prompt ≠ "" := by
  obtain ⟨-, ha⟩ := exists_eq_append_behindVerb h
  obtain ⟨agent, prompt⟩ := request
  rw [parse]
  dsimp only
  rw [ha]
  cases arguments with
  | nil => simp
  | cons a arguments =>
    rw [List.head?_cons]
    dsimp only
    cases firstQuoted? (behindVerb line) with
    | none => by_cases hq : a.toList.head? = some '"' <;> simp [hq]
    | some p => by_cases hq : a.toList.head? = some '"' <;> by_cases hp : p = "" <;> grind

/-! ## Requests by words and quotes -/

section Line

open Text (FirstWord IsWord IsGap)

variable {agent gap gap' tail : String}

/-- **What stands between the first two quotes** of a text. -/
def BetweenQuotes (text prompt : String) : Prop :=
  ∃ front tail, text = front ++ "\"" ++ prompt ++ "\"" ++ tail ∧ '"' ∉ front.toList ∧
    '"' ∉ prompt.toList

theorem firstQuoted?_eq_some_iff_betweenQuotes :
    firstQuoted? text = some prompt ↔ BetweenQuotes text prompt := by
  rw [firstQuoted?_eq_some_iff]
  constructor
  · rintro ⟨front, tail, ht, hf, hp⟩
    refine ⟨String.ofList front, String.ofList tail, String.toList_inj.1 ?_, ?_, hp⟩
    · simp [ht]
    · rwa [String.toList_ofList]
  · rintro ⟨front, tail, rfl, hf, hp⟩
    exact ⟨front.toList, tail.toList, by simp, hf, hp⟩

/-- Behind the first word stands what a task reads. -/
theorem behindVerb_of_firstWord (h : FirstWord line verb text) : behindVerb line = text := by
  obtain ⟨blanks, hb, hl⟩ := h.parts
  have hparts : line.toList = blanks.toList ++ verb.toList ++ text.toList := by
    rw [hl, String.toList_append, String.toList_append]
  have hblank : ∀ c ∈ blanks.toList, isBlank c = true := by simpa [Text.isBlankText] using hb
  rw [behindVerb_of_parts hparts hblank h.isWord.ne_nil h.isWord.isBlank_eq_false h.ends,
    String.ofList_toList]

theorem behindVerb_of_words_eq_nil (h : words line = []) : behindVerb line = "" := by
  rw [Text.words_eq_nil_iff, Text.isBlankText, List.all_eq_true] at h
  rw [behindVerb, Text.toList_trimStart, List.dropWhile_eq_nil_iff.2 h]
  rfl

/-- **The words that a task reads** are those behind the first word of the line. -/
theorem words_behindVerb (line : String) : words (behindVerb line) = (words line).tail := by
  cases hw : words line with
  | nil => rw [behindVerb_of_words_eq_nil hw]; rfl
  | cons verb arguments => exact (exists_eq_append_behindVerb hw).2

/-- **The prompt that a task reads** stands between the first two quotes behind the first word. -/
theorem firstQuoted?_behindVerb_eq_some_iff :
    firstQuoted? (behindVerb line) = some prompt ↔
      ∃ verb rest, FirstWord line verb rest ∧ BetweenQuotes rest prompt := by
  constructor
  · intro h
    cases hw : words line with
    | nil =>
      rw [behindVerb_of_words_eq_nil hw] at h
      cases h
    | cons verb arguments =>
      obtain ⟨rest, hf, -⟩ := Text.words_eq_cons_iff.1 hw
      rw [behindVerb_of_firstWord hf] at h
      exact ⟨verb, rest, hf, firstQuoted?_eq_some_iff_betweenQuotes.1 h⟩
  · rintro ⟨verb, rest, hf, hq⟩
    rw [behindVerb_of_firstWord hf]
    exact firstQuoted?_eq_some_iff_betweenQuotes.2 hq

theorem head?_words_behindVerb (line : String) :
    (words (behindVerb line)).head? = (words line)[1]? := by
  rw [words_behindVerb, List.head?_tail]

/-- **When a line names no agent**: it has no second word, or one that begins with a quote. -/
theorem Request.parse_eq_missingAgent_iff :
    parse line = .error .missingAgent ↔
      ∀ agent, (words line)[1]? = some agent → agent.toList.head? = some '"' := by
  rw [parse]
  simp only [head?_words_behindVerb]
  cases (words line)[1]? with
  | none => simp
  | some agent =>
    by_cases hq : agent.toList.head? = some '"'
    · simp [hq]
    · cases firstQuoted? (behindVerb line) with
      | none => simp [hq]
      | some p => by_cases hp : p = "" <;> simp [hq, hp]

/-- **When a line is a request**: it names an agent, and a prompt behind its first word. -/
theorem Request.parse_eq_ok_iff_of_words :
    parse line = .ok request ↔
      (words line)[1]? = some request.agent ∧ request.agent.toList.head? ≠ some '"' ∧
        request.prompt ≠ "" ∧
        ∃ verb rest, FirstWord line verb rest ∧ BetweenQuotes rest request.prompt := by
  rw [← firstQuoted?_behindVerb_eq_some_iff]
  cases hw : words line with
  | nil =>
    have hp : parse line = .error .missingAgent := parse_eq_missingAgent_iff.2 (by simp [hw])
    simp [hp]
  | cons verb arguments =>
    rw [parse_eq_ok_iff hw, List.getElem?_cons_succ, ← List.head?_eq_getElem?]
    exact and_congr_right fun _ => and_congr_right fun _ => and_comm

/-- **When a line lacks a prompt**: it names an agent, and nothing stands between the first two
quotes behind its first word, if there are two. -/
theorem Request.parse_eq_missingPrompt_iff :
    parse line = .error .missingPrompt ↔
      (∃ agent, (words line)[1]? = some agent ∧ agent.toList.head? ≠ some '"') ∧
        ∀ verb rest prompt, FirstWord line verb rest → BetweenQuotes rest prompt → prompt = "" := by
  have hrest : parse line = .error .missingPrompt ↔
      parse line ≠ .error .missingAgent ∧ ∀ request, parse line ≠ .ok request := by
    rcases parse line with (_ | _) | request <;> simp
  have hagent : parse line ≠ .error .missingAgent ↔
      ∃ agent, (words line)[1]? = some agent ∧ agent.toList.head? ≠ some '"' := by
    simp [parse_eq_missingAgent_iff]
  rw [hrest, hagent]
  refine and_congr_right fun ⟨agent, ha, hq⟩ => ?_
  constructor
  · intro h verb rest prompt hf hb
    by_contra hne
    exact h ⟨agent, prompt⟩ (parse_eq_ok_iff_of_words.2 ⟨ha, hq, hne, verb, rest, hf, hb⟩)
  · intro h request hr
    obtain ⟨-, -, hne, verb, rest, hf, hb⟩ := parse_eq_ok_iff_of_words.1 hr
    exact hne (h verb rest _ hf hb)

theorem not_mem_quote_of_isBlankText {s : String} (h : Text.isBlankText s = true) :
    '"' ∉ s.toList := by
  intro hm
  have hb : isBlank '"' = true := List.all_eq_true.1 h _ hm
  revert hb
  decide

/-- **A line made of a verb, an agent and a prompt in quotes**, with white space between them. -/
theorem Request.parse_of_parts {blanks : String} (hb : Text.isBlankText blanks = true)
    (hv : IsWord verb) (hg : IsGap gap) (ha : IsWord agent) (hq : '"' ∉ agent.toList)
    (hg' : IsGap gap') (hne : prompt ≠ "") (hp : '"' ∉ prompt.toList) (tail : String) :
    parse (blanks ++ verb ++ gap ++ agent ++ gap' ++ "\"" ++ prompt ++ "\"" ++ tail) =
      .ok ⟨agent, prompt⟩ := by
  have hline : blanks ++ verb ++ gap ++ agent ++ gap' ++ "\"" ++ prompt ++ "\"" ++ tail =
      blanks ++ verb ++ (gap ++ (agent ++ (gap' ++ ("\"" ++ prompt ++ "\"" ++ tail)))) := by
    simp only [String.append_assoc]
  have hfirst := Text.firstWord_append hb hv hg
    (agent ++ (gap' ++ ("\"" ++ prompt ++ "\"" ++ tail)))
  have hsecond := Text.firstWord_append (show Text.isBlankText "" = true from rfl) ha hg'
    ("\"" ++ prompt ++ "\"" ++ tail)
  have hblank {s : String} (h : IsGap s) : '"' ∉ s.toList := not_mem_quote_of_isBlankText h.2
  rw [hline, parse_eq_ok_iff_of_words]
  refine ⟨?_, ?_, hne, verb, _, hfirst, gap ++ agent ++ gap', tail, ?_, ?_, hp⟩
  · rw [String.empty_append] at hsecond
    rw [hfirst.words_eq, hg.words_append, hsecond.words_eq]
    rfl
  · exact fun h => hq (List.mem_of_head? h)
  · simp only [String.append_assoc]
  · simp [hblank hg, hblank hg', hq]

/-- **When a line is a request, and why it is none.** The agent is missing if the line has less than
two words, or the second begins with a quote. Otherwise that word is the agent, and the prompt is
what stands between the first two quotes behind the first word; it is missing if there are no two
quotes, or nothing between them. So a line that is made of a verb, an agent and a prompt in quotes
is the request for them, whatever white space separates them and whatever stands behind. -/
theorem Request.parse_by_words_and_quotes :
    (∀ line, parse line = .error .missingAgent ↔
      (words line).length < 2 ∨
        ∃ agent, (words line)[1]? = some agent ∧ agent.toList.head? = some '"') ∧
    (∀ line agent prompt, parse line = .ok ⟨agent, prompt⟩ ↔
      (words line)[1]? = some agent ∧ agent.toList.head? ≠ some '"' ∧ prompt ≠ "" ∧
        ∃ verb rest, FirstWord line verb rest ∧ BetweenQuotes rest prompt) ∧
    (∀ line, parse line = .error .missingPrompt ↔
      (∃ agent, (words line)[1]? = some agent ∧ agent.toList.head? ≠ some '"') ∧
        ∀ verb rest prompt, FirstWord line verb rest → BetweenQuotes rest prompt → prompt = "") ∧
    ∀ blanks verb gap agent gap' prompt tail : String, Text.isBlankText blanks = true →
      IsWord verb → IsGap gap → IsWord agent → '"' ∉ agent.toList → IsGap gap' → prompt ≠ "" →
      '"' ∉ prompt.toList →
      parse (blanks ++ verb ++ gap ++ agent ++ gap' ++ "\"" ++ prompt ++ "\"" ++ tail) =
        .ok ⟨agent, prompt⟩ := by
  refine ⟨?_, fun line agent prompt => parse_eq_ok_iff_of_words,
    fun line => parse_eq_missingPrompt_iff, ?_⟩
  · intro line
    rw [parse_eq_missingAgent_iff]
    cases hs : (words line)[1]? with
    | none =>
      have hlen : (words line).length < 2 := Nat.lt_succ_of_le (List.getElem?_eq_none_iff.1 hs)
      simp [hlen]
    | some agent =>
      obtain ⟨hlen, -⟩ := List.getElem?_eq_some_iff.1 hs
      simp [Nat.not_lt.2 hlen]
  · intro blanks verb gap agent gap' prompt tail hb hv hg ha hq hg' hne hp
    exact parse_of_parts hb hv hg ha hq hg' hne hp tail

/-- A quote in the verb does not count, and any white space separates; two quotes in the agent
enclose the prompt; a prompt is missing if its quotes enclose nothing, whatever stands behind them;
and a second word that begins with a quote is no agent. -/
theorem Request.parse_by_words_and_quotes_of_quotes_in_words :
    (Text.isBlankText "\t" = true ∧ IsWord "t\"sk" ∧ IsGap "\u3000" ∧ IsWord "DAN" ∧
      '"' ∉ "DAN".toList ∧ IsGap " \n" ∧ "a  b" ≠ "" ∧ '"' ∉ "a  b".toList) ∧
    parse "\tt\"sk\u3000DAN \n\"a  b\" \"c\"" = .ok ⟨"DAN", "a  b"⟩ ∧
    parse "task D\"A\"N x" = .ok ⟨"D\"A\"N", "A"⟩ ∧
    parse "task DAN \"\" \"x\"" = .error .missingPrompt ∧
    parse "task \"DAN\" \"x\"" = .error .missingAgent := by
  obtain ⟨hagent, hok, hprompt, hparts⟩ := parse_by_words_and_quotes
  have h : Text.isBlankText "\t" = true ∧ IsWord "t\"sk" ∧ IsGap "\u3000" ∧ IsWord "DAN" ∧
      '"' ∉ "DAN".toList ∧ IsGap " \n" ∧ "a  b" ≠ "" ∧ '"' ∉ "a  b".toList := by decide
  refine ⟨h, ?_, ?_, ?_, ?_⟩
  · obtain ⟨hb, hv, hg, ha, hq, hg', hne, hp⟩ := h
    exact hparts "\t" "t\"sk" "\u3000" "DAN" " \n" "a  b" " \"c\"" hb hv hg ha hq hg' hne hp
  · have hf : FirstWord "task D\"A\"N x" "task" " D\"A\"N x" :=
      ⟨by decide, by simp; decide, "", rfl, by decide⟩
    exact (hok _ _ _).2 ⟨by decide, by decide, by decide, _, _, hf, " D", "N x", by decide,
      by decide, by decide⟩
  · refine (hprompt _).2 ⟨⟨"DAN", by decide, by decide⟩, ?_⟩
    intro verb rest prompt hf hb
    have hempty : firstQuoted? (behindVerb "task DAN \"\" \"x\"") = some "" := by decide
    rw [behindVerb_of_firstWord hf, firstQuoted?_eq_some_iff_betweenQuotes.2 hb] at hempty
    exact Option.some.inj hempty
  · exact (hagent _).2 (.inr ⟨"\"DAN\"", by decide, by decide⟩)

end Line

end AgentShell.Task
