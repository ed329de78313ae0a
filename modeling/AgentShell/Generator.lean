import AgentShell.Agent
import AgentShell.Text.Words

/-!
# Generators

A generator answers the prompts of tasks. It is a function from a prompt to its answer, and the
answer says when it arrives and what it is: after a delay that is known in advance, or on a cue
from outside. A time limit turns an answer that is too late into an error.

## Main definitions

* `Prompt`: what a generator gets to see
* `GenerationError`: why there is no text, and `GenerationError.message`
* `Reply`: the text, or why there is none
* `Answer`: when a reply arrives, and what it is
* `Answer.within`: the reply that a task gets under a time limit
* `Answer.inBy`: the reply that is in after some time
* `Answer.wake?`: how long it takes until a reply is in by itself
* `Generator.persona`: the generator that speaks in the agent's name
-/

namespace AgentShell

/-- What a generator gets to see of a task. -/
structure Prompt where
  agent : Agent
  text : String
  /-- The preamble made from the custom instructions. -/
  preamble : String
deriving DecidableEq, Repr

/-- Why a generator gave no text. -/
inductive GenerationError where
  | failed (cause : String)
  | timedOut (milliseconds : Nat)
  | unavailable (cause : String)
deriving DecidableEq, Repr

/-- The text of an error. -/
def GenerationError.message : GenerationError → String
  | .failed cause => s!"generation failed: {cause}"
  | .timedOut ms => s!"no response after {ms} ms"
  | .unavailable cause => s!"generator unavailable: {cause}"

/-- What comes back from a generator. -/
abbrev Reply := Except GenerationError String

/-- When a reply arrives, and what it is. -/
inductive Answer where
  /-- The reply arrives a number of milliseconds after the prompt; at once if there are none. -/
  | after (delay : Nat) (reply : Reply)
  /-- The reply is given from outside, if it is given at all. -/
  | onCue

/-- **The reply that a task gets** under a time limit: an answer that arrives at the limit is in
time, and one that waits for a cue never comes by itself. -/
def Answer.within (limit : Option Nat) : Answer → Option Reply
  | .after delay reply =>
    match limit with
    | some ms => some (if delay ≤ ms then reply else .error (.timedOut ms))
    | none => some reply
  | .onCue => limit.map fun ms => .error (.timedOut ms)

/-- The error of a task that has waited up to its limit. -/
def expired (limit : Option Nat) (waited : Nat) : Option Reply :=
  match limit with
  | some ms => if ms ≤ waited then some (.error (.timedOut ms)) else none
  | none => none

/-- **The reply that is in** when a task has waited for `waited` milliseconds and was not looked at
before: an answer that has arrived is in time, however late it is looked at. -/
def Answer.inBy (limit : Option Nat) (waited : Nat) : Answer → Option Reply
  | .after delay reply => if delay ≤ waited then some reply else expired limit waited
  | .onCue => expired limit waited

/-- How long it takes until a reply is in by itself: until the answer or the limit, whichever comes
first. -/
def Answer.wake? (limit : Option Nat) : Answer → Option Nat
  | .after delay _ => some (limit.elim delay (min delay))
  | .onCue => limit

/-- An answer that is there at once is in time. -/
@[simp] theorem Answer.within_after_zero (limit : Option Nat) (reply : Reply) :
    (Answer.after 0 reply).within limit = some reply := by
  cases limit <;> simp [within]

/-- A task that is looked at when its reply is due gets the reply that it gets under its limit. -/
theorem Answer.inBy_wake {limit : Option Nat} {a : Answer} {ms : Nat}
    (h : a.wake? limit = some ms) : a.inBy limit ms = a.within limit := by
  cases a <;> cases limit <;> simp only [wake?, Option.elim_none, Option.elim_some,
    Option.some.injEq, reduceCtorEq] at h <;> subst h <;> simp [inBy, within, expired]
  grind

/-- Whoever waits longer than it takes has a reply. -/
theorem Answer.isSome_inBy {limit : Option Nat} {a : Answer} {ms waited : Nat}
    (h : a.wake? limit = some ms) (hw : ms ≤ waited) : (a.inBy limit waited).isSome := by
  cases a <;> cases limit <;> simp only [wake?, Option.elim_none, Option.elim_some,
    Option.some.injEq, reduceCtorEq] at h <;> subst h <;> simp [inBy, expired, hw]
  split <;> simp
  omega

/-- How prompts are answered. -/
abbrev Generator := Prompt → Answer

namespace Generator

/-- The reply of an agent to a prompt: it names the agent and what was asked of it, and refuses a
blank prompt. -/
def personaReply (p : Prompt) : Reply :=
  if Text.isBlankText p.text then .error (.failed "empty prompt")
  else .ok s!"{p.agent.name} ({p.agent.role}) handled \"{Text.trim p.text}\""

/-- The generator that speaks in the agent's name after a fixed delay. -/
def persona (delay : Nat) : Generator :=
  fun p => .after delay (personaReply p)

/-- The delay of the generator in milliseconds, where nothing else is set. -/
def usualDelay : Nat := 500

end Generator

end AgentShell
