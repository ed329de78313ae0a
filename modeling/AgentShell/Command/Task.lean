import AgentShell.Command.Basic
import AgentShell.Text.JsonObject
import AgentShell.Text.Lines

/-!
# Tasks

The command `task <agent> "<prompt>"` hands a prompt to an agent. The agent is the first word
behind the verb, and the prompt stands between the first two quotes behind the verb. The reply to
the prompt is reported as a JSON block.

## Main definitions

* `Task.Request`, `Task.Request.parse`: what a line asks of whom
* `Task.members`, `Task.report`: what is reported of a reply, and the lines of its JSON block
* `Task.output`: the output of a task whose reply is in
* `Command.task`: the command
-/

namespace AgentShell

namespace Task

/-- What a line asks of whom. -/
structure Request where
  agent : String
  prompt : String
deriving DecidableEq, Repr

/-- Why a line is no request. -/
inductive RequestError where
  | missingAgent
  | missingPrompt
deriving DecidableEq, Repr

/-- The text of an error. -/
def RequestError.message : RequestError → String
  | .missingAgent => "missing agent name"
  | .missingPrompt => "missing quoted prompt"

/-- The part of a line behind its first word, from the white space that ends the word. -/
def behindVerb (line : String) : String :=
  String.ofList ((Text.trimStart line).toList.dropWhile fun c => !Text.isBlank c)

/-- The text between the first two quotes. -/
def firstQuoted? (text : String) : Option String :=
  match text.toList.dropWhile (· != '"') with
  | [] => none
  | _ :: body =>
    match body.dropWhile (· != '"') with
    | [] => none
    | _ :: _ => some (String.ofList (body.takeWhile (· != '"')))

/-- **The request of a line.** The agent is looked for before the prompt. -/
def Request.parse (line : String) : Except RequestError Request :=
  let rest := behindVerb line
  match (Text.words rest).head? with
  | none => .error .missingAgent
  | some agent =>
    if agent.toList.head? == some '"' then .error .missingAgent
    else match firstQuoted? rest with
      | none => .error .missingPrompt
      | some prompt => if prompt = "" then .error .missingPrompt else .ok ⟨agent, prompt⟩

/-- What is reported of a text of an agent, by the keys of a JSON object. -/
def members (a : Agent) (text : String) : List (String × String) :=
  [("status", "SUCCESS"),
    ("agent", a.name),
    ("response", s!"Task completed based on philosophy: '{a.philosophy}'"),
    ("output", text)]

/-- The JSON block that reports a text of an agent, cut into lines. -/
def report (a : Agent) (text : String) : List String :=
  Text.cutLines (Text.JsonObject.print (members a text))

/-- **The output of a task** whose reply is in: the status, and then the report or one error. -/
def output (p : Prompt) (reply : Reply) : Output where
  lines := .status "EXECUTING" :: match reply with
    | .ok text => (report p.agent text).map .text
    | .error e => [.error s!"ERROR: Task for agent '{p.agent.name}' failed: {e.message}"]

end Task

/-- Hands a prompt to an agent. -/
def Command.task : Command where
  name := "task"
  run c :=
    match Task.Request.parse c.line with
    | .error _ => .done (.ofError "ERROR: Invalid format. Use: task <agent> \"<prompt>\"")
    | .ok request =>
      match c.agents.find? request.agent with
      | none => .done (.ofError s!"ERROR: Agent '{request.agent}' not found.")
      | some agent => .asks ⟨agent, request.prompt, c.instructions.preamble⟩

end AgentShell
