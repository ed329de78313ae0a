import AgentShell.LogLevel
import AgentShell.Main
import AgentShell.Proofs.Command.Effect
import AgentShell.Proofs.Command.Failure
import AgentShell.Proofs.Command.Files
import AgentShell.Proofs.Command.Prompt
import AgentShell.Proofs.Command.Report
import AgentShell.Proofs.Command.Request
import AgentShell.Proofs.Command.SingleSpaced
import AgentShell.Proofs.Command.Spelling
import AgentShell.Proofs.Editor.Recall
import AgentShell.Proofs.Json.Object
import AgentShell.Proofs.Keys.Line
import AgentShell.Proofs.Keys.Stream
import AgentShell.Proofs.Loop.Order
import AgentShell.Proofs.Path.Canonical
import AgentShell.Proofs.Path.NormalForm
import AgentShell.Proofs.Path.Parent
import AgentShell.Proofs.Roster
import AgentShell.Proofs.Session.Canvas
import AgentShell.Proofs.Session.Look
import AgentShell.Proofs.Session.Terminal
import AgentShell.Proofs.Shell.Account
import AgentShell.Proofs.Shell.Clock
import AgentShell.Proofs.Shell.Deadline
import AgentShell.Proofs.Shell.Prompts
import AgentShell.Proofs.Shell.Reach
import AgentShell.Proofs.Shell.Sequential
import AgentShell.Proofs.Shell.Transcript
import AgentShell.Proofs.Style
import AgentShell.Proofs.Text.Lowercase
import AgentShell.Proofs.Text.Octets
import AgentShell.Proofs.Tree.Atomic
import AgentShell.Proofs.Tree.Build
import AgentShell.Proofs.Tree.Layout
import AgentShell.Proofs.Tree.Listing
import AgentShell.Proofs.Tree.Spelling
import AgentShell.Proofs.Tree.Undo
import AgentShell.Proofs.Tree.Write
import AgentShell.Proofs.Workspace.Home
import AgentShell.Proofs.Workspace.Move
import AgentShell.Proofs.Workspace.Steps
