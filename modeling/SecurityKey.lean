import SecurityKey.Attributes
import SecurityKey.Capabilities
import SecurityKey.CommandLine.Arguments
import SecurityKey.CommandLine.Command
import SecurityKey.CommandLine.Prompt
import SecurityKey.CommandLine.Run
import SecurityKey.Conversation
import SecurityKey.Credential
import SecurityKey.Device
import SecurityKey.Diagnosis
import SecurityKey.Dialog
import SecurityKey.Failure
import SecurityKey.FileTree
import SecurityKey.Fingerprint
import SecurityKey.Invocation
import SecurityKey.Locator
import SecurityKey.Locks
import SecurityKey.Main
import SecurityKey.Manager
import SecurityKey.Manager.Action
import SecurityKey.Path
import SecurityKey.Pattern
import SecurityKey.Pattern.CharSet
import SecurityKey.Pattern.Machine
import SecurityKey.Pattern.Notation
import SecurityKey.Pattern.Search
import SecurityKey.Pattern.Size
import SecurityKey.Pin
import SecurityKey.PinPolicy
import SecurityKey.Procedure
import SecurityKey.Proofs.Arguments
import SecurityKey.Proofs.Attributes
import SecurityKey.Proofs.Capabilities
import SecurityKey.Proofs.CommandLine
import SecurityKey.Proofs.CommandLine.PinDialog
import SecurityKey.Proofs.CommandLine.Prompt
import SecurityKey.Proofs.Conversation
import SecurityKey.Proofs.Conversation.Arrival
import SecurityKey.Proofs.Conversation.Conservation
import SecurityKey.Proofs.Conversation.Pieces
import SecurityKey.Proofs.Credential
import SecurityKey.Proofs.Device
import SecurityKey.Proofs.Diagnosis
import SecurityKey.Proofs.Diagnosis.Linewise
import SecurityKey.Proofs.Dialog.Answering
import SecurityKey.Proofs.Dialog.Arrival
import SecurityKey.Proofs.Dialog.Clock
import SecurityKey.Proofs.Dialog.Completion
import SecurityKey.Proofs.Dialog.Discipline
import SecurityKey.Proofs.Dialog.Reading
import SecurityKey.Proofs.Dialog.Steps
import SecurityKey.Proofs.Dialog.Veil
import SecurityKey.Proofs.Exclusion
import SecurityKey.Proofs.Fingerprint
import SecurityKey.Proofs.Guarding
import SecurityKey.Proofs.Interleaving
import SecurityKey.Proofs.Invocation
import SecurityKey.Proofs.Listing
import SecurityKey.Proofs.Loading
import SecurityKey.Proofs.Locator
import SecurityKey.Proofs.Locks
import SecurityKey.Proofs.Manager
import SecurityKey.Proofs.NewPin
import SecurityKey.Proofs.Passkeys
import SecurityKey.Proofs.Path
import SecurityKey.Proofs.Pattern.Search
import SecurityKey.Proofs.Pattern.Straight
import SecurityKey.Proofs.Pin
import SecurityKey.Proofs.PinPolicy
import SecurityKey.Proofs.Procedure
import SecurityKey.Proofs.Refusal
import SecurityKey.Proofs.Reply
import SecurityKey.Proofs.RequiredPin
import SecurityKey.Proofs.Reset
import SecurityKey.Proofs.ResetTarget
import SecurityKey.Proofs.Secrecy
import SecurityKey.Proofs.Selection
import SecurityKey.Proofs.Session
import SecurityKey.Proofs.Simulation
import SecurityKey.Proofs.Site
import SecurityKey.Proofs.Terminal.Script
import SecurityKey.Proofs.Terminal.Shell
import SecurityKey.Proofs.Text.Utf8.Pieces
import SecurityKey.Proofs.Text.Utf8.Sequences
import SecurityKey.Reply
import SecurityKey.Session
import SecurityKey.Simulation.CommandLine
import SecurityKey.Simulation.Recording
import SecurityKey.Simulation.Schedule
import SecurityKey.Simulation.Tool
import SecurityKey.Simulation.World
import SecurityKey.Terminal.Emulator
import SecurityKey.Terminal.Script
import SecurityKey.Terminal.Shell
import SecurityKey.Text.Blank
import SecurityKey.Text.Case
import SecurityKey.Text.Digit
import SecurityKey.Text.Folding
import SecurityKey.Text.Hidden
import SecurityKey.Text.Lines
import SecurityKey.Text.Numeral
import SecurityKey.Text.Quoted
import SecurityKey.Text.Search
import SecurityKey.Text.Utf8
import SecurityKey.Text.Utf8.Ranges
import SecurityKey.Timeouts
