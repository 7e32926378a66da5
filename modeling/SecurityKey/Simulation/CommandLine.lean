import SecurityKey.CommandLine.Run
import SecurityKey.Locator
import SecurityKey.Simulation.Schedule
import SecurityKey.Terminal.Emulator
/-!
# The command line in a simulated world

A whole command line from its arguments to its exit code, with a simulated tool, the user's input
and the terminal programs that are installed.
-/

namespace SecurityKey.Simulation

open CommandLine (Halt Settings Trouble)

/-- Everything that a command line depends on. -/
structure Surroundings where
  args : List String
  /-- The user's input. -/
  input : String
  /-- The bound on waiting that the environment gives. -/
  timeout : Option String
  /-- Where the environment says the tool is. -/
  configured : Option String
  /-- Where the tool is. -/
  toolPath : String
  tool : Tool
  terminals : List String

/-- What a command line leaves behind. -/
structure Outcome where
  /-- Missing if the command never ends. -/
  exitCode : Option Nat
  stdout : String
  stderr : String
  /-- The arguments of each start of the tool. -/
  calls : List (List String)
  /-- The lines that were read by the tool in conversations. -/
  heard : List String
  /-- The terminal window that was opened. -/
  launched : Option Terminal.Command

/-- What a user sees of an entry of the log. -/
def Entry.visible : Entry → String
  | .said text => text
  | .talked .touchRequired => "👆 Touch your key to continue...\n"
  | _ => ""

/-- The arguments of a tool if an entry is a start of it that succeeded. -/
def Entry.callArgs? (tool : Tool) : Entry → Option (List String)
  | .ran call _ | .started call => if (tool.refusal? call).isNone then some call.args else none
  | _ => none

/-- The line that the tool read, if an entry is one. -/
def Entry.heard? : Entry → Option String
  | .heard line => some line
  | _ => none

namespace Surroundings

/-- The path by which the tool is started. -/
def program (surroundings : Surroundings) (settings : Settings) : String :=
  let only (path : String) : Bool := path = surroundings.toolPath
  let locator : Locator := ⟨settings.tool.or surroundings.configured, none, none⟩
  locator.resolve ⟨only, only⟩ []

/-- A tool that is not where it is looked for. -/
def missingTool (program : String) : Tool :=
  let failure : Failure := .launch program "No such file or directory (os error 2)"
  { rules := [], otherEnding := .fails failure, otherOpening := .error failure, program }

/-- The command that opens a terminal window for an invocation. -/
def terminalCommand (surroundings : Surroundings) (program : String) (call : Invocation) :
    Except Failure Terminal.Command := do
  let command ← Terminal.command (surroundings.terminals.contains ·) program call
  match startFailure? command.program command.args with
  | some failure => .error failure
  | none => .ok command

/-- The terminal window that an entry opened. -/
def window? (surroundings : Surroundings) (program : String) :
    Entry → Option Terminal.Command
  | .launched call => (surroundings.terminalCommand program call).toOption
  | _ => none

/-- What the program says about its version. -/
def versionLine : String := "fido2-manage-cli 0.1.0\n"

/-- An outcome without any use of the tool. -/
def plain (exitCode : Nat) (stdout : String) : Outcome :=
  ⟨some exitCode, stdout, "", [], [], none⟩

/-- Runs a command in a world with one procedure. -/
def runCommand (surroundings : Surroundings) (settings : Settings) (manager : Manager) : Outcome :=
  let program := surroundings.program settings
  let found : Bool := program = surroundings.toolPath
  let tool := if found then { surroundings.tool with program } else missingTool program
  let world := World.begin tool
    (fun call => (surroundings.terminalCommand program call).map fun _ => ()) Int.ofNat
  let job := CommandLine.run manager (CommandLine.inputLines surroundings.input) settings.command
  let (world, reports) := world.runAll [(job.run, none)]
  let entries := world.log.map Prod.snd
  let result : Except Trouble Unit := match reports with
    | [⟨some result, _⟩] => result
    | _ => .error .endless
  { exitCode := CommandLine.exitCode? result
    stdout := String.join (entries.map Entry.visible)
    stderr := match result with
      | .ok () => ""
      | .error trouble => trouble.report
    calls := if found then entries.filterMap (Entry.callArgs? tool) else []
    heard := entries.filterMap Entry.heard?
    launched := (entries.filterMap (surroundings.window? program)).head? }

/-- Runs a command line. -/
def run (surroundings : Surroundings) : Outcome :=
  match CommandLine.read surroundings.timeout surroundings.args with
  | .error .usage => { plain 2 "" with stderr := CommandLine.usage }
  | .error .help => plain 0 CommandLine.usage
  | .error .version => plain 0 versionLine
  | .ok settings =>
    let timeouts :=
      { Timeouts.ofBase (settings.timeout * 1000) with touch := settings.touchTimeout * 1000 }
    match Manager.ofPattern? timeouts Manager.standardReset with
    | some manager => surroundings.runCommand settings manager
    | none => plain 1 ""

end Surroundings

end SecurityKey.Simulation
