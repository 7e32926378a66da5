import SecurityKey.Conversation
import SecurityKey.Invocation
import SecurityKey.Reply
/-!
# A simulated tool

A simulated tool answers by rules. The first rule that fits an invocation and is not used up
answers it: a rule fits the arguments that begin with its leading ones and contain its required
ones. What the rule says comes after a delay, and the caller waits no longer than it wants to: an
answer that comes exactly then is still taken. A tool that is a program of its own has to be
started first, which its arguments can prevent.
-/

namespace SecurityKey.Simulation

/-- How an invocation that runs to its end goes. -/
inductive Ending
  | replies (reply : Reply)
  | fails (failure : Failure)
  /-- The tool does not end. -/
  | never
deriving DecidableEq

/-- What a system reports of a process that ends with some code: its lowest eight bits. -/
def exitStatus (code : Int) : Int :=
  code % 256

/-- What a terminal makes of a text that is written to it: each newline also returns. -/
def onTerminal (text : String) : String :=
  String.ofList (text.toList.flatMap fun c => if c = '\n' then ['\r', '\n'] else [c])

/-- The script of a tool that was meant to run to its end, in a conversation. -/
def Ending.onTerminal (delay : Nat) : Ending → Except Failure Script
  | .replies reply =>
    .ok ⟨[.delay delay, .emit (Simulation.onTerminal (reply.stdout ++ reply.stderr))], none⟩
  | .fails failure => .error failure
  | .never => .ok ⟨[.hang], none⟩

/-- Why a program cannot be started with some arguments, if it cannot. The program would see each
of them only up to its first NUL, so none may hold one. -/
def startFailure? (program : String) (args : List String) : Option Failure :=
  if args.any (·.toList.contains '\x00') then
    some (.launch program "nul byte found in provided data")
  else none

/-- A rule of a simulated tool. -/
structure Rule where
  /-- The arguments that the invocation begins with. -/
  leading : List String
  /-- Arguments that the invocation has. -/
  required : List String
  /-- How often the rule may still answer, if there is a limit. -/
  uses : Option Nat
  /-- How long an invocation takes. -/
  delay : Nat
  ending : Ending
  /-- How the tool takes part in a conversation, or why it cannot be started. -/
  opening : Except Failure Script

/-- A simulated tool: its rules, and what it does when no rule fits. -/
structure Tool where
  rules : List Rule
  otherEnding : Ending
  otherOpening : Except Failure Script
  /-- The program that is started for each invocation, if one is. -/
  program : Option String := none

namespace Rule

/-- Whether a rule answers an invocation with these arguments. -/
def fits (rule : Rule) (args : List String) : Bool :=
  rule.leading.isPrefixOf args && rule.required.all (args.contains ·) && rule.uses ≠ some 0

/-- A rule after one use. -/
def used (rule : Rule) : Rule :=
  { rule with uses := rule.uses.map (· - 1) }

/-- The first rule that fits, and the rules after its use. -/
def take? (args : List String) : List Rule → Option (Rule × List Rule)
  | [] => none
  | rule :: rules =>
    if rule.fits args then some (rule, rule.used :: rules)
    else (take? args rules).map fun (found, rules) => (found, rule :: rules)

end Rule

namespace Ending

/-- When an invocation that takes `delay` ends for a caller that waits for `within`, and how. -/
def after (ending : Ending) (operation : String) (delay within : Nat) :
    Nat × Except Failure Reply :=
  if within < delay then (within, .error (.timeout operation within))
  else match ending with
    | .replies reply => (delay, .ok reply)
    | .fails failure => (delay, .error failure)
    | .never => (within, .error (.timeout operation within))

end Ending

namespace Tool

/-- Why the tool cannot be started for an invocation, if it cannot. -/
def refusal? (tool : Tool) (call : Invocation) : Option Failure :=
  tool.program.bind (startFailure? · call.args)

/-- Runs an invocation: the time it takes, the answer, and the tool after it. -/
def run (tool : Tool) (call : Invocation) (within : Nat) :
    Nat × Except Failure Reply × Tool :=
  match tool.refusal? call with
  | some failure => (0, .error failure, tool)
  | none =>
    match Rule.take? call.args tool.rules with
    | some (rule, rules) =>
      let (time, answer) := rule.ending.after call.operation rule.delay within
      (time, answer, { tool with rules })
    | none =>
      let (time, answer) := tool.otherEnding.after call.operation 0 within
      (time, answer, tool)

/-- Starts the tool for a conversation. -/
def start (tool : Tool) (call : Invocation) : Except Failure Script × Tool :=
  match tool.refusal? call with
  | some failure => (.error failure, tool)
  | none =>
    match Rule.take? call.args tool.rules with
    | some (rule, rules) => (rule.opening, { tool with rules })
    | none => (tool.otherOpening, tool)

/-- How much text the tool can reply with at once, at most. -/
def volume (tool : Tool) : Nat :=
  (tool.otherEnding :: tool.rules.map Rule.ending).foldl (fun most ending =>
    match ending with
    | .replies reply => max most reply.stdout.length
    | _ => most) 0

/-- How many cues the tool can have in a conversation, at most. -/
def longestScript (tool : Tool) : Nat :=
  (tool.otherOpening :: tool.rules.map Rule.opening).foldl (fun most opening =>
    match opening with
    | .ok script => max most script.cues.length
    | .error _ => most) 0

end Tool

end SecurityKey.Simulation
