import SecurityKey.Simulation.CommandLine
/-!
# Recorded sessions

A recorded session is a text of lines. The first character of a line says what the rest of it is:

* `<` a line that the user enters,
* `+` the name of a terminal program that is installed,
* `=` an exit code: a reply of the tool begins. Without a code, a signal ended the tool,
* `|` a line that the tool prints in this reply,
* `!` a line that it prints as an error.

The tool gives its replies in the order of the recording, whatever it is asked for. In a
conversation it prints its lines and ends, and reads nothing.
-/

namespace SecurityKey.Simulation

open Text

/-- A session with the tool that was recorded. -/
structure Recording where
  /-- The lines that the user enters. -/
  input : List String
  terminals : List String
  replies : List Reply
deriving DecidableEq

namespace Recording

/-- Nothing is recorded yet. -/
def empty : Recording := ⟨[], [], []⟩

/-- Changes the reply that was begun last, if there is one. -/
def onLastReply (recording : Recording) (change : Reply → Reply) : Option Recording :=
  recording.replies.getLast?.map fun reply =>
    { recording with replies := recording.replies.dropLast ++ [change reply] }

/-- Begins a reply with an exit code, which can be missing. -/
def beginReply (recording : Recording) (code : List Char) : Option Recording :=
  if (trim code).isEmpty then
    some { recording with replies := recording.replies ++ [⟨none, "", ""⟩] }
  else (readInt64? (trim code)).map fun code =>
    { recording with replies := recording.replies ++ [⟨some code, "", ""⟩] }

/-- Adds one line to a recording, if it is one that a recording can have. -/
def note (recording : Recording) : List Char → Option Recording
  | [] => some recording
  | '<' :: text => some { recording with input := recording.input ++ [String.ofList text] }
  | '+' :: text => some { recording with terminals := recording.terminals ++ [String.ofList text] }
  | '=' :: code => recording.beginReply code
  | '|' :: text => recording.onLastReply fun reply =>
      { reply with stdout := reply.stdout ++ String.ofList text ++ "\n" }
  | '!' :: text => recording.onLastReply fun reply =>
      { reply with stderr := reply.stderr ++ String.ofList text ++ "\n" }
  | _ => none

/-- Reads a recording. -/
def read? (text : String) : Option Recording :=
  (lines text.toList).foldlM note empty

/-- The rule that gives one reply, once. -/
def rule (reply : Reply) : Rule where
  leading := []
  required := []
  uses := some 1
  delay := 0
  ending := .replies reply
  opening := .ok ⟨[.emit (reply.stdout ++ reply.stderr)], none⟩

/-- What the tool fails with when it has no reply left. -/
def exhausted : Failure := .inputOutput "the recording has ended"

/-- The tool that a recording has the replies of. -/
def tool (recording : Recording) : Tool where
  rules := recording.replies.map rule
  otherEnding := .fails exhausted
  otherOpening := .error exhausted

/-- The surroundings of a command line in which a recorded session is played. -/
def surroundings (recording : Recording) (args : List String) (timeout configured : Option String) :
    Surroundings where
  args
  input := String.join (recording.input.map fun line => line ++ "\n")
  timeout
  configured
  toolPath := configured.getD Locator.toolName
  tool := recording.tool
  terminals := recording.terminals

end Recording

end SecurityKey.Simulation
