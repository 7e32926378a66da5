import SecurityKey.Failure
import SecurityKey.Text.Search
import SecurityKey.Text.Utf8
/-!
# Conversations with the tool

Some invocations run in conversation: the tool prints prompts, and lines are sent in answer. What
the tool does is a finite script of cues, played as it is read: a piece of output, a silence, a
line that the tool waits for, silence for ever, an error of the connection, and at last the end of
the output, for good.

Time is counted in milliseconds and passes only while a read waits. A wait has a deadline: what
becomes available exactly then is still taken, however much else was read before, and a wait that
finds nothing ends exactly then. A silence is counted from the first read that reaches it, so a
wait that gives up in the middle of it does not begin it anew.

`expect` reads until one of several marks stands in the text that was read and not yet consumed.
Everything up to the end of the mark is consumed. At the end of the output all of the text is, and
at the deadline none, so no text is lost and none is seen twice.

A conversation keeps a record of all that it did and all that came of it: every line, every read
and what it gave, every stretch of time that passed, every notice to the user, and its end.
-/

namespace SecurityKey

open Text

/-- One step of what the tool does in a conversation. -/
inductive Cue (χ : Type)
  /-- A piece of output. -/
  | emit (chunk : χ)
  /-- Nothing for so many milliseconds. -/
  | delay (ms : Nat)
  /-- Reads one line, once there is one. -/
  | awaitLine
  /-- Nothing, for ever. -/
  | hang
  /-- A read that fails. -/
  | readError (reason : String)
deriving DecidableEq

/-- All that a tool does in a conversation. -/
structure Script where
  cues : List (Cue String)
  /-- Which line, counted from 1, cannot be sent. -/
  sendFailsAt : Option Nat
deriving DecidableEq

namespace Script

/-- The cues of a tool that writes bytes: a character that is cut between two pieces belongs to
the later one, and bytes that end in the middle of a character end in a replacement. -/
def decode (pending : Utf8.Unfinished) : List (Cue (List UInt8)) → List (Cue String)
  | [] => if pending.finish.isEmpty then [] else [.emit (String.ofList pending.finish)]
  | .emit bytes :: cues =>
    let (text, pending) := Utf8.feed pending bytes
    if text.isEmpty then decode pending cues
    else .emit (String.ofList text) :: decode pending cues
  | .delay ms :: cues => .delay ms :: decode pending cues
  | .awaitLine :: cues => .awaitLine :: decode pending cues
  | .hang :: cues => .hang :: decode pending cues
  | .readError reason :: cues => .readError reason :: decode pending cues

/-- The script of a tool that writes bytes to a terminal. -/
def ofBytes (cues : List (Cue (List UInt8))) (sendFailsAt : Option Nat) : Script :=
  ⟨decode .none cues, sendFailsAt⟩

end Script

/-- What happens in a conversation. -/
inductive Event
  | sent (line : String)
  /-- A line could not be sent. -/
  | unsent (line : String)
  | closed
  /-- The user is told that the key waits for a touch. -/
  | touchRequired
  /-- A read gave a piece of output. -/
  | read (chunk : String)
  /-- A read found the end of the output. -/
  | ended
  | readFailed (reason : String)
  /-- A read gave nothing until its deadline. -/
  | silent
  /-- Time has passed. At the time `since` it was settled that a read waits until now. -/
  | waited (since : Nat)
deriving DecidableEq

/-- Whether an event is seen from outside: by the tool, or by the user. -/
def Event.outward : Event → Bool
  | .sent _ | .closed | .touchRequired => true
  | .unsent _ | .read _ | .ended | .readFailed _ | .silent | .waited _ => false

/-- How a wait ended. -/
inductive Wait
  /-- A mark was found, by its place in the list of marks, behind the text `before`. -/
  | matched (index : Nat) (before : String)
  /-- The output ended first, and all of the text is given. -/
  | ended (before : String)
  /-- The deadline came first. The text is given, and stays. -/
  | timedOut (before : String)
deriving DecidableEq

/-- A conversation under way. -/
structure Conversation where
  /-- What the tool has still to do. -/
  cues : List (Cue String)
  /-- The text that was read and not yet consumed. -/
  buffer : String
  /-- The time since the conversation began. -/
  clock : Nat
  /-- The lines that were sent and that the tool has still to read. -/
  outbox : List String
  /-- The lines that the tool has read. -/
  heard : List String
  /-- How many lines were sent, or failed to be. -/
  attempts : Nat
  /-- Which line cannot be sent. -/
  sendFailsAt : Option Nat
  /-- How many notices of a touch are still to be delivered. -/
  notices : Nat
  /-- What has happened, and when. -/
  events : List (Nat × Event)
deriving DecidableEq

namespace Conversation

/-- The beginning of a conversation. -/
def begin (script : Script) : Conversation where
  cues := script.cues
  buffer := ""
  clock := 0
  outbox := []
  heard := []
  attempts := 0
  sendFailsAt := script.sendFailsAt
  notices := 0
  events := []

/-- Records what happens now. -/
def record (talk : Conversation) (event : Event) : Conversation :=
  { talk with events := talk.events ++ [(talk.clock, event)] }

/-- Looks for the earliest of several marks in a text. -/
def find? (marks : List String) (text : String) : Option Found :=
  earliest? (marks.map String.toList) text.toList

/-- Lets time pass until `time`, as was settled at `since`. -/
def pass (talk : Conversation) (since time : Nat) : Conversation :=
  if talk.clock < time then { talk with clock := time }.record (.waited since) else talk

/-- A wait that ends at its deadline, with `cues` still to be played; the read began at `since`. -/
def giveUp (talk : Conversation) (cues : List (Cue String)) (since deadline : Nat) :
    Except Failure Wait × Conversation :=
  (.ok (.timedOut talk.buffer), { talk.pass since deadline with cues }.record .silent)

/-- A wait that found a mark, with `cues` still to be played. -/
def consume (talk : Conversation) (cues : List (Cue String)) (found : Found) :
    Except Failure Wait × Conversation :=
  (.ok (.matched found.index (String.ofList found.before)),
    { talk with cues, buffer := String.ofList found.after })

/-- Plays cues until a mark is in the buffer, the output ends or the deadline comes. The read began
at `since`, and it was settled then that it waits no longer than until the deadline; each silence
was settled on when it began. -/
def listen (marks : List String) (deadline since : Nat) (talk : Conversation) :
    List (Cue String) → Except Failure Wait × Conversation
  | [] =>
    match find? marks talk.buffer with
    | some found => talk.consume [] found
    | none => (.ok (.ended talk.buffer), { talk with cues := [], buffer := "" }.record .ended)
  | cue :: cues =>
    match find? marks talk.buffer with
    | some found => talk.consume (cue :: cues) found
    | none =>
      match cue with
      | .emit chunk =>
        listen marks deadline talk.clock
          ({ talk with buffer := talk.buffer ++ chunk }.record (.read chunk)) cues
      | .delay ms =>
        let time := talk.clock + ms
        if time ≤ deadline then
          let settled := if time = deadline then since else talk.clock
          listen marks deadline since (talk.pass settled time) cues
        else talk.giveUp (.delay (time - deadline) :: cues) since deadline
      | .awaitLine =>
        match talk.outbox with
        | line :: outbox =>
          listen marks deadline since { talk with outbox, heard := talk.heard ++ [line] } cues
        | [] => talk.giveUp (.awaitLine :: cues) since deadline
      | .hang => talk.giveUp (.hang :: cues) since deadline
      | .readError reason =>
        (.error (.inputOutput reason), { talk with cues }.record (.readFailed reason))

/-- Waits for one of several marks, `within` so many milliseconds. -/
def expect (talk : Conversation) (marks : List String) (within : Nat) :
    Except Failure Wait × Conversation :=
  listen marks (talk.clock + within) talk.clock talk talk.cues

/-- Waits for the end of the output. -/
def expectEnd (talk : Conversation) (within : Nat) : Except Failure Wait × Conversation :=
  talk.expect [] within

/-- Delivers the notices that are due. -/
def deliver (talk : Conversation) : Conversation :=
  { talk with
    notices := 0
    events := talk.events ++ List.replicate talk.notices (talk.clock, .touchRequired) }

/-- Notes that the key waits for a touch. The notice is delivered before the next line, or at the
end. -/
def notify (talk : Conversation) : Conversation :=
  { talk with notices := talk.notices + 1 }

/-- Sends a line. A line that cannot be sent reaches nobody. -/
def send (talk : Conversation) (line : String) : Except Failure Unit × Conversation :=
  let talk := { talk.deliver with attempts := talk.attempts + 1 }
  if talk.sendFailsAt = some talk.attempts then
    (.error (.inputOutput "write failed"), talk.record (.unsent line))
  else (.ok (), { talk with outbox := talk.outbox ++ [line] }.record (.sent line))

/-- Ends the conversation, and the tool with it. -/
def close (talk : Conversation) : Conversation :=
  talk.deliver.record .closed

end Conversation

end SecurityKey
