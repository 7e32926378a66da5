import SecurityKey.Text.Lines
import SecurityKey.Text.Search
/-!
# Fingerprints

The tool lists one enrolled fingerprint a line: its number, a colon, the template's id, and the
name it was given, if any. The words of a name are kept with one space between each two.
-/

namespace SecurityKey

open Text

/-- An enrolled fingerprint. -/
structure Fingerprint where
  id : String
  /-- Empty when no name was given. -/
  name : String
deriving DecidableEq

namespace Fingerprint

/-- Why a line lists no fingerprint. -/
inductive LineError
  /-- There is no colon. -/
  | missingIndex
  /-- Nothing follows the colon. -/
  | missingId
deriving DecidableEq

/-- The text of a line error. -/
def LineError.message : LineError → String
  | .missingIndex => "Missing template index"
  | .missingId => "Missing template id"

/-- The fingerprint that one line lists. -/
def ofLine (line : List Char) : Except LineError Fingerprint :=
  match splitOnce? [':'] line with
  | none => .error .missingIndex
  | some (_, rest) =>
    match words rest with
    | [] => .error .missingId
    | id :: name => .ok ⟨String.ofList id, String.ofList (unwords name)⟩

/-- The fingerprints of a listing. A line that lists none is passed over. -/
def ofListing (text : String) : List Fingerprint :=
  (lines text.toList).filterMap fun line => (ofLine line).toOption

example : ofListing "00: 3f2a right  thumb\n01: 9c\n02:\n" =
    [⟨"3f2a", "right thumb"⟩, ⟨"9c", ""⟩] := by decide

end Fingerprint

end SecurityKey
