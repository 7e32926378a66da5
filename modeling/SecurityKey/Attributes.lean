import SecurityKey.Text.Lines
import SecurityKey.Text.Search
import SecurityKey.Text.Numeral
/-!
# Device attributes

The tool reports a device as lines `name: value`. Each line is cut at its first colon and space;
a line without them is a name with an empty value, and a blank line reports nothing.

Rows keep their order and their duplicates for display. A look-up sees the last row of a name, so
that what is loaded later counts.
-/

namespace SecurityKey

open Text

/-- One reported attribute. -/
structure Attribute where
  name : String
  value : String
deriving DecidableEq

namespace Attribute

/-- Cuts a line at its first colon and space. -/
def ofLine (line : List Char) : Attribute :=
  match splitOnce? [':', ' '] line with
  | some (name, value) => ⟨String.ofList name, String.ofList value⟩
  | none => ⟨String.ofList line, ""⟩

/-- The attribute that a line of a report gives. Carriage returns at its end are dropped. -/
def ofReportLine? (line : List Char) : Option Attribute :=
  if (trim line).isEmpty then none else some (ofLine (dropReturns line))

/-- The line of an attribute. -/
def render (row : Attribute) : String :=
  row.name ++ ": " ++ row.value

end Attribute

/-- What is known about a device, in the order it was reported. -/
structure Attributes where
  rows : List Attribute
deriving DecidableEq

namespace Attributes

/-- Nothing is known yet. -/
def empty : Attributes := ⟨[]⟩

/-- The attributes of a report. -/
def ofReport (text : String) : Attributes :=
  ⟨(lines text.toList).filterMap Attribute.ofReportLine?⟩

/-- The rows of one more report, after those that are there. -/
def extend (attributes : Attributes) (text : String) : Attributes :=
  ⟨attributes.rows ++ (ofReport text).rows⟩

/-- One more row, as it is. -/
def insert (attributes : Attributes) (name value : String) : Attributes :=
  ⟨attributes.rows ++ [⟨name, value⟩]⟩

/-- The latest value of a name. -/
def get? (attributes : Attributes) (name : String) : Option String :=
  (attributes.rows.reverse.find? fun row => row.name = name).map Attribute.value

/-- A value read as a count. Blanks around it do not matter. -/
def countOf? (value : String) : Option Int :=
  readInt64? (trim value.toList)

/-- The latest value of a name, read as a count. -/
def count? (attributes : Attributes) (name : String) : Option Int :=
  (attributes.get? name).bind countOf?

/-- One line for each row. -/
def render (attributes : Attributes) : String :=
  String.join (attributes.rows.map fun row => row.render ++ "\n")

end Attributes

end SecurityKey
