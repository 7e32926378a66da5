import SecurityKey.Text.Lines
import SecurityKey.Text.Search
/-!
# Passkeys

The tool lists the sites that have a passkey on the device, and then the passkeys of one site.

A site line ends in `= ` and the site's name. A passkey line is a row of words: its number, the
passkey's id, and what is known of its user. Which words are the user's name and which the mail
address is told by their places: words three and four are the user, five and six the mail address.
A user with an `@` is a mail address, and `(null)` is no user at all.
-/

namespace SecurityKey

open Text

/-- A passkey on the device. -/
structure Credential where
  /-- The site it signs in to. -/
  domain : String
  id : String
  user : String
  email : String
deriving DecidableEq

namespace Credential

/-- The passkey of a site that one line lists. -/
def ofLine? (domain : String) (line : List Char) : Option Credential :=
  match words line with
  | _ :: id :: third :: more =>
    let user := unwords (third :: more.take 1)
    let email := if more.length < 3 then [] else unwords ((more.drop 1).take 2)
    let user := if user = "(null)".toList then [] else user
    some <|
      if '@' ∈ user then ⟨domain, String.ofList id, "", String.ofList user⟩
      else ⟨domain, String.ofList id, String.ofList user, String.ofList email⟩
  | _ => none

example : ofLine? "d.test" "00: Zm9v bob@mail.test es256".toList =
    some ⟨"d.test", "Zm9v", "", "bob@mail.test es256"⟩ := by decide

end Credential

/-- The passkeys of one site. -/
structure Site where
  domain : String
  credentials : List Credential
deriving DecidableEq

namespace Site

/-- The passkeys that a listing gives for a site. -/
def ofListing (domain : String) (text : String) : Site :=
  ⟨domain, (lines text.toList).filterMap (Credential.ofLine? domain)⟩

/-- What follows the first `= ` of a line, if anything does. -/
def assignment? (line : List Char) : Option (List Char) := do
  let (_, value) ← splitOnce? ['=', ' '] (dropReturns line)
  if value.isEmpty then none else some value

/-- The site that one line names. -/
def domainOfLine? (line : List Char) : Option String := do
  let value ← assignment? line
  if (trim value).isEmpty then none else some (String.ofList (trim value))

/-- The sites that a listing names. -/
def domainsOf (text : String) : List String :=
  (lines text.toList).filterMap domainOfLine?

end Site

end SecurityKey
