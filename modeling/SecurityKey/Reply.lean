import SecurityKey.Diagnosis
/-!
# Replies of the tool

A finished invocation leaves an exit code and two texts. A known mark on standard error counts even
when the tool claims success; any other text counts only when it failed. Where standard error is
blank, the error text is what was written to standard output.
-/

namespace SecurityKey

open Text

/-- What a finished invocation leaves. -/
structure Reply where
  /-- Missing when the tool was ended by a signal. -/
  code : Option Int
  stdout : String
  stderr : String
deriving DecidableEq

namespace Reply

/-- Whether the tool reported success. -/
def succeeded (reply : Reply) : Bool :=
  reply.code = some 0

/-- The text that explains a failure. -/
def diagnostics (reply : Reply) : String :=
  if (trim reply.stderr.toList).isEmpty then reply.stdout else reply.stderr

/-- The device error in a reply, if there is one. -/
def deviceError? (reply : Reply) : Option DeviceError :=
  match DeviceError.classify? reply.stderr with
  | some error =>
    if error.kind ≠ .unknown then some error
    else if reply.succeeded then none
    else some (DeviceError.ofFailure reply.diagnostics)
  | none => if reply.succeeded then none else some (DeviceError.ofFailure reply.diagnostics)

end Reply

end SecurityKey
