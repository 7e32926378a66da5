import SecurityKey.Text.Numeral
import SecurityKey.Text.Search
/-!
# Command-line arguments

An argument that begins with a dash is an option, unless it is the dash alone or stands behind
`--`. A long option takes its value behind `=` or from the next argument, a short one also right
behind its letter; the next argument is a value only if it is no option. Flags take no value, can
be written together behind one dash, and nothing can be given twice.

`scan` reads arguments from left to right by a list of option descriptions. It stops at the first
mistake, a surplus operand included, and at the first flag that asks for something else than to run,
so the first of these decides.
-/

namespace SecurityKey.CommandLine

open Text

/-- What an option does. -/
inductive OptionKind
  /-- Is there or is not. -/
  | flag
  /-- Has a value, one of those that a test accepts. -/
  | value (accepts : String → Bool)
  /-- Ends the reading with a halt. -/
  | help
  | version

/-- The description of an option. -/
structure OptionSpec where
  long : String
  short : Option Char
  kind : OptionKind

/-- Why arguments do not lead to a command. -/
inductive Halt
  /-- They are no proper command line. -/
  | usage
  | help
  | version
deriving DecidableEq

/-- What was read: the values of the options by their long names, and the arguments that are no
options. -/
structure Scanned where
  options : List (String × String)
  operands : List String

namespace Scanned

/-- Nothing was read. -/
def empty : Scanned := ⟨[], []⟩

/-- The value of an option. -/
def get? (scanned : Scanned) (long : String) : Option String :=
  (scanned.options.find? fun (name, _) => name = long).map Prod.snd

/-- Whether an option was given. -/
def has (scanned : Scanned) (long : String) : Bool :=
  (scanned.get? long).isSome

end Scanned

/-- Whether an argument looks like an option. -/
def isOption (arg : String) : Bool :=
  arg.toList.head? = some '-' && arg ≠ "-"

/-- Notes an option with its value, which a flag has not. -/
def note (spec : OptionSpec) (value : String) (scanned : Scanned) : Except Halt Scanned :=
  if scanned.has spec.long then .error .usage
  else match spec.kind with
    | .help => .error .help
    | .version => .error .version
    | .flag => .ok { scanned with options := scanned.options ++ [(spec.long, value)] }
    | .value accepts =>
      if accepts value then
        .ok { scanned with options := scanned.options ++ [(spec.long, value)] }
      else .error .usage

/-- Whether an option has a value. -/
def OptionSpec.takesValue (spec : OptionSpec) : Bool :=
  match spec.kind with
  | .value _ => true
  | _ => false

/-- How the letters behind a dash are read: all of them are flags, or the last option still waits
for its value in the next argument. -/
inductive Letters
  | complete (scanned : Scanned)
  | expects (spec : OptionSpec) (scanned : Scanned)

/-- Reads the letters behind a dash. What follows the letter of an option with a value is the
value, less an equals sign. -/
def letters (specs : List OptionSpec) (scanned : Scanned) : List Char → Except Halt Letters
  | [] => .ok (.complete scanned)
  | c :: rest =>
    match specs.find? fun spec => spec.short = some c with
    | none => .error .usage
    | some spec =>
      if spec.takesValue then
        if rest.isEmpty then .ok (.expects spec scanned)
        else
          let value := if rest.head? = some '=' then rest.tail else rest
          (note spec (String.ofList value) scanned).map .complete
      else
        match note spec "" scanned with
        | .ok scanned => letters specs scanned rest
        | .error halt => .error halt

/-- How one argument is read: it is done with, or it is an option that waits for its value in the
next argument. -/
def long (specs : List OptionSpec) (scanned : Scanned) (arg : List Char) : Except Halt Letters :=
  let (name, value) := match splitOnce? ['='] arg with
    | some (name, value) => (name, some value)
    | none => (arg, none)
  match specs.find? fun spec => spec.long = String.ofList name with
  | none => .error .usage
  | some spec =>
    match spec.takesValue, value with
    | true, some value => (note spec (String.ofList value) scanned).map .complete
    | true, none => .ok (.expects spec scanned)
    | false, some _ => .error .usage
    | false, none => (note spec "" scanned).map .complete

/-- Reads one argument that looks like an option. -/
def option (specs : List OptionSpec) (scanned : Scanned) (arg : String) : Except Halt Letters :=
  match arg.toList with
  | '-' :: '-' :: name => long specs scanned name
  | _ :: cluster => letters specs scanned cluster
  | [] => .error .usage

/-- Notes arguments that are no options, `most` of them at most. -/
def noteOperands (most : Nat) (scanned : Scanned) (args : List String) : Except Halt Scanned :=
  if scanned.operands.length + args.length ≤ most then
    .ok { scanned with operands := scanned.operands ++ args }
  else .error .usage

/-- Reads arguments. With `operands`, so many arguments that are no options are gathered at most;
without, the first of them ends the reading, and it and what follows are given back. -/
def scan (specs : List OptionSpec) (operands : Option Nat) (scanned : Scanned) :
    List String → Except Halt (Scanned × List String)
  | [] => .ok (scanned, [])
  | arg :: rest =>
    if arg = "--" then
      match operands with
      | some most => (noteOperands most scanned rest).map fun scanned => (scanned, [])
      | none => if rest.isEmpty then .ok (scanned, []) else .error .usage
    else if isOption arg then
      match option specs scanned arg with
      | .error halt => .error halt
      | .ok (.complete scanned) => scan specs operands scanned rest
      | .ok (.expects spec scanned) =>
        match rest with
        | [] => .error .usage
        | value :: rest =>
          if isOption value then .error .usage
          else match note spec value scanned with
            | .error halt => .error halt
            | .ok scanned => scan specs operands scanned rest
    else match operands with
      | none => .ok (scanned, arg :: rest)
      | some most =>
        match noteOperands most scanned [arg] with
        | .error halt => .error halt
        | .ok scanned => scan specs operands scanned rest

end SecurityKey.CommandLine
