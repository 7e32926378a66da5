import SecurityKey.Text.Blank
/-!
# Command lines of a POSIX shell

`commandLine` writes a program and its arguments as one line that a shell reads back as exactly
these words. A word of letters, digits and a few harmless marks stands as it is; any other is put
between single quotes, where nothing is special but the single quote itself.

`words?` reads a line by the shell's rules for words. It refuses a line with an operator, an
expansion or a wildcard outside of quotes, since such a line is more than a list of words.
-/

namespace SecurityKey.Shell

/-! ## Writing -/

/-- The characters that never need quotes. -/
def isHarmless (c : Char) : Bool :=
  c.isAlphanum || "/-_.:=+@".toList.contains c

/-- A character between single quotes. A single quote ends them, stands escaped, and opens them
again. -/
def quoteChar (c : Char) : List Char :=
  if c = '\'' then ['\'', '\\', '\'', '\''] else [c]

/-- The written form of a word. -/
def quote (word : List Char) : List Char :=
  if !word.isEmpty && word.all isHarmless then word
  else '\'' :: word.flatMap quoteChar ++ ['\'']

/-- The command line of a program with its arguments. -/
def commandLine (program : String) (args : List String) : String :=
  String.ofList (Text.unwords ((program :: args).map fun word => quote word.toList))

/-! ## Reading -/

/-- What the next character is read under. -/
inductive Quoting
  | plain
  /-- Right behind a backslash. -/
  | escaped
  /-- Between single quotes. -/
  | single
deriving DecidableEq

/-- The characters that mean something to the shell outside of quotes. -/
def isSpecial (c : Char) : Bool :=
  "|&;<>()$`\"*?[]#~!\x7b\x7d%".toList.contains c

/-- The characters that separate words. -/
def isSeparator (c : Char) : Bool :=
  c = ' ' || c = '\t' || c = '\n'

/-- Reads on from inside a line. `word` is what is read of the current word, if one has begun. -/
def readWords (quoting : Quoting) (word : Option (List Char)) :
    List Char → Option (List (List Char))
  | [] => if quoting = .plain then some word.toList else none
  | c :: s =>
    match quoting with
    | .single =>
      if c = '\'' then readWords .plain word s
      else readWords .single (some (word.getD [] ++ [c])) s
    | .escaped => readWords .plain (some (word.getD [] ++ [c])) s
    | .plain =>
      if c = '\'' then readWords .single (some (word.getD [])) s
      else if c = '\\' then readWords .escaped (some (word.getD [])) s
      else if isSeparator c then (readWords .plain none s).map (word.toList ++ ·)
      else if isSpecial c then none
      else readWords .plain (some (word.getD [] ++ [c])) s

/-- The words of a command line. -/
def words? (line : String) : Option (List String) :=
  (readWords .plain none line.toList).map fun words => words.map String.ofList

example : commandLine "tool" ["-n", "left index", "it's", ""] =
    "tool -n 'left index' 'it'\\''s' ''" := by decide

example : words? "tool -n 'left index' 'it'\\''s' ''" =
    some ["tool", "-n", "left index", "it's", ""] ∧ words? "tool; rm" = none := by decide

end SecurityKey.Shell
