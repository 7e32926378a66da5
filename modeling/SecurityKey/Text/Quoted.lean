import SecurityKey.Text.Hidden
import SecurityKey.Text.Numeral
/-!
# Quoted texts

A text between double quotes, with the quote and the backslash escaped, the four common controls
by their letters, and every other character that does not show by its number in braces.
-/

namespace SecurityKey.Text

/-- The escape of a character by its number, in lower-case hexadecimal. -/
def numberEscape (c : Char) : List Char :=
  "\\u\x7b".toList ++ Nat.toDigits 16 c.toNat ++ ['\x7d']

/-- The written form of one character. -/
def escape (c : Char) : List Char :=
  if c = '"' then ['\\', '"']
  else if c = '\\' then ['\\', '\\']
  else if c = '\n' then ['\\', 'n']
  else if c = '\r' then ['\\', 'r']
  else if c = '\t' then ['\\', 't']
  else if c = '\x00' then ['\\', '0']
  else if c.toNat < 0x20 || c.toNat = 0x7F || isHidden c then numberEscape c
  else [c]

/-- A text in double quotes. -/
def quoted (s : String) : String :=
  String.ofList ('"' :: s.toList.flatMap escape ++ ['"'])

/-- Quoted texts in brackets. -/
def quotedList (texts : List String) : String :=
  "[" ++ String.intercalate ", " (texts.map quoted) ++ "]"

/-- A value that may be missing. -/
def someOrNone : Option String → String
  | none => "None"
  | some text => "Some(" ++ text ++ ")"

example : quoted "a\"\\\n\x01é" = "\"a\\\"\\\\\\n\\u\x7b1\x7dé\"" := by decide +kernel

end SecurityKey.Text
