/-!
# Letter case

The words that are searched without regard to case (`error`, `fingerprint`, `yes`) are written in
the letters a to z. No letter outside A to Z becomes one of *theirs* under the lower-casing of
Unicode: the Kelvin sign becomes `k`, which none of them has, and the dotted capital I becomes an
`i` that a combining dot follows, which stands in none of them. Lowering A to Z alone therefore
finds the same occurrences.
-/

namespace SecurityKey.Text

/-- A text with A to Z in lower case. -/
def lowered (s : List Char) : List Char :=
  s.map Char.toLower

end SecurityKey.Text
