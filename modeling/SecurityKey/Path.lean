/-!
# Paths

Paths are texts with `/` between their parts. Nothing is normalised when they are joined; the
parent of a path leaves out its last part, and with it the repeated and final slashes and the `.`
parts that name nothing.
-/

namespace SecurityKey.Path

/-- A relative path below a directory. -/
def join (directory name : String) : String :=
  if directory.isEmpty || directory.toList.getLast? = some '/' then directory ++ name
  else directory ++ "/" ++ name

/-- A path below `base`, unless it is absolute. -/
def resolve (base path : String) : String :=
  if path.toList.head? = some '/' then path else join base path

/-- The reverse of a path without the slashes and `.` parts that end it. -/
def dropIdle : List Char → List Char
  | '/' :: s => dropIdle s
  | '.' :: '/' :: s => dropIdle s
  | ['.'] => []
  | s => s

/-- How many characters at the beginning of a path are its root, or the `.` that it begins with. -/
def rootLength : List Char → Nat
  | '/' :: _ => 1
  | ['.'] => 1
  | '.' :: '/' :: _ => 1
  | _ => 0

/-- The path without its last part. A root and an empty path have no parent. -/
def parent? (path : String) : Option String :=
  let root := path.toList.take (rootLength path.toList)
  let body := dropIdle (path.toList.drop (rootLength path.toList)).reverse
  if body.isEmpty then
    if root = ['.'] then some "" else none
  else
    some (String.ofList (root ++ (dropIdle (body.dropWhile (· != '/'))).reverse))

example : parent? "//a//b" = some "//a" ∧ parent? "/a/." = some "/" ∧ parent? "./x" = some "." := by
  decide

example : parent? "/" = none ∧ parent? ".." = some "" ∧ parent? "/a/.." = some "/a" := by decide

end SecurityKey.Path
