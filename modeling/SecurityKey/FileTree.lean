import SecurityKey.Locator
import SecurityKey.Text.Blank
/-!
# A tree of files

A tree is given by the paths that were made in it, one after the other, each with the directories
on its way. A path leads to an entry part by part: empty parts stay, `.` stays too, `..` goes up,
and wherever a part is still to be followed there has to be a directory. A final slash is followed
like a `.`, so a path that ends in either names no file.
-/

namespace SecurityKey

open Text

/-- What stands at a path. -/
inductive FileKind
  | directory
  | file (executable : Bool)
deriving DecidableEq

/-- The entries of a tree, by the names that lead to them, the one made last first. -/
structure FileTree where
  entries : List (List (List Char) × FileKind)

namespace FileTree

/-- The parts of a path that are to be followed. -/
def parts (path : String) : List (List Char) :=
  (stretches (· == '/') path.toList).filter (!·.isEmpty) ++
    if path.toList.getLast? = some '/' then [['.']] else []

/-- Where one part of a path leads from a place. -/
def step (place : List (List Char)) (part : List Char) : List (List Char) :=
  if part = ['.'] then place
  else if part = ['.', '.'] then place.dropLast
  else place ++ [part]

/-- The places on the way from `place` along some parts, the last one first. -/
def way (place : List (List Char)) (parts : List (List Char)) : List (List (List Char)) :=
  parts.foldl (fun places part => step (places.headD place) part :: places) [place]

/-- The tree in which some paths were made in order. What is made again is what it was made to be
last. -/
def ofPaths (paths : List (String × FileKind)) : FileTree where
  entries := paths.reverse.flatMap fun (path, kind) =>
    let places := way [] (parts path)
    (places.headD [], kind) :: places.tail.map fun place => (place, .directory)

/-- What stands at a place. -/
def kindAt? (tree : FileTree) (place : List (List Char)) : Option FileKind :=
  (tree.entries.find? (·.1 = place)).map Prod.snd

/-- The place that parts lead to from `place`. -/
def walk? (tree : FileTree) (place : List (List Char)) :
    List (List Char) → Option (List (List Char))
  | [] => some place
  | part :: rest =>
    if tree.kindAt? place = some .directory then walk? tree (step place part) rest else none

/-- What stands at a path. -/
def lookup? (tree : FileTree) (path : String) : Option FileKind :=
  (tree.walk? [] (parts path)).bind tree.kindAt?

/-- What is to be seen of a tree. -/
def view (tree : FileTree) : FileView where
  isFile path :=
    match tree.lookup? path with
    | some (.file _) => true
    | _ => false
  isExecutable path := tree.lookup? path = some (.file true)

end FileTree

end SecurityKey
