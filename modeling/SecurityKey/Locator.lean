import SecurityKey.Path
/-!
# Finding the tool

The tool is looked for once, in this order: where the user says it is, beside the running program
and in the two directories of an application bundle around it, in four places below the program's
directory and then below the working directory, and last on the search path. Only regular files
count, and on the search path only executable ones. If there is none, the bare name has to do.
-/

namespace SecurityKey

/-- Where to look for the tool. -/
structure Locator where
  explicit : Option String
  /-- The directory of the running program. -/
  exeDir : Option String
  workDir : Option String

/-- What is to be seen of the files: which paths are regular files, and which of them can be
executed. -/
structure FileView where
  isFile : String → Bool
  isExecutable : String → Bool

namespace Locator

/-- The name of the tool. -/
def toolName : String := "fido2-token2"

/-- The places below a directory that may hold the tool. -/
def places : List String := ["build/staging", "staging", "build/tools", "tools"]

/-- The paths of an application bundle around a directory that may hold the tool. -/
def bundlePaths (exeDir : String) : List String :=
  match Path.parent? exeDir with
  | none => []
  | some bundle =>
    ["MacOS", "Frameworks"].map fun part => Path.join (Path.join bundle part) toolName

/-- The paths to try before the search path, in order. -/
def candidates (locator : Locator) : List String :=
  locator.explicit.toList ++
    locator.exeDir.toList.flatMap (fun dir => Path.join dir toolName :: bundlePaths dir) ++
    (locator.exeDir.toList ++ locator.workDir.toList).flatMap fun base =>
      places.map fun place => Path.join (Path.join base place) toolName

/-- The first executable file of a name on a search path. -/
def onSearchPath? (files : FileView) (searchPath : List String) (name : String) :
    Option String :=
  (searchPath.map fun dir => Path.join dir name).find? fun path =>
    files.isFile path && files.isExecutable path

/-- The path of the tool. -/
def resolve (locator : Locator) (files : FileView) (searchPath : List String) : String :=
  ((locator.candidates.find? files.isFile).or (onSearchPath? files searchPath toolName)).getD
    toolName

end Locator

end SecurityKey
