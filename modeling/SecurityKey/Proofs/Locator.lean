import Mathlib.Data.List.Basic
import Mathlib.Tactic.Common
import Mathlib.Tactic.MkIffOfInductiveProp
import SecurityKey.FileTree
import SecurityKey.Locator
import SecurityKey.Proofs.Path
/-!
# Which file the tool is

There are twelve spots where the tool may be (`Spot`). Where a spot is depends on what the locator
knows, and one that it cannot tell is nowhere (`At`). The tool is taken from the first spot that
holds a regular file, else from the first directory of the search path that holds one which can be
executed, and else the bare name has to do (`Chosen`).

The two directories of a bundle are searched `MacOS` first. The other order would choose another
file only where both of them hold the tool and no spot before them does.

Main statement: `resolve_chosen`.
-/

namespace SecurityKey.Locator

/-! ## Spots -/

/-- Where the tool may be. -/
inductive Spot
  | explicit
  /-- In the directory of the running program. -/
  | beside
  /-- In a directory of the bundle, next to the program's. -/
  | bundled (part : String)
  /-- Below the program's directory. -/
  | belowProgram (place : String)
  /-- Below the working directory. -/
  | belowWork (place : String)

/-- The spots in the order of the search, with the directories of a bundle in the order given. -/
def spots (bundle : List String) : List Spot :=
  [.explicit, .beside] ++ bundle.map .bundled ++
    [.belowProgram "build/staging", .belowProgram "staging", .belowProgram "build/tools",
      .belowProgram "tools", .belowWork "build/staging", .belowWork "staging",
      .belowWork "build/tools", .belowWork "tools"]

/-- A path leads to a spot. -/
inductive At (locator : Locator) : Spot → String → Prop
  | explicit {path : String} : locator.explicit = some path → At locator .explicit path
  | beside {dir : String} : locator.exeDir = some dir →
      At locator .beside (Path.join dir toolName)
  | bundled {dir bundle part : String} : locator.exeDir = some dir → Path.IsParent dir bundle →
      At locator (.bundled part) (Path.join (Path.join bundle part) toolName)
  | belowProgram {dir place : String} : locator.exeDir = some dir →
      At locator (.belowProgram place) (Path.join (Path.join dir place) toolName)
  | belowWork {dir place : String} : locator.workDir = some dir →
      At locator (.belowWork place) (Path.join (Path.join dir place) toolName)

/-- A regular file is at a spot. -/
def Holds (locator : Locator) (files : FileView) (spot : Spot) : Prop :=
  ∃ path, At locator spot path ∧ files.isFile path

/-- A directory of the search path holds the tool, and it can be executed. -/
def Runs (files : FileView) (dir : String) : Prop :=
  files.isFile (Path.join dir toolName) ∧ files.isExecutable (Path.join dir toolName)

/-- What is the first of a list with a property. -/
def First {α : Type} (P : α → Prop) (list : List α) (a : α) : Prop :=
  ∃ earlier later, list = earlier ++ a :: later ∧ P a ∧ ∀ b ∈ earlier, ¬ P b

/-- The path that a search in some order of the spots chooses. -/
inductive Chosen (locator : Locator) (files : FileView) (searchPath : List String)
    (order : List Spot) : String → Prop
  | placed {spot : Spot} {path : String} : First (Holds locator files) order spot →
      At locator spot path → Chosen locator files searchPath order path
  | searched {dir : String} : (∀ spot ∈ order, ¬ Holds locator files spot) →
      First (Runs files) searchPath dir →
      Chosen locator files searchPath order (Path.join dir toolName)
  | bare : (∀ spot ∈ order, ¬ Holds locator files spot) → (∀ dir ∈ searchPath, ¬ Runs files dir) →
      Chosen locator files searchPath order toolName

/-! ## What is chosen -/

variable {locator : Locator} {files : FileView} {searchPath : List String} {order : List Spot}
  {spot : Spot} {path : String}

/-- The path that leads to a spot. -/
def pathTo? (locator : Locator) : Spot → Option String
  | .explicit => locator.explicit
  | .beside => locator.exeDir.map fun dir => Path.join dir toolName
  | .bundled part => (locator.exeDir.bind Path.parent?).map fun bundle =>
      Path.join (Path.join bundle part) toolName
  | .belowProgram place => locator.exeDir.map fun dir => Path.join (Path.join dir place) toolName
  | .belowWork place => locator.workDir.map fun dir => Path.join (Path.join dir place) toolName

theorem pathTo?_eq_some_iff : locator.pathTo? spot = some path ↔ At locator spot path := by
  constructor
  · intro h
    cases spot with
    | explicit => exact .explicit h
    | beside =>
      obtain ⟨dir, hdir, rfl⟩ := Option.map_eq_some_iff.1 h
      exact .beside hdir
    | bundled part =>
      obtain ⟨bundle, hbundle, rfl⟩ := Option.map_eq_some_iff.1 h
      obtain ⟨dir, hdir, hparent⟩ := Option.bind_eq_some_iff.1 hbundle
      exact .bundled hdir (Path.parent?_eq_some_iff.1 hparent)
    | belowProgram place =>
      obtain ⟨dir, hdir, rfl⟩ := Option.map_eq_some_iff.1 h
      exact .belowProgram hdir
    | belowWork place =>
      obtain ⟨dir, hdir, rfl⟩ := Option.map_eq_some_iff.1 h
      exact .belowWork hdir
  · intro h
    cases h with
    | explicit h => exact h
    | beside hdir => simp [pathTo?, hdir]
    | bundled hdir hparent => simp [pathTo?, hdir, Path.parent?_eq_some_iff.2 hparent]
    | belowProgram hdir => simp [pathTo?, hdir]
    | belowWork hdir => simp [pathTo?, hdir]

/-- The paths to try lead to the spots, in this order. -/
theorem candidates_eq (locator : Locator) :
    locator.candidates = (spots ["MacOS", "Frameworks"]).filterMap locator.pathTo? := by
  obtain ⟨explicit, exeDir, workDir⟩ := locator
  rcases exeDir with _ | dir
  · cases explicit <;> cases workDir <;> rfl
  · cases hparent : Path.parent? dir <;> cases explicit <;> cases workDir <;>
      simp [candidates, bundlePaths, places, spots, List.filterMap_cons, pathTo?, hparent]

/-- The path of the first spot that holds a file. -/
def placed? (locator : Locator) (files : FileView) (order : List Spot) : Option String :=
  (order.filterMap locator.pathTo?).find? files.isFile

/-- What a search in some order of the spots finds. -/
def search (locator : Locator) (files : FileView) (searchPath : List String) (order : List Spot) :
    String :=
  ((locator.placed? files order).or (onSearchPath? files searchPath toolName)).getD toolName

theorem resolve_eq_search (locator : Locator) (files : FileView) (searchPath : List String) :
    locator.resolve files searchPath =
      locator.search files searchPath (spots ["MacOS", "Frameworks"]) := by
  rw [resolve, candidates_eq, search, placed?]

theorem first_iff {α : Type} {p : α → Bool} {P : α → Prop} (hp : ∀ a, p a ↔ P a) {list : List α}
    {a : α} : list.find? p = some a ↔ First P list a := by
  simp only [List.find?_eq_some_iff_append, First, ← hp, Bool.not_eq_true, Bool.not_eq_eq_eq_not,
    Bool.not_true]
  constructor
  · rintro ⟨ha, earlier, later, hlist, hearlier⟩
    exact ⟨earlier, later, hlist, ha, hearlier⟩
  · rintro ⟨earlier, later, hlist, ha, hearlier⟩
    exact ⟨ha, earlier, later, hlist, hearlier⟩

theorem holds_iff (spot : Spot) :
    (locator.pathTo? spot).any files.isFile ↔ Holds locator files spot := by
  simp only [Option.any_eq_true, pathTo?_eq_some_iff, Holds]

theorem placed?_eq_some_iff : locator.placed? files order = some path ↔
    ∃ spot, First (Holds locator files) order spot ∧ At locator spot path := by
  rw [placed?, List.find?_filterMap, Option.bind_eq_some_iff]
  simp only [first_iff holds_iff, pathTo?_eq_some_iff]

theorem placed?_eq_none_iff : locator.placed? files order = none ↔
    ∀ spot ∈ order, ¬ Holds locator files spot := by
  simp only [placed?, List.find?_eq_none, List.mem_filterMap, pathTo?_eq_some_iff]
  constructor
  · rintro h spot hmem ⟨path, hat, hfile⟩
    exact h path ⟨spot, hmem, hat⟩ hfile
  · rintro h path ⟨spot, hmem, hat⟩ hfile
    exact h spot hmem ⟨path, hat, hfile⟩

theorem onSearchPath?_eq_some_iff : onSearchPath? files searchPath toolName = some path ↔
    ∃ dir, First (Runs files) searchPath dir ∧ Path.join dir toolName = path := by
  rw [onSearchPath?, List.find?_map, Option.map_eq_some_iff]
  refine exists_congr fun dir => and_congr_left fun _ => first_iff fun dir => ?_
  exact Bool.and_eq_true_iff

theorem onSearchPath?_eq_none_iff : onSearchPath? files searchPath toolName = none ↔
    ∀ dir ∈ searchPath, ¬ Runs files dir := by
  simp [onSearchPath?, Runs]

theorem chosen_search (locator : Locator) (files : FileView) (searchPath : List String)
    (order : List Spot) :
    Chosen locator files searchPath order (locator.search files searchPath order) := by
  rw [search]
  cases hplaced : locator.placed? files order with
  | some found =>
    obtain ⟨spot, hfirst, hat⟩ := placed?_eq_some_iff.1 hplaced
    exact .placed hfirst hat
  | none =>
    have hnone := placed?_eq_none_iff.1 hplaced
    cases hsearched : onSearchPath? files searchPath toolName with
    | some found =>
      obtain ⟨dir, hfirst, rfl⟩ := onSearchPath?_eq_some_iff.1 hsearched
      exact .searched hnone hfirst
    | none => exact .bare hnone (onSearchPath?_eq_none_iff.1 hsearched)

theorem Chosen.eq_search (h : Chosen locator files searchPath order path) :
    path = locator.search files searchPath order := by
  cases h with
  | placed hfirst hat =>
    rw [search, placed?_eq_some_iff.2 ⟨_, hfirst, hat⟩]
    rfl
  | searched hnone hfirst =>
    rw [search, placed?_eq_none_iff.2 hnone, onSearchPath?_eq_some_iff.2 ⟨_, hfirst, rfl⟩]
    rfl
  | bare hnone hpath =>
    rw [search, placed?_eq_none_iff.2 hnone, onSearchPath?_eq_none_iff.2 hpath]
    rfl

/-- A search in some order of the spots finds the one path that is to be chosen. -/
theorem chosen_iff_search :
    Chosen locator files searchPath order path ↔ path = locator.search files searchPath order := by
  refine ⟨Chosen.eq_search, ?_⟩
  rintro rfl
  exact chosen_search locator files searchPath order

instance : Decidable (Chosen locator files searchPath order path) :=
  decidable_of_iff _ chosen_iff_search.symm

/-! ## The directories of a bundle -/

/-- Both directories of a bundle hold the tool, and no spot before them does. -/
@[mk_iff]
structure Contested (locator : Locator) (files : FileView) : Prop where
  explicit : ¬ Holds locator files .explicit
  beside : ¬ Holds locator files .beside
  macOS : Holds locator files (.bundled "MacOS")
  frameworks : Holds locator files (.bundled "Frameworks")

/-- The path of a spot that holds a file. -/
def held? (locator : Locator) (files : FileView) (spot : Spot) : Option String :=
  (locator.pathTo? spot).filter files.isFile

theorem held?_isSome : (locator.held? files spot).isSome ↔ Holds locator files spot := by
  rw [← holds_iff, held?, Option.isSome_filter]

theorem held?_eq_none_iff : locator.held? files spot = none ↔ ¬ Holds locator files spot := by
  rw [← held?_isSome, Option.not_isSome_iff_eq_none]

theorem at_of_held? (h : locator.held? files spot = some path) : At locator spot path :=
  pathTo?_eq_some_iff.1 (Option.filter_eq_some_iff.1 h).1

theorem placed?_cons (spot : Spot) (order : List Spot) : locator.placed? files (spot :: order) =
    (locator.held? files spot).or (locator.placed? files order) := by
  rw [placed?, placed?, held?, List.filterMap_cons]
  cases locator.pathTo? spot with
  | none => rfl
  | some path => cases hfile : files.isFile path <;> simp [Option.filter, hfile]

theorem At.components_bundled {part : String} (h : At locator (.bundled part) path)
    (hpart : '/' ∉ part.toList) (hnames : Path.Names part.toList) :
    ∃ front, Path.components path.toList = front ++ [part.toList, toolName.toList] := by
  cases h with
  | @bundled _ bundle =>
    refine ⟨Path.components bundle.toList, ?_⟩
    rw [Path.components_join (by decide) (by decide), Path.components_join hpart hnames,
      List.append_assoc]
    rfl

/-- No path leads to both directories of a bundle. -/
theorem At.bundled_ne {other : String} (hmacOS : At locator (.bundled "MacOS") path)
    (hframeworks : At locator (.bundled "Frameworks") other) : path ≠ other := by
  rintro rfl
  obtain ⟨front, hfront⟩ := hmacOS.components_bundled (by decide) (by decide)
  obtain ⟨front', hfront'⟩ := hframeworks.components_bundled (by decide) (by decide)
  have hparts := (List.append_inj' (hfront.symm.trans hfront') rfl).2
  revert hparts
  decide

theorem placed?_spots (part other : String) : locator.placed? files (spots [part, other]) =
    (locator.held? files .explicit).or ((locator.held? files .beside).or
      ((locator.held? files (.bundled part)).or ((locator.held? files (.bundled other)).or
        (locator.placed? files ((spots []).drop 2))))) := by
  simp only [← placed?_cons]
  rfl

/-- The order of the two directories matters only where both of them are in question. -/
theorem search_swapped_iff (locator : Locator) (files : FileView) (searchPath : List String) :
    locator.search files searchPath (spots ["MacOS", "Frameworks"]) =
        locator.search files searchPath (spots ["Frameworks", "MacOS"]) ↔
      ¬ Contested locator files := by
  rw [contested_iff, ← held?_eq_none_iff, ← held?_eq_none_iff, ← held?_isSome, ← held?_isSome,
    search, search, placed?_spots, placed?_spots]
  cases locator.held? files .explicit with
  | some path => simp
  | none =>
    cases locator.held? files .beside with
    | some path => simp
    | none =>
      cases hmacOS : locator.held? files (.bundled "MacOS") with
      | none => simp
      | some path =>
        cases hframeworks : locator.held? files (.bundled "Frameworks") with
        | none => simp
        | some other =>
          have hne : path ≠ other := At.bundled_ne (at_of_held? hmacOS) (at_of_held? hframeworks)
          simp [hne]

/-- **The tool is found at the first spot that holds a regular file**, else in the first directory
of the search path that holds one to execute, and else its bare name is given. Of the directories of
a bundle `MacOS` is the first. With `Frameworks` before it the same file would be chosen, unless
both of them hold the tool and no spot before them does. -/
theorem resolve_chosen (locator : Locator) (files : FileView) (searchPath : List String) :
    (∀ path, Chosen locator files searchPath (spots ["MacOS", "Frameworks"]) path ↔
      path = locator.resolve files searchPath) ∧
    (Chosen locator files searchPath (spots ["Frameworks", "MacOS"])
      (locator.resolve files searchPath) ↔ ¬ Contested locator files) := by
  rw [resolve_eq_search]
  exact ⟨fun path => chosen_iff_search, chosen_iff_search.trans (search_swapped_iff _ _ _)⟩

/-- A bundle with the tool in two of its directories, and a directory where the tool would come
first. -/
def doubleBundle : FileTree :=
  .ofPaths [("/app/bin/fido2-token2", .directory), ("/app/MacOS/fido2-token2", .file true),
    ("/app/Frameworks/fido2-token2", .file true)]

/-- With `Frameworks` before `MacOS` another file would be chosen there. -/
theorem resolve_doubleBundle :
    (⟨none, some "/app/bin", none⟩ : Locator).resolve doubleBundle.view [] =
        "/app/MacOS/fido2-token2" ∧
      Chosen ⟨none, some "/app/bin", none⟩ doubleBundle.view [] (spots ["Frameworks", "MacOS"])
        "/app/Frameworks/fido2-token2" ∧
      ¬ Chosen ⟨none, some "/app/bin", none⟩ doubleBundle.view [] (spots ["Frameworks", "MacOS"])
        "/app/MacOS/fido2-token2" := by
  decide +kernel

end SecurityKey.Locator
