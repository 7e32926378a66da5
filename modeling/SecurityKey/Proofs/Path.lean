import Mathlib.Data.List.Induction
import Mathlib.Tactic.Common
import SecurityKey.Path
/-!
# The parent of a path

A path goes through components: its root, if it begins with a slash, and then the pieces between
its slashes. Empty pieces name nothing, and neither does a `.`, unless the path begins with it
(`components`).

The parent of a path is the shortest beginning of it that goes through all components but the last
(`IsParent`). `parent?` finds it whenever there is one (`parent?_eq_some_iff`), which is whenever
there is a component besides the root.
-/

namespace SecurityKey.Path

variable {s t w front name r : List Char}

/-! ## Components -/

/-- Whether a piece between slashes names anything. -/
def Names (piece : List Char) : Prop :=
  piece ≠ [] ∧ piece ≠ ['.']

instance : DecidablePred Names :=
  fun _ => inferInstanceAs (Decidable (_ ∧ _))

/-- The pieces of a text between its slashes that name something. -/
def named (s : List Char) : List (List Char) :=
  (s.splitOn '/').filter (Names ·)

/-- What a path goes through. The root is a slash. -/
def components (path : List Char) : List (List Char) :=
  match path.splitOn '/' with
  | [] => []
  | [] :: rest => (if path = [] then [] else [['/']]) ++ rest.filter (Names ·)
  | first :: rest => first :: rest.filter (Names ·)

@[simp] theorem named_nil : named [] = [] :=
  rfl

theorem named_append_slash (s t : List Char) : named (s ++ '/' :: t) = named s ++ named t := by
  rw [named, List.splitOn_append_cons_self, List.filter_append, named, named]

theorem named_of_not_mem (h : '/' ∉ w) : named w = if Names w then [w] else [] := by
  rw [named, List.splitOn_eq_singleton h]
  by_cases hw : Names w <;> simp [hw]

@[simp] theorem components_nil : components [] = [] :=
  rfl

theorem components_slash (s : List Char) : components ('/' :: s) = ['/'] :: named s := by
  have hsplit : ('/' :: s).splitOn '/' = [] :: s.splitOn '/' :=
    List.splitOn_append_cons_self [] s
  rw [components, hsplit]
  rfl

theorem components_of_not_mem (h : '/' ∉ w) (hne : w ≠ []) : components w = [w] := by
  obtain ⟨c, w, rfl⟩ := List.exists_cons_of_ne_nil hne
  rw [components, List.splitOn_eq_singleton h]
  rfl

/-- Behind the first slash all pieces count alike. -/
theorem components_append_slash (s t : List Char) :
    components (s ++ '/' :: t) = components (s ++ ['/']) ++ named t := by
  obtain ⟨first, rest, hs⟩ := List.exists_cons_of_ne_nil (List.splitOnP_ne_nil (· == '/') s)
  have hs : s.splitOn '/' = first :: rest := hs
  rw [components, components, List.splitOn_append_cons_self, List.splitOn_append_cons_self, hs,
    List.cons_append, List.cons_append]
  cases first <;> simp [named, Names]

/-- A slash at the end of a path adds nothing to it. -/
theorem components_concat_slash (h : s ≠ []) : components (s ++ ['/']) = components s := by
  obtain ⟨first, rest, hs⟩ := List.exists_cons_of_ne_nil (List.splitOnP_ne_nil (· == '/') s)
  have hs : s.splitOn '/' = first :: rest := hs
  rw [components, components, List.splitOn_append_cons_self, hs, List.cons_append]
  cases first <;> simp [Names, h]

/-- A text has one piece, or a last one. -/
theorem last_piece (s : List Char) :
    '/' ∉ s ∨ ∃ front name, s = front ++ '/' :: name ∧ '/' ∉ name := by
  induction s with
  | nil => exact .inl List.not_mem_nil
  | cons c s ih =>
    rcases ih with hs | ⟨front, name, rfl, hname⟩
    · by_cases hc : c = '/'
      · exact .inr ⟨[], s, by rw [hc]; rfl, hs⟩
      · exact .inl (by simp [hs, Ne.symm hc])
    · exact .inr ⟨c :: front, name, rfl, hname⟩

/-- A text ends in a name, which stands at its beginning or behind a slash. -/
structure LastName (front name : List Char) : Prop where
  slash_not_mem : '/' ∉ name
  names : Names name
  front_ended : front = [] ∨ ∃ more, front = more ++ ['/']

theorem LastName.named_append (h : LastName front name) :
    named (front ++ name) = named front ++ [name] := by
  obtain ⟨hname, hnames, rfl | ⟨more, rfl⟩⟩ := h
  · rw [List.nil_append, named_nil, List.nil_append, named_of_not_mem hname, if_pos hnames]
  · rw [List.append_assoc, List.singleton_append, named_append_slash, named_append_slash, named_nil,
      List.append_nil, named_of_not_mem hname, if_pos hnames]

/-! ## Beginnings of paths -/

/-- How many characters of a path belong to its components. -/
def extent (path : List Char) : Nat :=
  (components path).flatten.length

theorem extent_of_not_mem (h : '/' ∉ w) : extent w = w.length := by
  by_cases hne : w = []
  · rw [hne]
    rfl
  · simp [extent, components_of_not_mem h hne]

theorem extent_piece (front : List Char) (h : '/' ∉ w) : extent (front ++ '/' :: w) =
    extent (front ++ ['/']) + if Names w then w.length else 0 := by
  rw [extent, components_append_slash, named_of_not_mem h, extent]
  by_cases hw : Names w <;> simp [hw]

theorem Names.concat (h : Names w) (c : Char) : Names (w ++ [c]) := by
  obtain ⟨d, w, rfl⟩ := List.exists_cons_of_ne_nil h.1
  simp [Names]

theorem extent_concat (s : List Char) (c : Char) : extent s ≤ extent (s ++ [c]) := by
  by_cases hc : c = '/'
  · subst hc
    by_cases hs : s = []
    · rw [hs]
      exact Nat.zero_le _
    · exact Nat.le_of_eq (by rw [extent, extent, components_concat_slash hs])
  · rcases last_piece s with hs | ⟨front, name, rfl, hname⟩
    · rw [extent_of_not_mem hs, extent_of_not_mem (by simp [hs, Ne.symm hc])]
      simp
    · have hmore : '/' ∉ name ++ [c] := by simp [hname, Ne.symm hc]
      rw [List.append_assoc, List.cons_append, extent_piece front hname, extent_piece front hmore]
      by_cases hnames : Names name
      · simp [hnames, hnames.concat c]
      · simp [hnames]

theorem extent_le_of_prefix (h : s <+: t) : extent s ≤ extent t := by
  obtain ⟨more, rfl⟩ := h
  induction more using List.reverseRecOn with
  | nil => simp
  | append_singleton more c ih =>
    rw [← List.append_assoc]
    exact Nat.le_trans ih (extent_concat _ c)

/-- The last character of a name belongs to a component. -/
theorem LastName.extent_dropLast_lt (h : LastName front name) :
    extent (front ++ name).dropLast < extent (front ++ name) := by
  obtain ⟨hname, hnames, hfront⟩ := h
  have hpos : 0 < name.length := List.length_pos_iff.2 hnames.1
  have hlast : '/' ∉ name.dropLast := fun hmem => hname (List.dropLast_subset name hmem)
  rw [List.dropLast_append_of_ne_nil hnames.1]
  rcases hfront with rfl | ⟨more, rfl⟩
  · rw [List.nil_append, List.nil_append, extent_of_not_mem hlast, extent_of_not_mem hname,
      List.length_dropLast]
    omega
  · rw [List.append_assoc, List.append_assoc, List.singleton_append, List.singleton_append,
      extent_piece more hlast, extent_piece more hname, if_pos hnames, List.length_dropLast]
    split_ifs <;> omega

/-- Whether every beginning of a path goes through less. -/
def Shortest (path : List Char) : Prop :=
  ∀ beginning, beginning <+: path → components beginning = components path → beginning = path

theorem shortest_of_extent (h : extent s.dropLast < extent s) : Shortest s := by
  rintro beginning ⟨more, rfl⟩ hsame
  by_contra hne
  have hmore : more ≠ [] := fun hnil => hne (by rw [hnil, List.append_nil])
  have hpre : beginning <+: (beginning ++ more).dropLast := by
    rw [List.dropLast_append_of_ne_nil hmore]
    exact List.prefix_append _ _
  have hle := extent_le_of_prefix hpre
  rw [extent, hsame, ← extent] at hle
  omega

/-- The parent of a path is the shortest beginning of it that goes through all its components but
the last one. A path that goes through nothing, or just through the root, has none. -/
structure IsParent (path parent : String) : Prop where
  goes_somewhere : components path.toList ≠ [] ∧ components path.toList ≠ [['/']]
  beginning : parent.toList <+: path.toList
  components_eq : components parent.toList = (components path.toList).dropLast
  shortest : Shortest parent.toList

theorem IsParent.unique {path parent other : String} (h : IsParent path parent)
    (h' : IsParent path other) : parent = other := by
  have hsame : components parent.toList = components other.toList :=
    h.components_eq.trans h'.components_eq.symm
  rw [← String.toList_inj]
  rcases List.prefix_or_prefix_of_prefix h.beginning h'.beginning with hpre | hpre
  · exact h'.shortest _ hpre hsame
  · exact (h.shortest _ hpre hsame.symm).symm

/-! ## Idle ends -/

theorem named_dropIdle (r : List Char) : named (dropIdle r).reverse = named r.reverse := by
  fun_induction dropIdle r with
  | case1 s ih => rw [ih, List.reverse_cons, named_append_slash, named_nil, List.append_nil]
  | case2 s ih =>
    have hidle : named (s.reverse ++ '/' :: ['.']) = named s.reverse := by
      rw [named_append_slash]
      exact List.append_nil _
    simpa [ih] using hidle.symm
  | case3 => rfl
  | case4 s => rfl

theorem dropIdle_suffix (r : List Char) : dropIdle r <:+ r := by
  fun_induction dropIdle r with
  | case1 s ih => exact ih.trans (List.suffix_cons _ _)
  | case2 s ih => exact ih.trans ((List.suffix_cons _ _).trans (List.suffix_cons _ _))
  | case3 => exact List.nil_suffix
  | case4 s => exact List.suffix_rfl

/-- Nothing is left without its idle end, or something that ends in a name. -/
theorem dropIdle_cases (r : List Char) : dropIdle r = [] ∨
    ∃ front name, dropIdle r = name.reverse ++ front.reverse ∧ LastName front name := by
  fun_induction dropIdle r with
  | case1 s ih => exact ih
  | case2 s ih => exact ih
  | case3 => exact .inl rfl
  | case4 s hslash hdot hlone =>
    have hnames : ∀ w, w ≠ [] → w ≠ ['.'] → Names w.reverse := by
      intro w hne hdot
      exact ⟨by simpa using hne, by simpa [List.reverse_eq_iff] using hdot⟩
    by_cases hmem : '/' ∈ s
    · obtain ⟨w, rest, rfl, hw⟩ := List.eq_append_cons_of_mem hmem
      refine .inr ⟨rest.reverse ++ ['/'], w.reverse, by simp, by simpa using hw, hnames w ?_ ?_,
        .inr ⟨rest.reverse, rfl⟩⟩
      · rintro rfl
        exact hslash rest rfl
      · rintro rfl
        exact hdot rest rfl
    · by_cases hnil : s = []
      · exact .inl hnil
      · exact .inr ⟨[], s.reverse, by simp, by simpa using hmem, hnames s hnil hlone, .inl rfl⟩

/-! ## Roots -/

theorem root_cases (s : List Char) : s.take (rootLength s) = [] ∨
    s.take (rootLength s) = ['/'] ∨ s.take (rootLength s) = ['.'] := by
  fun_cases rootLength s <;> simp

theorem rootLength_eq_zero_iff :
    rootLength s = 0 ↔ ¬ ['/'] <+: s ∧ s ≠ ['.'] ∧ ¬ ['.', '/'] <+: s := by
  fun_cases rootLength s with
  | case1 rest => simp
  | case2 => simp
  | case3 rest => simp
  | case4 s hslash hdot hboth =>
    refine ⟨fun _ => ⟨?_, hdot, ?_⟩, fun _ => rfl⟩
    · rintro ⟨rest, rfl⟩
      exact hslash rest rfl
    · rintro ⟨rest, rfl⟩
      exact hboth rest rfl

/-- Without a root a path goes through what its pieces name. -/
theorem components_of_rootless (h : rootLength s = 0) : components s = named s := by
  obtain ⟨hslash, hdot, hboth⟩ := rootLength_eq_zero_iff.1 h
  by_cases hmem : '/' ∈ s
  · obtain ⟨w, rest, rfl, hw⟩ := List.eq_append_cons_of_mem hmem
    have hne : w ≠ [] := by
      rintro rfl
      exact hslash ⟨rest, rfl⟩
    have hnames : Names w := by
      refine ⟨hne, ?_⟩
      rintro rfl
      exact hboth ⟨rest, rfl⟩
    rw [components_append_slash, components_concat_slash hne, components_of_not_mem hw hne,
      named_append_slash, named_of_not_mem hw, if_pos hnames]
  · by_cases hnil : s = []
    · rw [hnil]
      rfl
    · rw [components_of_not_mem hmem hnil, named_of_not_mem hmem, if_pos ⟨hnil, hdot⟩]

/-- Behind the root of a path its pieces follow, as far as they are there. -/
theorem components_root_append (h : t <+: s.drop (rootLength s))
    (hdot : rootLength s = 0 → t ≠ ['.']) : components (s.take (rootLength s) ++ t) =
      components (s.take (rootLength s)) ++ named t := by
  revert h hdot
  fun_cases rootLength s with
  | case1 rest => exact fun _ _ => components_slash t
  | case2 =>
    intro h _
    obtain rfl : t = [] := by simpa using h
    simp
  | case3 rest =>
    intro h _
    cases t with
    | nil => simp
    | cons c t =>
      obtain rfl : c = '/' := (List.cons_prefix_cons.1 h).1
      have hdot : components (['.'] ++ '/' :: t) = components ['.'] ++ named ([] ++ '/' :: t) := by
        rw [components_append_slash, components_concat_slash (List.cons_ne_nil '.' []),
          named_append_slash, named_nil, List.nil_append]
      simpa using hdot
  | case4 s hslash hlone hboth =>
    intro h hdot
    have hpre : t <+: s := by simpa using h
    have hrootless : rootLength t = 0 := by
      refine rootLength_eq_zero_iff.2 ⟨fun hroot => ?_, hdot rfl, fun hroot => ?_⟩
      · obtain ⟨rest, rfl⟩ := hroot.trans hpre
        exact hslash rest rfl
      · obtain ⟨rest, rfl⟩ := hroot.trans hpre
        exact hboth rest rfl
    simpa using components_of_rootless hrootless

theorem components_eq (s : List Char) : components s =
    components (s.take (rootLength s)) ++ named (s.drop (rootLength s)) := by
  have hdot : rootLength s = 0 → s.drop (rootLength s) ≠ ['.'] := by
    intro hzero
    rw [hzero, List.drop_zero]
    exact (rootLength_eq_zero_iff.1 hzero).2.1
  rw [← components_root_append List.prefix_rfl hdot, List.take_append_drop]

/-! ## The parent -/

/-- What is read of a path without its idle end, behind its root. -/
theorem named_drop_root (s : List Char) : named (s.drop (rootLength s)) =
    named (dropIdle (s.drop (rootLength s)).reverse).reverse := by
  rw [named_dropIdle, List.reverse_reverse]

/-- A root, and a root with what is left of some text without its idle end, is shortest. -/
theorem shortest_root_append (s r : List Char) :
    Shortest (s.take (rootLength s) ++ (dropIdle r).reverse) := by
  rcases dropIdle_cases r with hnil | ⟨front, name, hrest, hlast⟩
  · rw [hnil, List.reverse_nil, List.append_nil]
    rcases root_cases s with hroot | hroot | hroot <;> rw [hroot]
    · exact fun beginning hpre _ => List.prefix_nil.1 hpre
    · exact shortest_of_extent (by decide)
    · exact shortest_of_extent (by decide)
  · refine shortest_of_extent ?_
    rw [hrest, List.reverse_append, List.reverse_reverse, List.reverse_reverse]
    obtain ⟨hname, hnames, rfl | ⟨more, rfl⟩⟩ := hlast
    · rw [List.nil_append]
      rcases root_cases s with hroot | hroot | hroot <;> rw [hroot]
      · exact LastName.extent_dropLast_lt ⟨hname, hnames, .inl rfl⟩
      · exact LastName.extent_dropLast_lt ⟨hname, hnames, .inr ⟨[], rfl⟩⟩
      · have hlonger : Names ('.' :: name) := by simp [Names, hnames.1]
        have hmem : '/' ∉ '.' :: name := by simpa using hname
        have hwhole : LastName [] ('.' :: name) := ⟨hmem, hlonger, .inl rfl⟩
        exact hwhole.extent_dropLast_lt
    · have hended : s.take (rootLength s) ++ (more ++ ['/']) =
          s.take (rootLength s) ++ more ++ ['/'] := (List.append_assoc _ _ _).symm
      rw [← List.append_assoc]
      exact LastName.extent_dropLast_lt ⟨hname, hnames, .inr ⟨_, hended⟩⟩

/-- What is left without its idle end is no single `.`. -/
theorem reverse_dropIdle_ne_dot (r : List Char) : (dropIdle r).reverse ≠ ['.'] := by
  rcases dropIdle_cases r with hnil | ⟨front, name, hrest, -, hnames, hfront⟩
  · simp [hnil]
  · rw [hrest, List.reverse_append, List.reverse_reverse, List.reverse_reverse]
    rcases hfront with rfl | ⟨more, rfl⟩
    · exact hnames.2
    · intro hdot
      have hmem : '/' ∈ ['.'] := hdot ▸ by simp
      simp at hmem

/-- Without its last name and the idle end that is then there, a path is its parent. -/
theorem isParent_of_name {path : String} (hlast : LastName front name)
    (hrest : dropIdle (path.toList.drop (rootLength path.toList)).reverse =
      name.reverse ++ front.reverse) :
    IsParent path (String.ofList (path.toList.take (rootLength path.toList) ++
      (dropIdle front.reverse).reverse)) := by
  have hcomponents : components path.toList =
      components (path.toList.take (rootLength path.toList)) ++ named front ++ [name] := by
    rw [components_eq, named_drop_root, hrest, List.reverse_append, List.reverse_reverse,
      List.reverse_reverse, hlast.named_append, List.append_assoc]
  have hpre : (dropIdle front.reverse).reverse <+: path.toList.drop (rootLength path.toList) := by
    rw [← List.reverse_suffix, List.reverse_reverse]
    have hsuffix : front.reverse <:+ dropIdle (path.toList.drop (rootLength path.toList)).reverse :=
      ⟨name.reverse, hrest.symm⟩
    exact ((dropIdle_suffix _).trans hsuffix).trans (dropIdle_suffix _)
  refine ⟨⟨?_, ?_⟩, ?_, ?_, ?_⟩
  · simp [hcomponents]
  · intro hroot
    rw [hcomponents] at hroot
    have hslash : name = ['/'] := by simpa using congrArg List.getLast? hroot
    exact hlast.slash_not_mem (by simp [hslash])
  · rw [String.toList_ofList]
    conv_rhs => rw [← List.take_append_drop (rootLength path.toList) path.toList]
    exact (List.prefix_append_right_inj _).2 hpre
  · rw [String.toList_ofList, hcomponents, List.dropLast_concat,
      components_root_append hpre fun _ => reverse_dropIdle_ne_dot _, named_dropIdle,
      List.reverse_reverse]
  · rw [String.toList_ofList]
    exact shortest_root_append _ _

/-- A path that goes through nothing behind its root has a parent only if it is a `.`. -/
theorem parent_of_root {path : String}
    (hrest : dropIdle (path.toList.drop (rootLength path.toList)).reverse = []) :
    (path.toList.take (rootLength path.toList) = ['.'] → IsParent path "") ∧
      (path.toList.take (rootLength path.toList) ≠ ['.'] → ∀ parent, ¬ IsParent path parent) := by
  have hcomponents : components path.toList =
      components (path.toList.take (rootLength path.toList)) := by
    rw [components_eq, named_drop_root, hrest, List.reverse_nil, named_nil, List.append_nil]
  constructor
  · intro hdot
    rw [hdot] at hcomponents
    have hone : components path.toList = [['.']] := hcomponents
    exact ⟨by simp [hone], List.nil_prefix, by simp [hone],
      fun beginning hpre _ => by simpa using hpre⟩
  · intro hdot parent hparent
    obtain ⟨hnothing, hroot⟩ := hparent.goes_somewhere
    rcases root_cases path.toList with heq | heq | heq <;> rw [heq] at hcomponents
    · exact hnothing hcomponents
    · exact hroot hcomponents
    · exact hdot heq

theorem parent?_of_name {path : String} (hlast : LastName front name)
    (hrest : dropIdle (path.toList.drop (rootLength path.toList)).reverse =
      name.reverse ++ front.reverse) :
    parent? path = some (String.ofList (path.toList.take (rootLength path.toList) ++
      (dropIdle front.reverse).reverse)) := by
  obtain ⟨hname, hnames, hfront⟩ := hlast
  have hbody : (name.reverse ++ front.reverse).isEmpty = false := by simp [hnames.1]
  have hcut : (name.reverse ++ front.reverse).dropWhile (· != '/') = front.reverse := by
    rw [List.dropWhile_append_of_pos]
    · rcases hfront with rfl | ⟨more, rfl⟩ <;> simp
    · intro c hc
      rw [bne_iff_ne]
      rintro rfl
      exact hname (List.mem_reverse.1 hc)
  rw [parent?]
  simp only [hrest, hbody, hcut, Bool.false_eq_true, if_false]

/-- **The parent of a path is found**, whenever there is one: it is the shortest beginning of the
path that goes through all its components but the last. -/
theorem parent?_eq_some_iff {path parent : String} :
    parent? path = some parent ↔ IsParent path parent := by
  rcases dropIdle_cases (path.toList.drop (rootLength path.toList)).reverse with
    hnil | ⟨front, name, hrest, hlast⟩
  · obtain ⟨hsome, hnone⟩ := parent_of_root hnil
    have hread : parent? path =
        if path.toList.take (rootLength path.toList) = ['.'] then some "" else none := by
      rw [parent?]
      simp only [hnil, List.isEmpty_nil, if_true]
    rw [hread]
    split_ifs with hdot
    · rw [Option.some.injEq]
      refine ⟨?_, (hsome hdot).unique⟩
      rintro rfl
      exact hsome hdot
    · simpa using hnone hdot parent
  · rw [parent?_of_name hlast hrest, Option.some.injEq]
    have hparent := isParent_of_name hlast hrest
    refine ⟨?_, hparent.unique⟩
    rintro rfl
    exact hparent

/-! ## Joined paths -/

/-- A name below a directory is one component more. -/
theorem components_join {name : String} (hname : '/' ∉ name.toList) (hnames : Names name.toList)
    (directory : String) :
    components (join directory name).toList = components directory.toList ++ [name.toList] := by
  have hone : named name.toList = [name.toList] := by rw [named_of_not_mem hname, if_pos hnames]
  rw [join]
  split_ifs with hends
  · rw [String.toList_append]
    rcases (Bool.or_eq_true _ _).mp hends with hempty | hslash
    · have hnil : directory.toList = [] := by simpa using hempty
      rw [hnil, List.nil_append, components_of_not_mem hname hnames.1, components_nil,
        List.nil_append]
    · obtain ⟨front, hfront⟩ := List.getLast?_eq_some_iff.1 (of_decide_eq_true hslash)
      rw [hfront, List.append_assoc, List.singleton_append, components_append_slash, hone]
  · have hne : directory.toList ≠ [] := by
      intro hnil
      simp_all
    have hslash : (directory ++ "/" ++ name).toList = directory.toList ++ '/' :: name.toList := by
      simp
    rw [hslash, components_append_slash, components_concat_slash hne, hone]

end SecurityKey.Path
