import AlarmClock.FileTree

set_option autoImplicit false

namespace AlarmClock.FileTree

structure Within (tree later : FileTree) : Prop where
  base : later.base = tree.base
  directories : ∀ place, tree.find? place = some .directory → later.find? place = some .directory

structure Grows (tree later : FileTree) : Prop where
  base : later.base = tree.base
  kept : ∀ place node, tree.find? place = some node → later.find? place = some node

namespace Within

theorem trans (tree later last : FileTree) (first : tree.Within later) (second : later.Within last) : tree.Within last :=
  ⟨second.base.trans first.base, fun place there => second.directories place (first.directories place there)⟩

end Within

namespace Grows

theorem refl (tree : FileTree) : tree.Grows tree := ⟨rfl, fun _ _ there => there⟩

theorem trans (tree later last : FileTree) (first : tree.Grows later) (second : later.Grows last) : tree.Grows last :=
  ⟨second.base.trans first.base, fun place node there => second.kept place node (first.kept place node there)⟩

theorem within {tree later : FileTree} (grows : tree.Grows later) : tree.Within later :=
  ⟨grows.base, fun place there => grows.kept place .directory there⟩

end Grows

def stride? (here : Place) (name : String) : Option Place :=
  if name = "." then some here
  else if name = ".." then some here.dropLast
  else if nameLimit < name.utf8ByteSize then none
  else some (here ++ [name])

theorem stride_plain (here : Place) (name : String) (plain : PathText.Plain name) (next : Place)
    (leads : stride? here name = some next) : next = here ++ [name] := by
  rw [stride?, if_neg plain.notSelf, if_neg plain.notAbove] at leads
  by_cases long : nameLimit < name.utf8ByteSize
  · rw [if_pos long] at leads
    cases leads
  · rw [if_neg long] at leads
    exact (Option.some.inj leads).symm

variable (tree later : FileTree)

theorem walk_cons (here place : Place) (name : String) (rest : List String) :
    tree.walk here (name :: rest) = .ok place ↔
      tree.find? here = some .directory ∧
        ∃ next, stride? here name = some next ∧ tree.walk next rest = .ok place := by
  simp only [walk, stride?]
  cases tree.find? here with
  | none => simp
  | some node =>
      cases node with
      | file bytes => simp
      | directory =>
          by_cases self : name = "."
          · simp [self]
          · by_cases above : name = ".."
            · simp [above]
            · by_cases long : nameLimit < name.utf8ByteSize
              · simp [self, above, long]
              · simp [self, above, long]

theorem walk_append (earlier rest : List String) (here place : Place)
    (led : tree.walk here (earlier ++ rest) = .ok place) :
    ∃ middle, tree.walk here earlier = .ok middle ∧ tree.walk middle rest = .ok place := by
  induction earlier generalizing here with
  | nil => exact ⟨here, rfl, led⟩
  | cons name later ih =>
      obtain ⟨there, next, leads, onwards⟩ := (tree.walk_cons here place name (later ++ rest)).mp led
      obtain ⟨middle, first, last⟩ := ih next onwards
      exact ⟨middle, (tree.walk_cons here middle name later).mpr ⟨there, next, leads, first⟩, last⟩

theorem walk_concat (earlier : List String) (name : String) (plain : PathText.Plain name) (here place : Place)
    (led : tree.walk here (earlier ++ [name]) = .ok place) :
    ∃ directory, tree.walk here earlier = .ok directory ∧ tree.find? directory = some .directory ∧
      place = directory ++ [name] := by
  obtain ⟨directory, first, last⟩ := tree.walk_append earlier [name] here place led
  obtain ⟨there, next, leads, arrived⟩ := (tree.walk_cons directory place name []).mp last
  obtain rfl := Except.ok.inj arrived
  exact ⟨directory, first, there, stride_plain directory name plain next leads⟩

theorem start_of_same (base : later.base = tree.base) (path : String) : later.startOf path = tree.startOf path := by
  rw [startOf, startOf, base]

section Walks

variable (within : tree.Within later)
include within

theorem walk_within (names : List String) (here place : Place) (led : tree.walk here names = .ok place) :
    later.walk here names = .ok place := by
  induction names generalizing here with
  | nil => exact led
  | cons name rest ih =>
      obtain ⟨there, next, leads, onwards⟩ := (tree.walk_cons here place name rest).mp led
      exact (later.walk_cons here place name rest).mpr ⟨within.directories here there, next, leads, ih next onwards⟩

theorem resolve_within (path : String) (place : Place) (led : tree.resolve path = .ok place) :
    later.resolve path = .ok place := by
  unfold resolve at led ⊢
  cases read : namesOf path with
  | error cause => simp [read] at led
  | ok names =>
      rw [read] at led
      dsimp only at led ⊢
      rw [start_of_same tree later within.base]
      exact walk_within tree later within names _ place led

theorem is_directory_within (start : Place) (names : List String) (there : tree.isDirectory start names = true) :
    later.isDirectory start names = true := by
  unfold isDirectory at there ⊢
  cases led : tree.walk start names with
  | error cause => simp [led] at there
  | ok place =>
      rw [led] at there
      rw [walk_within tree later within names start place led]
      exact beq_iff_eq.mpr (within.directories place (beq_iff_eq.mp there))

theorem stat_within (path : String) (node : FileNode) (seen : tree.stat path = .ok node)
    (same : ∀ place, tree.resolve path = .ok place → later.find? place = tree.find? place) :
    later.stat path = .ok node := by
  unfold stat at seen ⊢
  cases led : tree.resolve path with
  | error cause => simp [led] at seen
  | ok place =>
      rw [led] at seen
      rw [resolve_within tree later within path place led]
      dsimp only at seen ⊢
      rw [same place led]
      exact seen

end Walks

theorem stat_grows (grows : tree.Grows later) (path : String) (node : FileNode) (seen : tree.stat path = .ok node) :
    later.stat path = .ok node := by
  apply stat_within tree later grows.within path node seen
  intro place led
  cases found : tree.find? place with
  | none => simp [stat, led, found] at seen
  | some other => exact grows.kept place other found

theorem put_within (place : Place) (node : FileNode) (free : tree.find? place ≠ some .directory) :
    tree.Within (tree.put place node) := by
  refine ⟨rfl, fun other there => ?_⟩
  have different : place ≠ other := fun same => free (same ▸ there)
  rw [tree.find?_put_other place other node different]
  exact there

theorem remove_within (place : Place) (free : tree.find? place ≠ some .directory) : tree.Within (tree.remove place) := by
  refine ⟨rfl, fun other there => ?_⟩
  have different : place ≠ other := fun same => free (same ▸ there)
  rw [tree.find?_remove_other place other different]
  exact there

theorem put_file_adds_no_directory (place : Place) (bytes : Bytes) (inside : place ≠ []) :
    (tree.put place (.file bytes)).Within tree := by
  refine ⟨rfl, fun other there => ?_⟩
  by_cases same : place = other
  · subst same
    rw [tree.find?_put place (.file bytes) inside] at there
    cases there
  · rw [tree.find?_put_other place other (.file bytes) same] at there
    exact there

theorem remove_adds_no_directory (place : Place) (inside : place ≠ []) : (tree.remove place).Within tree := by
  refine ⟨rfl, fun other there => ?_⟩
  by_cases same : place = other
  · subst same
    rw [tree.find?_remove place inside] at there
    cases there
  · rw [tree.find?_remove_other place other same] at there
    exact there

theorem not_root (place : Place) (free : tree.find? place ≠ some .directory) : place ≠ [] := by
  rintro rfl
  exact free rfl

theorem is_directory_iff (start : Place) (names : List String) :
    tree.isDirectory start names = true ↔
      ∃ place, tree.walk start names = .ok place ∧ tree.find? place = some .directory := by
  unfold isDirectory
  cases tree.walk start names with
  | error cause => simp
  | ok place => simp

theorem made_dir (start : Place) (names : List String) (made : FileTree) (makes : tree.makeDir start names = .ok made) :
    ∃ place, tree.walk start names = .ok place ∧ tree.find? place = none ∧ made = tree.put place .directory := by
  unfold makeDir at makes
  cases walked : tree.walk start names with
  | error cause => simp [walked] at makes
  | ok place =>
      cases found : tree.find? place with
      | some node => simp [walked, found] at makes
      | none =>
          simp only [walked, found] at makes
          exact ⟨place, rfl, found, (Except.ok.inj makes).symm⟩

theorem put_grows (place : Place) (node : FileNode) (free : tree.find? place = none) :
    tree.Grows (tree.put place node) := by
  refine ⟨rfl, fun other present there => ?_⟩
  have different : place ≠ other := fun same => by
    rw [← same, free] at there
    cases there
  rw [tree.find?_put_other place other node different]
  exact there

-- A directory that is made, or was there before, is there, and nothing else has changed.
theorem ensured (start : Place) (names : List String) (made : FileTree) (ensures : tree.ensureDir start names = .ok made) :
    tree.Grows made ∧ made.isDirectory start names = true := by
  unfold ensureDir at ensures
  cases makes : tree.makeDir start names with
  | ok other =>
      obtain ⟨place, walked, free, rfl⟩ := tree.made_dir start names other makes
      rw [makes] at ensures
      obtain rfl := Except.ok.inj ensures
      have grows := tree.put_grows place .directory free
      have inside := tree.not_root place (by simp [free])
      refine ⟨grows, (is_directory_iff _ start names).mpr ⟨place, ?_, tree.find?_put place .directory inside⟩⟩
      exact walk_within tree _ grows.within names start place walked
  | error cause =>
      rw [makes] at ensures
      by_cases there : tree.isDirectory start names = true
      · simp only [if_pos there] at ensures
        obtain rfl := Except.ok.inj ensures
        exact ⟨.refl tree, there⟩
      · simp only [if_neg there] at ensures
        cases ensures

theorem ensure_there (start : Place) (names : List String) (there : tree.isDirectory start names = true) :
    tree.ensureDir start names = .ok tree := by
  obtain ⟨place, walked, found⟩ := (tree.is_directory_iff start names).mp there
  have taken : tree.makeDir start names = .error .alreadyExists := by simp only [makeDir, walked, found]
  simp only [ensureDir, taken, if_pos there]

theorem way_made (start : Place) (dot names : List String) :
    tree.Grows (tree.makeWay start dot names).2 ∧
      ((tree.makeWay start dot names).1 = .ok () →
        names = [] ∨ (tree.makeWay start dot names).2.isDirectory start (names.reverse ++ dot) = true) := by
  induction names generalizing dot with
  | nil => exact ⟨.refl tree, fun _ => .inl rfl⟩
  | cons name above ih =>
      rw [makeWay]
      cases first : tree.ensureDir start ((name :: above).reverse ++ dot) with
      | ok made =>
          obtain ⟨grows, there⟩ := tree.ensured start _ made first
          exact ⟨grows, fun _ => .inr there⟩
      | error cause =>
          cases cause with
          | notFound =>
              obtain ⟨grows, -⟩ := ih []
              generalize tree.makeWay start [] above = way at grows ⊢
              obtain ⟨result, made⟩ := way
              cases result with
              | error cause => exact ⟨grows, nofun⟩
              | ok _ =>
                  dsimp only
                  cases last : made.ensureDir start ((name :: above).reverse ++ dot) with
                  | error cause => exact ⟨grows, nofun⟩
                  | ok all =>
                      obtain ⟨more, there⟩ := made.ensured start _ all last
                      exact ⟨.trans tree made all grows more, fun _ => .inr there⟩
          | _ => exact ⟨.refl tree, nofun⟩

def Made (path : String) : Prop :=
  path.isEmpty = true ∨ ∃ names, namesOf path = .ok names ∧
    (PathText.withoutDots names = [] ∨
      tree.isDirectory (tree.startOf path)
        (PathText.withoutDots names ++ if names.getLast? = some "." then ["."] else []) = true)

theorem made_within (within : tree.Within later) (path : String) (made : tree.Made path) : later.Made path := by
  rcases made with empty | ⟨names, read, same | there⟩
  · exact .inl empty
  · exact .inr ⟨names, read, .inl same⟩
  · refine .inr ⟨names, read, .inr ?_⟩
    rw [start_of_same tree later within.base]
    exact is_directory_within tree later within _ _ there

theorem dirs_grow (path : String) : tree.Grows (tree.makeDirs path).2 := by
  unfold makeDirs
  by_cases empty : path.isEmpty = true
  · rw [if_pos empty]
    exact .refl tree
  · rw [if_neg empty]
    cases namesOf path with
    | error cause => exact .refl tree
    | ok names => exact (tree.way_made _ _ _).1

theorem dirs_made (path : String) (makes : (tree.makeDirs path).1 = .ok ()) : (tree.makeDirs path).2.Made path := by
  have start := start_of_same tree _ (tree.dirs_grow path).base path
  unfold makeDirs at makes start ⊢
  by_cases empty : path.isEmpty = true
  · exact .inl empty
  · rw [if_neg empty] at makes start ⊢
    cases read : namesOf path with
    | error cause => simp [read] at makes
    | ok names =>
        rw [read] at makes start
        dsimp only at makes start ⊢
        refine .inr ⟨names, read, ?_⟩
        rw [start]
        rcases (tree.way_made _ _ _).2 makes with none | there
        · exact .inl (List.reverse_eq_nil_iff.mp none)
        · rw [List.reverse_reverse] at there
          exact .inr there

theorem made_makes_nothing (path : String) (made : tree.Made path) : tree.makeDirs path = (.ok (), tree) := by
  unfold makeDirs
  rcases made with empty | ⟨names, read, same | there⟩
  · rw [if_pos empty]
  · simp only [read, same, List.reverse_nil, makeWay, ite_self]
  · by_cases empty : path.isEmpty = true
    · rw [if_pos empty]
    · rw [if_neg empty, read]
      dsimp only
      cases way : (PathText.withoutDots names).reverse with
      | nil => rfl
      | cons name above =>
          rw [makeWay, ← way, List.reverse_reverse, tree.ensure_there _ _ there]

theorem names_of_iff (path : String) (names : List String) :
    namesOf path = .ok names ↔
      path.toList.contains '\x00' = false ∧ path.isEmpty = false ∧ path.utf8ByteSize < pathLimit ∧
        names = PathText.names path := by
  unfold namesOf
  by_cases ended : path.toList.contains '\x00' = true
  · rw [if_pos ended]
    exact ⟨nofun, fun read => absurd ended (Bool.eq_false_iff.mp read.1)⟩
  · rw [if_neg ended]
    by_cases empty : path.isEmpty = true
    · rw [if_pos empty]
      exact ⟨nofun, fun read => absurd empty (Bool.eq_false_iff.mp read.2.1)⟩
    · rw [if_neg empty]
      by_cases long : pathLimit ≤ path.utf8ByteSize
      · rw [if_pos long]
        exact ⟨nofun, fun read => absurd long (Nat.not_le.mpr read.2.2.1)⟩
      · rw [if_neg long]
        have fits := Nat.not_le.mp long
        exact ⟨fun read => ⟨Bool.eq_false_iff.mpr ended, Bool.eq_false_iff.mpr empty, fits, (Except.ok.inj read).symm⟩,
          fun read => congrArg Except.ok read.2.2.2.symm⟩

theorem names_of_prefix (path rest : String) (names : List String) (filled : path.isEmpty = false)
    (read : namesOf (path ++ rest) = .ok names) : namesOf path = .ok (PathText.names path) := by
  obtain ⟨whole, -, short, -⟩ := (names_of_iff (path ++ rest) names).mp read
  rw [String.toList_append, List.contains_append, Bool.or_eq_false_iff] at whole
  rw [String.utf8ByteSize_append] at short
  exact (names_of_iff path _).mpr ⟨whole.1, filled, Nat.lt_of_le_of_lt (Nat.le_add_right _ _) short, rfl⟩

theorem resolve_plain (directory name : String) (plain : PathText.Plain name) (place : Place)
    (led : tree.resolve (PathText.join directory name) = .ok place) : place.getLast? = some name := by
  unfold resolve at led
  cases read : namesOf (PathText.join directory name) with
  | error cause => simp [read] at led
  | ok names =>
      rw [read, ((names_of_iff _ names).mp read).2.2.2, PathText.names_join directory name plain] at led
      obtain ⟨above, -, -, rfl⟩ := tree.walk_concat _ name plain _ place led
      exact List.getLast?_concat

theorem made_above (directory name : String) (plain : PathText.Plain name)
    (apart : (PathText.names directory).getLast? ≠ some ".") (made : tree.Made (PathText.join directory name)) :
    tree.Made directory := by
  by_cases empty : directory.isEmpty = true
  · exact .inl empty
  · have filled := Bool.eq_false_iff.mpr empty
    obtain ⟨rest, joined⟩ := PathText.join_begins directory name plain
    have names := PathText.names_join directory name plain
    have start : tree.startOf (PathText.join directory name) = tree.startOf directory := by
      rw [startOf, startOf, joined, PathText.absolute_append directory rest filled]
    have known : PathText.withoutDots (PathText.names directory ++ [name]) =
        PathText.withoutDots (PathText.names directory) ++ [name] := by
      simp [PathText.withoutDots, plain.notSelf]
    rcases made with none | ⟨found, read, below⟩
    · rw [joined, String.isEmpty_iff, String.append_eq_empty_iff] at none
      exact .inl (String.isEmpty_iff.mpr none.1)
    · rw [((names_of_iff _ found).mp read).2.2.2, names, known, List.getLast?_concat, start,
        if_neg fun same => plain.notSelf (Option.some.inj same), List.append_nil] at below
      rcases below with nothing | there
      · exact absurd nothing (List.append_ne_nil_of_right_ne_nil _ (List.cons_ne_nil name []))
      · obtain ⟨place, led, -⟩ := (tree.is_directory_iff _ _).mp there
        obtain ⟨above, first, stands, -⟩ := tree.walk_concat _ name plain _ place led
        refine .inr ⟨_, names_of_prefix directory rest found filled (joined ▸ read), .inr ?_⟩
        rw [if_neg apart, List.append_nil]
        exact (tree.is_directory_iff _ _).mpr ⟨above, first, stands⟩

end AlarmClock.FileTree
