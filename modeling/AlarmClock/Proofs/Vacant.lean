import AlarmClock.Proofs.Ways

set_option autoImplicit false

namespace AlarmClock

namespace PathText

theorem join_ends (directory name : String) (plain : Plain name) : ∃ front, join directory name = front ++ name := by
  rw [join, absolute_plain name plain, Bool.false_or]
  by_cases empty : directory.isEmpty = true
  · exact ⟨"", by rw [if_pos empty, String.empty_append]⟩
  · rw [if_neg empty]
    by_cases ends : directory.toList.getLast?.any isSlash = true
    · exact ⟨directory, if_pos ends⟩
    · exact ⟨directory ++ "/", if_neg ends⟩

theorem join_append (directory name more : String) (plain : Plain name) (plainMore : Plain (name ++ more)) :
    join directory (name ++ more) = join directory name ++ more := by
  rw [join, join, absolute_plain name plain, absolute_plain _ plainMore, Bool.false_or]
  by_cases empty : directory.isEmpty = true
  · rw [if_pos empty, if_pos empty]
  · rw [if_neg empty, if_neg empty]
    by_cases ends : directory.toList.getLast?.any isSlash = true
    · rw [if_pos ends, if_pos ends, String.append_assoc]
    · rw [if_neg ends, if_neg ends, ← String.append_assoc]

theorem ends_in_no_slash (directory name : String) (plain : Plain name) : endsInSlash (join directory name) = false := by
  obtain ⟨front, joined⟩ := join_ends directory name plain
  rw [endsInSlash, joined, String.toList_append, List.getLast?_append, List.getLast?_eq_some_getLast plain.filled]
  exact plain.undivided _ (List.getLast_mem plain.filled)

theorem ends_in_no_dots (directory name : String) (plain : Plain name) : endsInDots (join directory name) = false := by
  rw [endsInDots, names_join directory name plain, List.getLast?_concat]
  simp [plain.notSelf, plain.notAbove]

end PathText

namespace FileTree

open PathText (withoutDots)

structure Bare (tree : FileTree) (path : String) (place : Place) : Prop where
  led : tree.walk (tree.startOf path) (PathText.names path) = .ok place
  there : tree.find? place = some .directory
  nothing : ∀ below, below ≠ [] → tree.find? (place ++ below) = none

structure Lacks (tree : FileTree) (path : String) (known : List String) (first : String) (rest : List String)
    (above : Place) : Prop where
  read : namesOf path = .ok (known ++ first :: rest)
  led : tree.walk (tree.startOf path) known = .ok above
  there : tree.find? above = some .directory
  free : tree.find? (above ++ [first]) = none
  proper : first ≠ "."
  down : Downward (first :: rest)
  ends : (first :: rest).getLast? ≠ some "."

-- Nothing is in the directory of a path, or it is missing and has nothing in it once it is made. From a missing name on
-- that can be told from the path, if it leads only down.
inductive Vacant (tree : FileTree) (path : String) : Place → Prop
  | bare (place : Place) (bare : tree.Bare path place) : Vacant tree path place
  | missing (known : List String) (first : String) (rest : List String) (above : Place)
      (lacks : tree.Lacks path known first rest above) : Vacant tree path (above ++ withoutDots (first :: rest))
  | cleared (place : Place) (makes : (tree.makeDirs path).1 = .ok ()) (bare : (tree.makeDirs path).2.Bare path place) :
      Vacant tree path place

variable (tree : FileTree)

theorem resolve_inside (directory name : String) (plain : PathText.Plain name) (fits : name.utf8ByteSize ≤ nameLimit)
    (names : List String) (read : namesOf (PathText.join directory name) = .ok names) (place : Place)
    (led : tree.walk (tree.startOf directory) (PathText.names directory) = .ok place)
    (there : tree.find? place = some .directory) :
    tree.resolve (PathText.join directory name) = .ok (place ++ [name]) := by
  rw [tree.resolve_join directory name plain names read, tree.walk_after _ [name] _ place led]
  exact tree.walk_into place name there plain.notSelf plain.notAbove fits

theorem Bare.unseen_before {tree made : FileTree} (grows : tree.Grows made) {path : String} {place : Place}
    (bare : made.Bare path place) (name : String) (plain : PathText.Plain name) (fits : name.utf8ByteSize ≤ nameLimit)
    (names : List String) (read : namesOf (PathText.join path name) = .ok names) :
    tree.stat (PathText.join path name) = .error .notFound := by
  have resolves := tree.resolve_join path name plain names read
  rcases walk_grows tree made grows (PathText.names path ++ [name]) (tree.startOf path) with
    same | ⟨known, missing, above, split, moves, led, free⟩
  · have arrives := made.resolve_inside path name plain fits names read place bare.led bare.there
    rw [made.resolve_join path name plain names read, start_of_same tree made grows.base, same] at arrives
    apply tree.stat_free _ _ (resolves.trans arrives)
    by_contra there
    obtain ⟨node, found⟩ := Option.ne_none_iff_exists'.mp there
    have kept := grows.kept _ node found
    rw [bare.nothing [name] (List.cons_ne_nil name [])] at kept
    cases kept
  · apply tree.stat_lost
    rw [resolves, split, tree.walk_after known missing _ above led, tree.walk_free above missing moves free]

theorem made_of_walk (path : String) (read : path.isEmpty = true ∨ namesOf path = .ok (PathText.names path))
    (place : Place) (led : tree.walk (tree.startOf path) (PathText.names path) = .ok place)
    (there : tree.find? place = some .directory) : tree.Made path := by
  rcases read with empty | read
  · exact .inl empty
  · refine .inr ⟨_, read, .inr ((tree.is_directory_iff _ _).mpr ⟨place, ?_, there⟩)⟩
    have straight := tree.walk_without_dots _ _ place led
    by_cases self : (PathText.names path).getLast? = some "."
    · rw [if_pos self, tree.walk_after _ ["."] _ place straight]
      exact (tree.walk_cons place place "." []).mpr ⟨there, place, if_pos rfl, rfl⟩
    · rwa [if_neg self, List.append_nil]

theorem PartlyMade.ensure_next {tree made : FileTree} {start : Place} {way names : List String}
    (partly : PartlyMade tree made start way) (inside : Place) (arrives : made.walk start names = .ok inside)
    (there : made.find? inside = some .directory) (last : String) (self : last ≠ ".") (up : last ≠ "..")
    (fits : last.utf8ByteSize ≤ nameLimit) (absent : tree.find? (inside ++ [last]) = none) :
    ∃ all, made.ensureDir start (names ++ [last]) = .ok all := by
  have onwards : made.walk start (names ++ [last]) = .ok (inside ++ [last]) := by
    rw [made.walk_after names [last] start inside arrives]
    exact made.walk_into inside last there self up fits
  cases found : made.find? (inside ++ [last]) with
  | none => exact ⟨made.put (inside ++ [last]) .directory, by simp only [ensureDir, makeDir, onwards, found]⟩
  | some node =>
      obtain ⟨rfl, -⟩ := partly.fresh _ node absent found
      exact ⟨made, made.ensure_there start _ ((made.is_directory_iff _ _).mpr ⟨_, onwards, found⟩)⟩

section Missing

variable {start above : Place} {known : List String} {first : String}
variable (rooted : tree.Rooted) (led : tree.walk start known = .ok above)
variable (there : tree.find? above = some .directory) (free : tree.find? (above ++ [first]) = none)
variable (proper : first ≠ ".")
include led there proper

theorem walk_to_first (down : Downward [first]) : tree.walk start (known ++ [first]) = .ok (above ++ [first]) := by
  obtain ⟨up, fits⟩ := down first List.mem_cons_self
  rw [tree.walk_after known [first] start above led]
  exact tree.walk_into above first there proper up fits

include free

theorem walk_past_first (rest : List String) (moves : rest ≠ []) (down : Downward [first]) :
    tree.walk start (known ++ first :: rest) = .error .notFound := by
  have arrives := tree.walk_to_first led there proper down
  rw [← List.singleton_append, ← List.append_assoc, tree.walk_after _ rest start _ arrives]
  exact tree.walk_free _ rest moves free

include rooted

theorem way_clears (rest : List String) (down : Downward (first :: rest)) (dotless : ∀ name ∈ rest, name ≠ ".") :
    (tree.makeWay start [] (known ++ first :: rest).reverse).1 = .ok () := by
  have downFirst := down_prefix (List.prefix_append [first] rest) down
  induction rest using List.reverseRecOn with
  | nil =>
      have makes : tree.ensureDir start (known ++ [first]) = .ok (tree.put (above ++ [first]) .directory) := by
        simp only [ensureDir, makeDir, tree.walk_to_first led there proper downFirst, free]
      rw [List.reverse_append, List.reverse_singleton, List.singleton_append, makeWay]
      simp only [List.reverse_cons, List.reverse_reverse, List.append_nil, makes]
  | append_singleton earlier last ih =>
      have downEarlier := down_prefix (List.prefix_append (first :: earlier) [last]) down
      obtain ⟨up, fits⟩ := down last (by simp)
      have before := ih downEarlier fun name member => dotless name (List.mem_append_left _ member)
      have stands := (tree.way_made start [] (known ++ first :: earlier).reverse).2 before
      have partly := tree.way_partly start [] (known ++ first :: earlier).reverse (.inl rfl)
      have lost := tree.walk_past_first led there free proper (earlier ++ [last]) (by simp) downFirst
      have fails : tree.ensureDir start (known ++ first :: earlier ++ [last]) = .error .notFound := by
        rw [List.append_assoc, List.cons_append]
        simp only [ensureDir, makeDir, isDirectory, lost, Bool.false_eq_true, if_false]
      have order : (known ++ first :: (earlier ++ [last])).reverse = last :: (known ++ first :: earlier).reverse := by
        rw [← List.cons_append, ← List.append_assoc, List.reverse_append]
        rfl
      rw [order, makeWay]
      simp only [List.reverse_cons, List.reverse_reverse, List.append_nil, fails] at stands partly ⊢
      generalize tree.makeWay start [] (known ++ first :: earlier).reverse = way at before stands partly ⊢
      obtain ⟨result, made⟩ := way
      obtain rfl := before
      dsimp only at stands partly ⊢
      obtain ⟨inside, arrives, isThere⟩ := (made.is_directory_iff _ _).mp (stands.resolve_left (by simp))
      have place := partly.grows.ends_below downEarlier led arrives
      have absent : tree.find? (inside ++ [last]) = none := by
        have below : inside ++ [last] = above ++ [first] ++ (withoutDots earlier ++ [last]) := by
          rw [place, PathText.without_dots_cons first earlier proper]
          simp
        rw [below]
        exact tree.nothing_below rooted _ (by simp [free]) _ (by simp)
      obtain ⟨all, ensures⟩ :=
        partly.ensure_next inside arrives isThere last (dotless last (by simp)) up fits absent
      rw [ensures]

end Missing

namespace Lacks

variable {tree} {path : String} {known rest : List String} {first : String} {above : Place}
variable (lacks : tree.Lacks path known first rest above)
include lacks

theorem names : PathText.names path = known ++ first :: rest := ((names_of_iff path _).mp lacks.read).2.2.2.symm

theorem filled : path.isEmpty = false := ((names_of_iff path _).mp lacks.read).2.1

theorem dotless : (known ++ first :: rest).getLast? ≠ some "." := by
  have ends := lacks.ends
  rw [List.getLast?_eq_some_getLast (List.cons_ne_nil first rest)] at ends
  rwa [List.getLast?_append, List.getLast?_eq_some_getLast (List.cons_ne_nil first rest)]

theorem proceeds : withoutDots (known ++ first :: rest) = withoutDots known ++ first :: withoutDots rest := by
  rw [PathText.without_dots_append, PathText.without_dots_cons first rest lacks.proper]

variable (rooted : tree.Rooted)
include rooted

theorem makes : (tree.makeDirs path).1 = .ok () := by
  have straight := tree.walk_without_dots known _ above lacks.led
  have down : Downward (first :: withoutDots rest) := by
    rw [← PathText.without_dots_cons first rest lacks.proper]
    exact fun name member => lacks.down name (List.mem_filter.mp member).1
  rw [makeDirs, if_neg (by simp [lacks.filled]), lacks.read]
  dsimp only
  rw [if_neg lacks.dotless, lacks.proceeds]
  exact tree.way_clears rooted straight lacks.there lacks.free lacks.proper _ down fun name member => by
    simpa using (List.mem_filter.mp member).2

theorem made_bare : (tree.makeDirs path).2.Bare path (above ++ withoutDots (first :: rest)) := by
  have partly := tree.dirs_partly path
  obtain ⟨whole, again, stands⟩ := (tree.dirs_made path (lacks.makes rooted)).resolve_left (by simp [lacks.filled])
  obtain rfl := Except.ok.inj (lacks.read.symm.trans again)
  generalize (tree.makeDirs path).2 = made at partly stands ⊢
  have start := start_of_same tree made partly.grows.base path
  rw [if_neg lacks.dotless, List.append_nil, start] at stands
  obtain ⟨place, arrives, isThere⟩ :=
    (made.is_directory_iff _ _).mp (stands.resolve_left (by rw [lacks.proceeds]; simp))
  have onwards := made.walk_with_dots _ _ place arrives isThere
  obtain rfl := partly.grows.ends_below lacks.down lacks.led onwards
  refine ⟨by rw [start, lacks.names, onwards], isThere, fun below inside => ?_⟩
  rw [lacks.names] at partly
  refine partly.nothing_beyond lacks.down lacks.led below inside ?_
  rw [PathText.without_dots_cons first rest lacks.proper, ← List.singleton_append, ← List.append_assoc,
    List.append_assoc]
  exact tree.nothing_below rooted _ (by simp [lacks.free]) _ (by simp [inside])

end Lacks

end FileTree
end AlarmClock
