import AlarmClock.Proofs.Rooted

set_option autoImplicit false

namespace AlarmClock

namespace PathText

theorem plain_iff_letters (name : String) :
    Plain name ↔ name.toList ≠ [] ∧ name.toList.all (fun c => !isSlash c) = true ∧ name ≠ "." ∧ name ≠ ".." := by
  simp [plain_iff]

instance (name : String) : Decidable (Plain name) := decidable_of_iff' _ (plain_iff_letters name)

theorem without_dots_append (earlier rest : List String) :
    withoutDots (earlier ++ rest) = withoutDots earlier ++ withoutDots rest :=
  List.filter_append earlier rest

theorem without_dots_self (rest : List String) : withoutDots ("." :: rest) = withoutDots rest :=
  List.filter_cons_of_neg (by simp)

theorem without_dots_cons (name : String) (rest : List String) (self : name ≠ ".") :
    withoutDots (name :: rest) = name :: withoutDots rest :=
  List.filter_cons_of_pos (by simp [self])

theorem without_dots_plain (name : String) (plain : Plain name) : withoutDots [name] = [name] :=
  without_dots_cons name [] plain.notSelf

theorem prefix_without_dots (earlier names : List String) (begins : earlier <+: withoutDots names) :
    withoutDots earlier = earlier :=
  List.filter_eq_self.mpr fun _ member => (List.mem_filter.mp (begins.subset member)).2

theorem absolute_join (directory name : String) (plain : Plain name) :
    isAbsolute (join directory name) = isAbsolute directory := by
  by_cases empty : directory.isEmpty = true
  · obtain rfl := String.isEmpty_iff.mp empty
    rw [join, empty, Bool.or_true, if_pos rfl, absolute_plain name plain]
    rfl
  · obtain ⟨rest, joined⟩ := join_begins directory name plain
    rw [joined, absolute_append directory rest (Bool.eq_false_iff.mpr empty)]

end PathText

namespace FileTree

open PathText (withoutDots)

def Downward (names : List String) : Prop := ∀ name ∈ names, name ≠ ".." ∧ name.utf8ByteSize ≤ nameLimit

instance (names : List String) : Decidable (Downward names) := inferInstanceAs (Decidable (∀ name ∈ names, _))

theorem down_prefix {earlier names : List String} (begins : earlier <+: names) (down : Downward names) :
    Downward earlier := fun name member => down name (begins.subset member)

-- A path that goes only down from the first place on its way where nothing is.
def LeadsDown (tree : FileTree) (path : String) : Prop :=
  ∀ known missing above, PathText.names path = known ++ missing →
    tree.walk (tree.startOf path) known = .ok above → tree.find? above = none → Downward missing

structure PartlyMade (tree later : FileTree) (start : Place) (way : List String) : Prop where
  grows : tree.Grows later
  fresh : ∀ place node, tree.find? place = none → later.find? place = some node →
    node = .directory ∧ ∃ earlier, earlier <+: way ∧ later.walk start earlier = .ok place

variable (tree later : FileTree)

theorem start_of_join (directory name : String) (plain : PathText.Plain name) :
    tree.startOf (PathText.join directory name) = tree.startOf directory := by
  rw [startOf, startOf, PathText.absolute_join directory name plain]

section Walks

theorem walk_stride (here next : Place) (name : String) (rest : List String) (there : tree.find? here = some .directory)
    (leads : stride? here name = some next) : tree.walk here (name :: rest) = tree.walk next rest := by
  unfold stride? at leads
  simp only [walk, there]
  by_cases self : name = "."
  · rw [if_pos self] at leads ⊢
    rw [Option.some.inj leads]
  · rw [if_neg self] at leads ⊢
    by_cases up : name = ".."
    · rw [if_pos up] at leads ⊢
      rw [Option.some.inj leads]
    · rw [if_neg up] at leads ⊢
      by_cases long : nameLimit < name.utf8ByteSize
      · rw [if_pos long] at leads
        cases leads
      · rw [if_neg long] at leads ⊢
        rw [Option.some.inj leads]

theorem walk_after (earlier rest : List String) (here middle : Place) (led : tree.walk here earlier = .ok middle) :
    tree.walk here (earlier ++ rest) = tree.walk middle rest := by
  induction earlier generalizing here with
  | nil => rw [← Except.ok.inj led, List.nil_append]
  | cons name more ih =>
      obtain ⟨there, next, leads, onwards⟩ := (tree.walk_cons here middle name more).mp led
      rw [List.cons_append, tree.walk_stride here next name _ there leads, ih next onwards]

theorem walk_free (here : Place) (names : List String) (moves : names ≠ []) (free : tree.find? here = none) :
    tree.walk here names = .error .notFound := by
  obtain ⟨name, rest, rfl⟩ := List.exists_cons_of_ne_nil moves
  simp only [walk, free]

theorem walk_prefix (earlier names : List String) (begins : earlier <+: names) (here place : Place)
    (led : tree.walk here names = .ok place) :
    ∃ middle, tree.walk here earlier = .ok middle ∧ (middle = place ∨ tree.find? middle = some .directory) := by
  obtain ⟨rest, rfl⟩ := begins
  obtain ⟨middle, first, last⟩ := tree.walk_append earlier rest here place led
  refine ⟨middle, first, ?_⟩
  cases rest with
  | nil => exact .inl (Except.ok.inj last)
  | cons name more => exact .inr ((tree.walk_cons middle place name more).mp last).1

theorem walk_without_dots (names : List String) (here place : Place) (led : tree.walk here names = .ok place) :
    tree.walk here (withoutDots names) = .ok place := by
  induction names generalizing here with
  | nil => exact led
  | cons name rest ih =>
      obtain ⟨there, next, leads, onwards⟩ := (tree.walk_cons here place name rest).mp led
      by_cases self : name = "."
      · rw [stride?, if_pos self] at leads
        rw [self, PathText.without_dots_self]
        exact ih here (Option.some.inj leads ▸ onwards)
      · rw [PathText.without_dots_cons name rest self]
        exact (tree.walk_cons here place name _).mpr ⟨there, next, leads, ih next onwards⟩

theorem walk_with_dots (names : List String) (here place : Place)
    (led : tree.walk here (withoutDots names) = .ok place) (there : tree.find? place = some .directory) :
    tree.walk here names = .ok place := by
  induction names generalizing here with
  | nil => exact led
  | cons name rest ih =>
      by_cases self : name = "."
      · rw [self, PathText.without_dots_self] at led
        have inside : tree.find? here = some .directory := by
          obtain ⟨middle, first, ends⟩ := tree.walk_prefix [] _ List.nil_prefix here place led
          rw [Except.ok.inj first]
          exact ends.elim (fun same => same ▸ there) id
        exact (tree.walk_cons here place name rest).mpr ⟨inside, here, by rw [stride?, if_pos self], ih here led⟩
      · rw [PathText.without_dots_cons name rest self] at led
        obtain ⟨inside, next, leads, onwards⟩ := (tree.walk_cons here place name _).mp led
        exact (tree.walk_cons here place name rest).mpr ⟨inside, next, leads, ih next onwards⟩

theorem stride_down (here : Place) (name : String) (up : name ≠ "..") (fits : name.utf8ByteSize ≤ nameLimit) :
    stride? here name = some (here ++ withoutDots [name]) := by
  by_cases self : name = "."
  · simp [stride?, self, withoutDots]
  · simp [stride?, self, up, Nat.not_lt.mpr fits, withoutDots]

theorem walk_into (here : Place) (name : String) (there : tree.find? here = some .directory) (self : name ≠ ".")
    (up : name ≠ "..") (fits : name.utf8ByteSize ≤ nameLimit) : tree.walk here [name] = .ok (here ++ [name]) := by
  rw [tree.walk_stride here _ name [] there (stride_down here name up fits), PathText.without_dots_cons name [] self]
  rfl

theorem walk_down (names : List String) (down : Downward names) (here place : Place)
    (led : tree.walk here names = .ok place) : place = here ++ withoutDots names := by
  induction names generalizing here with
  | nil => exact (Except.ok.inj led).symm.trans (List.append_nil here).symm
  | cons name rest ih =>
      obtain ⟨⟨up, fits⟩, later⟩ := List.forall_mem_cons.mp down
      obtain ⟨-, next, leads, onwards⟩ := (tree.walk_cons here place name rest).mp led
      rw [stride_down here name up fits] at leads
      rw [ih later next onwards, ← Option.some.inj leads, List.append_assoc, ← PathText.without_dots_append]
      rfl

-- A way down where no file is can only end too early.
theorem walk_hollow (names : List String) (down : Downward names) (here : Place)
    (hollow : ∀ below bytes, tree.find? (here ++ below) ≠ some (.file bytes)) (cause : FileError)
    (lost : tree.walk here names = .error cause) : cause = .notFound := by
  induction names generalizing here with
  | nil => cases lost
  | cons name rest ih =>
      obtain ⟨⟨up, fits⟩, later⟩ := List.forall_mem_cons.mp down
      cases found : tree.find? here with
      | none =>
          rw [tree.walk_free here _ (List.cons_ne_nil name rest) found] at lost
          exact (Except.error.inj lost).symm
      | some node =>
          cases node with
          | file bytes => exact absurd found (List.append_nil here ▸ hollow [] bytes)
          | directory =>
              rw [tree.walk_stride here _ name rest found (stride_down here name up fits)] at lost
              refine ih later _ (fun below bytes => ?_) lost
              rw [List.append_assoc]
              exact hollow _ bytes

-- A tree that has more leads elsewhere only from a place where nothing was.
theorem walk_grows (grows : tree.Grows later) (names : List String) (here : Place) :
    later.walk here names = tree.walk here names ∨
      ∃ known missing above, names = known ++ missing ∧ missing ≠ [] ∧ tree.walk here known = .ok above ∧
        tree.find? above = none := by
  induction names generalizing here with
  | nil => exact .inl rfl
  | cons name rest ih =>
      cases found : tree.find? here with
      | none => exact .inr ⟨[], name :: rest, here, rfl, List.cons_ne_nil name rest, rfl, found⟩
      | some node =>
          have kept := grows.kept here node found
          cases node with
          | file bytes => exact .inl (by simp only [walk, found, kept])
          | directory =>
              cases leads : stride? here name with
              | none =>
                  refine .inl ?_
                  unfold stride? at leads
                  simp only [walk, found, kept]
                  split_ifs at leads ⊢
                  rfl
              | some next =>
                  rw [tree.walk_stride here next name rest found leads, later.walk_stride here next name rest kept leads]
                  rcases ih next with same | ⟨known, missing, above, rfl, moves, first, free⟩
                  · exact .inl same
                  · exact .inr ⟨name :: known, missing, above, rfl, moves,
                      (tree.walk_stride here next name known found leads).trans first, free⟩

theorem Grows.ends_below {tree later : FileTree} (grows : tree.Grows later) {known rest : List String}
    (down : Downward rest) {start above place : Place} (led : tree.walk start known = .ok above)
    (arrives : later.walk start (known ++ rest) = .ok place) : place = above ++ withoutDots rest := by
  have passes := walk_within tree later grows.within known start above led
  rw [later.walk_after known rest start above passes] at arrives
  exact later.walk_down rest down above place arrives

end Walks

theorem resolve_join (directory name : String) (plain : PathText.Plain name) (names : List String)
    (read : namesOf (PathText.join directory name) = .ok names) :
    tree.resolve (PathText.join directory name) =
      tree.walk (tree.startOf directory) (PathText.names directory ++ [name]) := by
  simp only [resolve, read]
  rw [((names_of_iff _ names).mp read).2.2.2, PathText.names_join directory name plain,
    tree.start_of_join directory name plain]

theorem resolve_unnamed (path : String) (cause : FileError) (unread : namesOf path = .error cause) :
    tree.resolve path = .error cause := by
  simp only [resolve, unread]

theorem resolve_in_directory (directory name : String) (plain : PathText.Plain name) (place : Place)
    (led : tree.resolve (PathText.join directory name) = .ok place) :
    ∃ inside, tree.walk (tree.startOf directory) (PathText.names directory) = .ok inside ∧
      tree.find? inside = some .directory ∧ place = inside ++ [name] := by
  cases read : namesOf (PathText.join directory name) with
  | error cause =>
      rw [tree.resolve_unnamed _ cause read] at led
      cases led
  | ok names =>
      rw [tree.resolve_join directory name plain names read] at led
      exact tree.walk_concat _ name plain _ place led

theorem resolve_stays (within : tree.Within later) (directory name : String) (plain : PathText.Plain name)
    (inside : Place) (led : tree.walk (tree.startOf directory) (PathText.names directory) = .ok inside)
    (there : tree.find? inside = some .directory) :
    later.resolve (PathText.join directory name) = tree.resolve (PathText.join directory name) := by
  cases read : namesOf (PathText.join directory name) with
  | error cause => rw [tree.resolve_unnamed _ cause read, later.resolve_unnamed _ cause read]
  | ok names =>
      have laterLed := walk_within tree later within _ _ inside led
      have laterThere := within.directories inside there
      rw [tree.resolve_join directory name plain names read, later.resolve_join directory name plain names read,
        start_of_same tree later within.base, tree.walk_after _ [name] _ inside led,
        later.walk_after _ [name] _ inside laterLed]
      simp only [walk, there, laterThere]

section Seen

variable (path : String)

theorem stat_lost (cause : FileError) (lost : tree.resolve path = .error cause) : tree.stat path = .error cause := by
  simp only [stat, lost]

theorem stat_free (place : Place) (led : tree.resolve path = .ok place) (free : tree.find? place = none) :
    tree.stat path = .error .notFound := by
  simp only [stat, led, free]

end Seen

theorem stat_same (path : String) (leads : later.resolve path = tree.resolve path)
    (same : ∀ place, tree.resolve path = .ok place → later.find? place = tree.find? place) :
    later.stat path = tree.stat path := by
  unfold stat
  rw [leads]
  cases led : tree.resolve path with
  | error cause => rfl
  | ok place => simp only [same place led]

theorem down_leads (path : String) (down : Downward (PathText.names path)) : tree.LeadsDown path := by
  intro known missing above split _ _ name member
  exact down name (split ▸ List.mem_append_right known member)

namespace PartlyMade

variable {tree later} {start : Place}

theorem refl (way : List String) : PartlyMade tree tree start way :=
  ⟨.refl tree, fun place node free found => by rw [free] at found; cases found⟩

theorem trans {last : FileTree} {way : List String} (first : PartlyMade tree later start way)
    (second : PartlyMade later last start way) : PartlyMade tree last start way := by
  refine ⟨.trans tree later last first.grows second.grows, fun place node free found => ?_⟩
  cases between : later.find? place with
  | none => exact second.fresh place node between found
  | some other =>
      obtain ⟨directory, earlier, begins, led⟩ := first.fresh place other free between
      have kept := second.grows.kept place other between
      refine ⟨?_, earlier, begins, walk_within later last second.grows.within earlier start place led⟩
      rw [← directory]
      exact Option.some.inj (found.symm.trans kept)

theorem longer {way more : List String} (partly : PartlyMade tree later start way) (begins : way <+: more) :
    PartlyMade tree later start more :=
  ⟨partly.grows, fun place node free found =>
    have ⟨directory, earlier, first, led⟩ := partly.fresh place node free found
    ⟨directory, earlier, first.trans begins, led⟩⟩

theorem fresh_below {known rest : List String} (partly : PartlyMade tree later start (withoutDots (known ++ rest)))
    (down : Downward rest) {above : Place} (led : tree.walk start known = .ok above) (place : Place) (node : FileNode)
    (free : tree.find? place = none) (found : later.find? place = some node) :
    ∃ more, more <+: withoutDots rest ∧ place = above ++ more := by
  obtain ⟨-, earlier, begins, reached⟩ := partly.fresh place node free found
  have straight := tree.walk_without_dots known start above led
  rw [PathText.without_dots_append] at begins
  rcases List.prefix_or_prefix_of_prefix begins (List.prefix_append _ _) with before | ⟨more, rfl⟩
  · obtain ⟨middle, first, ends⟩ := tree.walk_prefix earlier _ before start above straight
    have same := walk_within tree later partly.grows.within earlier start middle first
    obtain rfl := Except.ok.inj (same.symm.trans reached)
    rcases ends with same | there
    · exact ⟨[], List.nil_prefix, by rw [List.append_nil, same]⟩
    · rw [free] at there
      cases there
  · have within := (List.prefix_append_right_inj _).mp begins
    have laterStraight := walk_within tree later partly.grows.within _ start above straight
    rw [later.walk_after _ more start above laterStraight] at reached
    refine ⟨more, within, ?_⟩
    have downMore : Downward more := fun name member => down name (List.mem_filter.mp (within.subset member)).1
    rw [later.walk_down more downMore above place reached, PathText.prefix_without_dots more rest within]

theorem nothing_beyond {known rest : List String} (partly : PartlyMade tree later start (withoutDots (known ++ rest)))
    (down : Downward rest) {above : Place} (led : tree.walk start known = .ok above) (below : Place)
    (inside : below ≠ []) (absent : tree.find? (above ++ withoutDots rest ++ below) = none) :
    later.find? (above ++ withoutDots rest ++ below) = none := by
  by_contra there
  obtain ⟨node, new⟩ := Option.ne_none_iff_exists'.mp there
  obtain ⟨more, begins, same⟩ := partly.fresh_below down led _ node absent new
  have short := begins.length_le
  rw [List.append_assoc] at same
  rw [← List.append_cancel_left same, List.length_append] at short
  have long := List.length_pos_iff.mpr inside
  omega

end PartlyMade

section Making

variable {tree} (start : Place)

theorem ensured_partly (dot names : List String) (self : dot = [] ∨ dot = ["."]) (made : FileTree)
    (ensures : tree.ensureDir start (names ++ dot) = .ok made) : PartlyMade tree made start names := by
  have grows := (tree.ensured start _ made ensures).1
  unfold ensureDir at ensures
  cases makes : tree.makeDir start (names ++ dot) with
  | ok other =>
      rw [makes] at ensures
      obtain rfl := Except.ok.inj ensures
      obtain ⟨place, led, free, rfl⟩ := tree.made_dir start _ other makes
      refine ⟨grows, fun new node absent found => ?_⟩
      by_cases same : place = new
      · subst same
        rw [tree.find?_put place .directory (tree.not_root place (by simp [free]))] at found
        refine ⟨(Option.some.inj found).symm, names, List.prefix_refl names, ?_⟩
        have lands : tree.walk start names = .ok place := by
          rcases self with rfl | rfl
          · rwa [List.append_nil] at led
          · obtain ⟨middle, first, last⟩ := tree.walk_append names ["."] start place led
            obtain ⟨-, next, leads, ends⟩ := (tree.walk_cons middle place "." []).mp last
            rw [stride?, if_pos rfl] at leads
            rw [first, Option.some.inj leads, Except.ok.inj ends]
        exact walk_within tree _ grows.within names start place lands
      · rw [tree.find?_put_other place new .directory same, absent] at found
        cases found
  | error cause =>
      rw [makes] at ensures
      dsimp only at ensures
      split at ensures
      · obtain rfl := Except.ok.inj ensures
        exact .refl names
      · cases ensures

theorem way_partly (tree : FileTree) (start : Place) (dot names : List String) (self : dot = [] ∨ dot = ["."]) :
    PartlyMade tree (tree.makeWay start dot names).2 start names.reverse := by
  induction names generalizing dot with
  | nil => exact .refl []
  | cons name above ih =>
      rw [makeWay]
      cases first : tree.ensureDir start ((name :: above).reverse ++ dot) with
      | ok made => exact ensured_partly start dot _ self made first
      | error cause =>
          cases cause with
          | notFound =>
              have begins : above.reverse <+: (name :: above).reverse := by simp
              have before := (ih [] (.inl rfl)).longer begins
              generalize tree.makeWay start [] above = way at before ⊢
              obtain ⟨result, made⟩ := way
              cases result with
              | error cause => exact before
              | ok _ =>
                  dsimp only
                  cases last : made.ensureDir start ((name :: above).reverse ++ dot) with
                  | error cause => exact before
                  | ok all => exact before.trans (ensured_partly start dot _ self all last)
          | _ => exact .refl _

theorem dirs_partly (tree : FileTree) (path : String) :
    PartlyMade tree (tree.makeDirs path).2 (tree.startOf path) (withoutDots (PathText.names path)) := by
  unfold makeDirs
  by_cases empty : path.isEmpty = true
  · rw [if_pos empty]
    exact .refl _
  · rw [if_neg empty]
    cases read : namesOf path with
    | error cause => exact .refl _
    | ok names =>
        obtain rfl := ((names_of_iff path names).mp read).2.2.2
        have partly := tree.way_partly (tree.startOf path)
          (if (PathText.names path).getLast? = some "." then ["."] else [])
          (withoutDots (PathText.names path)).reverse (by split <;> simp)
        rwa [List.reverse_reverse] at partly

end Making

section Shown

variable {tree later} {start : Place} {names known rest : List String} {name : String}

theorem there_stays (partly : PartlyMade tree later start (withoutDots names)) (inside : Place)
    (led : tree.walk start names = .ok inside) : later.find? (inside ++ [name]) = tree.find? (inside ++ [name]) := by
  cases found : tree.find? (inside ++ [name]) with
  | some node => exact partly.grows.kept _ node found
  | none =>
      rw [← List.append_nil names] at partly
      rw [← List.append_nil inside] at found ⊢
      exact partly.nothing_beyond nofun led [name] (List.cons_ne_nil name []) found

theorem missing_stays (rooted : tree.Rooted) (plain : PathText.Plain name)
    (partly : PartlyMade tree later start (withoutDots (known ++ rest))) (down : Downward (rest ++ [name]))
    (above : Place) (led : tree.walk start known = .ok above) (free : tree.find? above = none) :
    later.walk above (rest ++ [name]) = .error .notFound ∨
      ∃ place, later.walk above (rest ++ [name]) = .ok place ∧ later.find? place = none := by
  have absent : ∀ below, tree.find? (above ++ below) = none := by
    intro below
    by_cases here : below = []
    · rw [here, List.append_nil, free]
    · exact tree.nothing_below rooted above (by simp [free]) below here
  cases onwards : later.walk above (rest ++ [name]) with
  | error cause =>
      have hollow : ∀ below bytes, later.find? (above ++ below) ≠ some (.file bytes) := by
        intro below bytes file
        cases (partly.fresh _ _ (absent below) file).1
      exact .inl (congrArg Except.error (later.walk_hollow _ down above hollow cause onwards))
  | ok place =>
      refine .inr ⟨place, rfl, ?_⟩
      have ends := later.walk_down _ down above place onwards
      rw [PathText.without_dots_append, PathText.without_dots_plain name plain] at ends
      rw [ends, ← List.append_assoc]
      have downRest := down_prefix (List.prefix_append rest [name]) down
      exact partly.nothing_beyond downRest led [name] (List.cons_ne_nil name []) (List.append_assoc above _ _ ▸ absent _)

end Shown

theorem stat_partly (rooted : tree.Rooted) (directory name : String) (plain : PathText.Plain name)
    (down : tree.LeadsDown (PathText.join directory name))
    (partly : PartlyMade tree later (tree.startOf directory) (withoutDots (PathText.names directory))) :
    later.stat (PathText.join directory name) = tree.stat (PathText.join directory name) := by
  unfold LeadsDown at down
  rw [tree.start_of_join directory name plain, PathText.names_join directory name plain] at down
  cases read : namesOf (PathText.join directory name) with
  | error cause =>
      rw [tree.stat_lost _ cause (tree.resolve_unnamed _ cause read),
        later.stat_lost _ cause (later.resolve_unnamed _ cause read)]
  | ok names =>
      have resolves := tree.resolve_join directory name plain names read
      have laterResolves := later.resolve_join directory name plain names read
      rw [start_of_same tree later partly.grows.base directory] at laterResolves
      rcases walk_grows tree later partly.grows (PathText.names directory ++ [name]) (tree.startOf directory) with
        same | ⟨known, missing, above, split, moves, led, free⟩
      · refine stat_same tree later _ (laterResolves.trans (same.trans resolves.symm)) fun place led => ?_
        obtain ⟨inside, first, -, rfl⟩ := tree.resolve_in_directory directory name plain place led
        exact there_stays partly inside first
      · have downward := down known missing above split led free
        have lost : tree.walk (tree.startOf directory) (PathText.names directory ++ [name]) = .error .notFound := by
          rw [split, tree.walk_after known missing _ above led, tree.walk_free above missing moves free]
        have laterLed := walk_within tree later partly.grows.within known _ above led
        rw [split, later.walk_after known missing _ above laterLed] at laterResolves
        obtain ⟨rest, onTheWay, rfl⟩ : ∃ rest, PathText.names directory = known ++ rest ∧ missing = rest ++ [name] := by
          have ends := List.dropLast_concat_getLast moves
          rw [← ends, ← List.append_assoc] at split
          have parts := List.append_inj' split rfl
          exact ⟨missing.dropLast, parts.1, by rw [parts.2, ends]⟩
        rw [tree.stat_lost _ _ (resolves.trans lost)]
        rw [onTheWay] at partly
        rcases missing_stays rooted plain partly downward above led free with ends | ⟨place, ends, absent⟩
        · exact later.stat_lost _ _ (laterResolves.trans ends)
        · exact later.stat_free _ place (laterResolves.trans ends) absent

end FileTree
end AlarmClock
