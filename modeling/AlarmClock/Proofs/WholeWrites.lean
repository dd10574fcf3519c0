import AlarmClock.Proofs.Ways

set_option autoImplicit false

namespace AlarmClock

theorem PathText.plain_partial (region : String) (plain : Plain region) : Plain (region ++ ".partial") := by
  have apart : ∀ short : String, short.toList.length < 8 → region ++ ".partial" ≠ short := by
    rintro short bound rfl
    rw [String.toList_append, List.length_append] at bound
    exact absurd bound (Nat.not_lt.mpr (Nat.le_add_left 8 _))
  refine ⟨?_, fun c member => ?_, apart "." (by decide), apart ".." (by decide)⟩
  · rw [String.toList_append]
    exact List.append_ne_nil_of_left_ne_nil plain.filled _
  · rw [String.toList_append, List.mem_append] at member
    have ending : ∀ c ∈ ".partial".toList, isSlash c = false := by simp [isSlash]
    exact member.elim (plain.undivided c) (ending c)

theorem FileTree.stat_beside (tree later : FileTree) (directory name other : String) (plain : PathText.Plain name)
    (plainOther : PathText.Plain other) (different : other ≠ name) (bytes : Bytes)
    (writes : tree.write (PathText.join directory other) bytes = .ok later) :
    later.stat (PathText.join directory name) = tree.stat (PathText.join directory name) := by
  obtain ⟨start, led, free, -, rfl⟩ := (tree.write_iff _ bytes later).mp writes
  obtain ⟨inside, first, there, rfl⟩ := tree.resolve_in_directory directory other plainOther start led
  have within := tree.put_within _ (.file bytes) free
  have leads := FileTree.resolve_stays tree _ within directory name plain inside first there
  refine FileTree.stat_same tree _ _ leads fun place arrives => ?_
  obtain ⟨place, again, -, rfl⟩ := tree.resolve_in_directory directory name plain place arrives
  rw [Except.ok.inj (again.symm.trans first)]
  exact tree.find?_put_other _ _ _ (by simp [different])

namespace DirStorage

open FileTree (PartlyMade)
open PathText (withoutDots)

section Reads

variable (storage : DirStorage) (region : String)

theorem read_missing (tree : FileTree) (seen : tree.stat (storage.path region) = .error .notFound) :
    storage.read region tree = .ok none := by
  have whole : tree.read (storage.path region) = .error .notFound := by rw [FileTree.read, seen]
  unfold read
  generalize tree.read (storage.path region) = found at whole ⊢
  subst whole
  rfl

theorem read_fails (tree : FileTree) (cause : FileError) (other : cause ≠ .notFound)
    (seen : tree.stat (storage.path region) = .error cause) : storage.read region tree = .error cause := by
  have whole : tree.read (storage.path region) = .error cause := by rw [FileTree.read, seen]
  unfold read
  generalize tree.read (storage.path region) = found at whole ⊢
  subst whole
  cases cause with
  | notFound => exact absurd rfl other
  | _ => rfl

theorem read_same {tree later : FileTree}
    (same : later.stat (storage.path region) = tree.stat (storage.path region)) :
    storage.read region later = storage.read region tree := by
  have whole : later.read (storage.path region) = tree.read (storage.path region) := by
    rw [FileTree.read, same, FileTree.read]
  unfold read
  generalize later.read (storage.path region) = found at whole ⊢
  rw [whole]

end Reads

section Steps

variable (storage : DirStorage) (region : String) (bytes : Bytes) (tree : FileTree)

-- What another process may find while a write is under way.
inductive Underway : FileTree → Prop
  | making (later : FileTree)
      (partly : PartlyMade tree later (tree.startOf storage.directory)
        (withoutDots (PathText.names storage.directory))) : Underway later
  | made : Underway (tree.makeDirs storage.directory).2
  | beside (made written : FileTree) (half : Bytes) (makes : tree.makeDirs storage.directory = (.ok (), made))
      (begun : half <+: bytes) (writes : made.write (storage.partialPath region) half = .ok written) : Underway written

-- One of the steps of a write fails, after those before it worked.
inductive StepFails : FileError → Prop
  | making (made : FileTree) (cause : FileError) (fails : tree.makeDirs storage.directory = (.error cause, made)) :
      StepFails cause
  | beside (made : FileTree) (cause : FileError) (makes : tree.makeDirs storage.directory = (.ok (), made))
      (fails : made.write (storage.partialPath region) bytes = .error cause) : StepFails cause
  | moving (made written : FileTree) (cause : FileError) (makes : tree.makeDirs storage.directory = (.ok (), made))
      (writes : made.write (storage.partialPath region) bytes = .ok written)
      (fails : written.rename (storage.partialPath region) (storage.path region) = .error cause) : StepFails cause

theorem step_fails_iff (cause : FileError) :
    storage.StepFails region bytes tree cause ↔ (storage.write region bytes tree).1 = .error cause := by
  constructor
  · intro fails
    cases fails with
    | making made _ fails => simp only [write, fails]
    | beside made _ makes fails => simp only [write, makes, fails]
    | moving made written _ makes writes fails => simp only [write, makes, writes, fails]
  · intro failed
    unfold write at failed
    cases makes : tree.makeDirs storage.directory with
    | mk result made =>
        cases result with
        | error first =>
            simp only [makes, Except.error.injEq] at failed
            exact .making made cause (failed ▸ makes)
        | ok _ =>
            cases writes : made.write (storage.partialPath region) bytes with
            | error second =>
                simp only [makes, writes, Except.error.injEq] at failed
                exact .beside made cause makes (failed ▸ writes)
            | ok written =>
                cases moves : written.rename (storage.partialPath region) (storage.path region) with
                | error third =>
                    simp only [makes, writes, moves, Except.error.injEq] at failed
                    exact .moving made written cause makes writes (failed ▸ moves)
                | ok renamed => simp [makes, writes, moves] at failed

theorem failed_underway (cause : FileError) (fails : storage.StepFails region bytes tree cause) :
    storage.Underway region bytes tree (storage.write region bytes tree).2 := by
  cases fails with
  | making made _ fails =>
      have ends : (storage.write region bytes tree).2 = (tree.makeDirs storage.directory).2 := by
        simp only [write, fails]
      rw [ends]
      exact .made
  | beside made _ makes fails =>
      have ends : (storage.write region bytes tree).2 = (tree.makeDirs storage.directory).2 := by
        simp only [write, makes, fails]
      rw [ends]
      exact .made
  | moving made written _ makes writes fails =>
      have ends : (storage.write region bytes tree).2 = written := by simp only [write, makes, writes, fails]
      rw [ends]
      exact .beside made written bytes makes (List.prefix_refl bytes) writes

theorem done_by_rename (works : (storage.write region bytes tree).1 = .ok ()) :
    ∃ last, storage.Underway region bytes tree last ∧
      last.rename (storage.partialPath region) (storage.path region) = .ok (storage.write region bytes tree).2 := by
  have noFailure : ∀ cause, ¬ storage.StepFails region bytes tree cause := fun cause fails => by
    have failed := (storage.step_fails_iff region bytes tree cause).mp fails
    rw [works] at failed
    cases failed
  cases makes : tree.makeDirs storage.directory with
  | mk result made =>
      cases result with
      | error cause => exact absurd (.making made cause makes) (noFailure cause)
      | ok _ =>
          cases writes : made.write (storage.partialPath region) bytes with
          | error cause => exact absurd (.beside made cause makes writes) (noFailure cause)
          | ok written =>
              cases moves : written.rename (storage.partialPath region) (storage.path region) with
              | error cause => exact absurd (.moving made written cause makes writes moves) (noFailure cause)
              | ok renamed =>
                  refine ⟨written, .beside made written bytes makes (List.prefix_refl bytes) writes, ?_⟩
                  simp only [write, makes, writes, moves]

variable {storage region bytes tree}
variable (rooted : tree.Rooted) (plain : PathText.Plain region) (down : tree.LeadsDown (storage.path region))
include rooted plain down

theorem making_reads_same {later : FileTree}
    (partly : PartlyMade tree later (tree.startOf storage.directory) (withoutDots (PathText.names storage.directory))) :
    storage.read region later = storage.read region tree :=
  storage.read_same region (FileTree.stat_partly tree later rooted storage.directory region plain down partly)

theorem underway_reads_same {later : FileTree} (underway : storage.Underway region bytes tree later) :
    storage.read region later = storage.read region tree := by
  have made := making_reads_same rooted plain down (FileTree.dirs_partly tree storage.directory)
  cases underway with
  | making _ partly => exact making_reads_same rooted plain down partly
  | made => exact made
  | beside all _ half makes begun writes =>
      have different : region ++ ".partial" ≠ region := by simp
      have aside := all.stat_beside later storage.directory region (region ++ ".partial") plain
        (PathText.plain_partial region plain) different half writes
      rw [makes] at made
      exact (storage.read_same region aside).trans made

end Steps

theorem write_all_or_nothing (storage : DirStorage) (region : String) (bytes : Bytes) (tree : FileTree)
    (rooted : tree.Rooted) (plain : PathText.Plain region) (down : tree.LeadsDown (storage.path region)) :
    (∀ later, storage.Underway region bytes tree later → storage.read region later = storage.read region tree) ∧
    (∀ cause, storage.StepFails region bytes tree cause →
      (storage.write region bytes tree).1 = .error cause ∧
        storage.Underway region bytes tree (storage.write region bytes tree).2 ∧
          storage.read region (storage.write region bytes tree).2 = storage.read region tree) ∧
    ((∀ cause, ¬ storage.StepFails region bytes tree cause) → (storage.write region bytes tree).1 = .ok ()) ∧
    ((storage.write region bytes tree).1 = .ok () →
      (∃ last, storage.Underway region bytes tree last ∧
        last.rename (storage.partialPath region) (storage.path region) = .ok (storage.write region bytes tree).2) ∧
      storage.read region (storage.write region bytes tree).2 = .ok (some bytes)) := by
  refine ⟨fun later underway => underway_reads_same rooted plain down underway, fun cause fails => ?_, ?_, ?_⟩
  · have underway := storage.failed_underway region bytes tree cause fails
    exact ⟨(storage.step_fails_iff region bytes tree cause).mp fails, underway,
      underway_reads_same rooted plain down underway⟩
  · intro none
    cases result : (storage.write region bytes tree).1 with
    | ok _ => rfl
    | error cause => exact absurd ((storage.step_fails_iff region bytes tree cause).mpr result) (none cause)
  · exact fun works => ⟨storage.done_by_rename region bytes tree works, read_written works bytes⟩

theorem write_fails_beside :
    let storage : DirStorage := ⟨"store"⟩
    let tree := ((FileTree.empty.place "store/alarms.dat" (some [1, 2])).makeDirs "store/alarms.dat.partial").2
    storage.StepFails Record.region [3] tree .isADirectory ∧
      (storage.write Record.region [3] tree).1 = .error .isADirectory ∧
      storage.read Record.region (storage.write Record.region [3] tree).2 = .ok (some [1, 2]) := by
  intro storage tree
  have rooted : tree.Rooted := FileTree.dirs_rooted _ (FileTree.place_rooted _ FileTree.empty_rooted _ _) _
  have plain : PathText.Plain Record.region := by decide
  have down : tree.LeadsDown (storage.path Record.region) := tree.down_leads _ (by decide +kernel)
  have before : storage.read Record.region tree = .ok (some [1, 2]) := by decide +kernel
  have fails : storage.StepFails Record.region [3] tree .isADirectory :=
    (storage.step_fails_iff Record.region [3] tree _).mpr (by decide +kernel)
  obtain ⟨failed, -, same⟩ := (write_all_or_nothing storage Record.region [3] tree rooted plain down).2.1 _ fails
  exact ⟨fails, failed, same.trans before⟩

open FileTree in
-- A name that no directory can have in it is not told from one that is missing until the directory it would be in is
-- there.
theorem too_long_comes_out (storage : DirStorage) (above long region : String)
    (known : PathText.names storage.directory = [above, long])
    (relative : PathText.isAbsolute storage.directory = false)
    (plainAbove : PathText.Plain above) (plainLong : PathText.Plain long) (plain : PathText.Plain region)
    (fits : above.utf8ByteSize ≤ nameLimit) (tooLong : nameLimit < long.utf8ByteSize) (names : List String)
    (read : namesOf (storage.path region) = .ok names) (bytes : Bytes) :
    storage.read region empty = .ok none ∧ (storage.write region bytes empty).1 = .error .invalidFilename ∧
      storage.read region (storage.write region bytes empty).2 = .error .invalidFilename := by
  have filled : storage.directory.isEmpty = false := Bool.eq_false_iff.mpr fun none => by
    rw [String.isEmpty_iff.mp none] at known
    cases known
  obtain ⟨rest, joined⟩ := PathText.join_begins storage.directory region plain
  have readDirectory := names_of_prefix _ rest names filled (joined ▸ read)
  rw [known] at readDirectory
  have fits := Nat.not_lt.mpr fits
  have resolves : ∀ tree : FileTree, tree.resolve (storage.path region) = tree.walk tree.base [above, long, region] :=
    fun tree => by
      rw [DirStorage.path, tree.resolve_join _ region plain names read, known, startOf, relative]
      rfl
  have start : empty.startOf storage.directory = [] := by
    rw [startOf, relative]
    rfl
  have lost : empty.ensureDir [] [above, long] = .error .notFound := by
    simp [ensureDir, makeDir, isDirectory, walk, find?, empty, plainAbove.notSelf, plainAbove.notAbove, fits]
  have first : empty.ensureDir [] [above] = .ok (empty.put [above] .directory) := by
    simp [ensureDir, makeDir, walk, find?, empty, plainAbove.notSelf, plainAbove.notAbove, fits]
  have second : (empty.put [above] .directory).ensureDir [] [above, long] = .error .invalidFilename := by
    simp [ensureDir, makeDir, isDirectory, walk, find?, empty, put, remove, plainAbove.notSelf, plainAbove.notAbove,
      plainLong.notSelf, plainLong.notAbove, fits, tooLong]
  have dirs : empty.makeDirs storage.directory = (.error .invalidFilename, empty.put [above] .directory) := by
    have noDot : ([above, long] : List String).getLast? ≠ some "." := by simp [plainLong.notSelf]
    have way : (PathText.withoutDots [above, long]).reverse = [long, above] := by
      simp [PathText.withoutDots, plainAbove.notSelf, plainLong.notSelf]
    rw [makeDirs, if_neg (by simp [filled]), readDirectory]
    dsimp only
    rw [if_neg noDot, way, start, makeWay, makeWay]
    simp only [List.reverse_cons, List.reverse_nil, List.nil_append, List.cons_append, List.append_nil, lost, first,
      second]
  have before : empty.stat (storage.path region) = .error .notFound := by
    apply stat_lost
    rw [resolves]
    simp [walk, find?, empty, plainAbove.notSelf, plainAbove.notAbove, fits]
  have after : (empty.put [above] .directory).stat (storage.path region) = .error .invalidFilename := by
    apply stat_lost
    rw [resolves]
    simp [walk, find?, empty, put, remove, plainAbove.notSelf, plainAbove.notAbove, plainLong.notSelf,
      plainLong.notAbove, fits, tooLong]
  have ends : storage.write region bytes empty = (.error .invalidFilename, empty.put [above] .directory) := by
    simp only [DirStorage.write, dirs]
  rw [ends]
  exact ⟨storage.read_missing region _ before, rfl, storage.read_fails region _ _ (by decide) after⟩

theorem long_name_comes_out :
    let storage : DirStorage := ⟨"new/" ++ String.ofList (List.replicate 256 'x')⟩
    let tree := FileTree.empty
    storage.read Record.region tree = .ok none ∧
      (storage.write Record.region [1] tree).1 = .error .invalidFilename ∧
      storage.read Record.region (storage.write Record.region [1] tree).2 = .error .invalidFilename := by
  intro storage tree
  have letters : storage.directory.toList = "new/".toList ++ List.replicate 256 'x' := by
    rw [String.toList_append]
    exact congrArg ("new/".toList ++ ·) String.toList_ofList
  have known : PathText.names storage.directory = ["new", String.ofList (List.replicate 256 'x')] := by
    have cut : pieces PathText.isSlash ("new/".toList ++ List.replicate 256 'x') =
        ["new".toList, List.replicate 256 'x'] := by decide +kernel
    rw [PathText.names, letters, cut]
    rfl
  have path : storage.path Record.region = storage.directory ++ "/" ++ Record.region := by
    rw [DirStorage.path, PathText.join, if_neg (by decide +kernel), letters, if_neg (by decide +kernel)]
  have relative : PathText.isAbsolute storage.directory = false := by
    rw [PathText.isAbsolute, letters]
    decide +kernel
  have plainLong : PathText.Plain (String.ofList (List.replicate 256 'x')) := by
    rw [PathText.plain_iff_letters, String.toList_ofList]
    decide +kernel
  have read : FileTree.namesOf (storage.path Record.region) = .ok (PathText.names (storage.path Record.region)) := by
    refine (FileTree.names_of_iff _ _).mpr ⟨?_, ?_, ?_, rfl⟩
    · rw [path, String.toList_append, String.toList_append, letters]
      decide +kernel
    · rw [path]
      decide +kernel
    · rw [path]
      decide +kernel
  have plainNew : PathText.Plain "new" := by decide
  have plain : PathText.Plain Record.region := by decide
  exact storage.too_long_comes_out "new" _ Record.region known relative plainNew plainLong plain (by decide)
    (by decide +kernel) _ read [1]

-- The path goes up again from a directory that is made, to one that was there before; or the directory that is made can
-- not have the next name.
theorem write_uncovers_region :
    (let storage : DirStorage := ⟨"a/../b"⟩
    let tree := ((FileTree.empty.place "b/alarms.dat" (some [1, 2])).makeDirs "b/alarms.dat.partial").2
    tree.Rooted ∧ PathText.Plain Record.region ∧ storage.read Record.region tree = .ok none ∧
      (storage.write Record.region [3] tree).1 = .error .isADirectory ∧
      storage.read Record.region (storage.write Record.region [3] tree).2 = .ok (some [1, 2])) ∧
    (let storage : DirStorage := ⟨"new/" ++ String.ofList (List.replicate 256 'x')⟩
    let tree := FileTree.empty
    tree.Rooted ∧ PathText.Plain Record.region ∧ storage.read Record.region tree = .ok none ∧
      (storage.write Record.region [1] tree).1 = .error .invalidFilename ∧
      storage.read Record.region (storage.write Record.region [1] tree).2 = .error .invalidFilename) := by
  have plain : PathText.Plain Record.region := by decide
  have rooted := FileTree.dirs_rooted _ (FileTree.place_rooted _ FileTree.empty_rooted "b/alarms.dat" (some [1, 2]))
    "b/alarms.dat.partial"
  exact ⟨⟨rooted, plain, by decide +kernel⟩, FileTree.empty_rooted, plain, long_name_comes_out⟩

end DirStorage
end AlarmClock
