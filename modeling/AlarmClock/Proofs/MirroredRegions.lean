import AlarmClock.Proofs.Vacant
import AlarmClock.Proofs.WholeWrites

set_option autoImplicit false

namespace AlarmClock

inductive RegionAccess where
  | read (region : String)
  | write (region : String) (bytes : Bytes)
deriving DecidableEq, Repr

inductive RegionAnswer where
  | found (bytes : Option Bytes)
  | written
  | failed (cause : FileError)
deriving DecidableEq

namespace RegionAccess

def region : RegionAccess → String
  | .read region => region
  | .write region _ => region

def written? (region : String) : RegionAccess → Option Bytes
  | .read _ => none
  | .write other bytes => if other = region then some bytes else none

def last? (region : String) (accesses : List RegionAccess) : Option Bytes :=
  (accesses.filterMap (written? region)).getLast?

end RegionAccess

namespace RegionAnswer

def ofRead : Except FileError (Option Bytes) → RegionAnswer
  | .ok bytes => .found bytes
  | .error cause => .failed cause

def ofWrite : Except FileError Unit → RegionAnswer
  | .ok () => .written
  | .error cause => .failed cause

end RegionAnswer

def DirStorage.access (storage : DirStorage) (tree : FileTree) : RegionAccess → RegionAnswer × FileTree
  | .read region => (.ofRead (storage.read region tree), tree)
  | .write region bytes =>
      let (result, after) := storage.write region bytes tree
      (.ofWrite result, after)

def MemoryStorage.access (memory : MemoryStorage) : RegionAccess → RegionAnswer × MemoryStorage
  | .read region => (.found (memory.read region), memory)
  | .write region bytes => (.written, memory.write region bytes)

section Serve

variable {State : Type} (access : State → RegionAccess → RegionAnswer × State)

def serve : State → List RegionAccess → List RegionAnswer × State
  | state, [] => ([], state)
  | state, next :: later =>
      let (answer, after) := access state next
      let (answers, left) := serve after later
      (answer :: answers, left)

theorem serve_append (state : State) (earlier later : List RegionAccess) :
    serve access state (earlier ++ later) =
      ((serve access state earlier).1 ++ (serve access (serve access state earlier).2 later).1,
        (serve access (serve access state earlier).2 later).2) := by
  induction earlier generalizing state with
  | nil => rfl
  | cons next more ih => simp only [List.cons_append, serve, ih]

theorem serve_length (state : State) (accesses : List RegionAccess) :
    (serve access state accesses).1.length = accesses.length := by
  induction accesses generalizing state with
  | nil => rfl
  | cons next more ih => simp only [serve, List.length_cons, ih]

theorem serve_answer (state : State) (earlier later : List RegionAccess) (next : RegionAccess) :
    (serve access state (earlier ++ next :: later)).1[earlier.length]? =
      some (access (serve access state earlier).2 next).1 := by
  have length := serve_length access state earlier
  rw [serve_append, List.getElem?_append_right (Nat.le_of_eq length), length, Nat.sub_self]
  rfl

end Serve

namespace MemoryStorage

theorem access_read (memory : MemoryStorage) (region : String) (next : RegionAccess) :
    (memory.access next).2.read region = (next.written? region).or (memory.read region) := by
  cases next with
  | read other => rfl
  | write other bytes =>
      by_cases same : other = region
      · subst same
        simp [access, RegionAccess.written?, memory.read_write]
      · simp [access, RegionAccess.written?, same, memory.read_write_other other region bytes same]

theorem serve_read (memory : MemoryStorage) (region : String) (accesses : List RegionAccess) :
    (serve access memory accesses).2.read region = (RegionAccess.last? region accesses).or (memory.read region) := by
  induction accesses generalizing memory with
  | nil => rfl
  | cons next later ih =>
      rw [serve, ih, access_read, RegionAccess.last?, RegionAccess.last?, List.filterMap_cons]
      cases next.written? region with
      | none => rfl
      | some bytes => simp [List.getLast?_cons]

theorem serve_works (memory : MemoryStorage) (accesses : List RegionAccess) (cause : FileError) :
    .failed cause ∉ (serve access memory accesses).1 := by
  induction accesses generalizing memory with
  | nil => exact List.not_mem_nil
  | cons next later ih =>
      intro member
      rcases List.mem_cons.mp member with first | rest
      · cases next <;> cases first
      · exact ih _ rest

theorem empty_read (region : String) : empty.read region = none := rfl

end MemoryStorage

namespace FileTree

theorem find?_replaced_start (tree : FileTree) (start place : Place) (bytes : Bytes) (inside : start ≠ [])
    (apart : place ≠ start) : (tree.replaced start place bytes).find? start = none := by
  rw [replaced, find?_put_other _ place start _ apart]
  exact find?_remove _ start inside

end FileTree

namespace DirStorage

open FileTree (namesOf nameLimit pathLimit)

structure Regular (storage : DirStorage) (region : String) : Prop where
  plain : PathText.Plain region
  fits : (region ++ ".partial").utf8ByteSize ≤ nameLimit
  whole : (storage.partialPath region).toList.contains '\x00' = false
  short : (storage.partialPath region).utf8ByteSize < pathLimit

namespace Regular

variable {storage : DirStorage} {region : String} (regular : storage.Regular region)
include regular

theorem plain_beside : PathText.Plain (region ++ ".partial") := PathText.plain_partial region regular.plain

theorem region_fits : region.utf8ByteSize ≤ nameLimit := by
  have fits := regular.fits
  rw [String.utf8ByteSize_append] at fits
  omega

theorem path_filled : (storage.path region).isEmpty = false := Bool.eq_false_iff.mpr fun none => by
  obtain ⟨front, joined⟩ := PathText.join_ends storage.directory region regular.plain
  rw [path, joined, String.isEmpty_iff, String.append_eq_empty_iff] at none
  exact regular.plain.filled (String.toList_eq_nil_iff.mpr none.2)

theorem partial_path : storage.partialPath region = storage.path region ++ ".partial" :=
  PathText.join_append storage.directory region ".partial" regular.plain regular.plain_beside

theorem reads_beside : namesOf (storage.partialPath region) = .ok (PathText.names (storage.partialPath region)) := by
  refine (FileTree.names_of_iff _ _).mpr ⟨regular.whole, Bool.eq_false_iff.mpr fun none => ?_, regular.short, rfl⟩
  rw [regular.partial_path, String.isEmpty_iff, String.append_eq_empty_iff] at none
  exact absurd none.2 (by decide)

theorem reads : namesOf (storage.path region) = .ok (PathText.names (storage.path region)) :=
  FileTree.names_of_prefix _ ".partial" _ regular.path_filled (regular.partial_path ▸ regular.reads_beside)

theorem reads_directory :
    storage.directory.isEmpty = true ∨ namesOf storage.directory = .ok (PathText.names storage.directory) := by
  by_cases empty : storage.directory.isEmpty = true
  · exact .inl empty
  · obtain ⟨rest, joined⟩ := PathText.join_begins storage.directory region regular.plain
    have reads := regular.reads
    rw [path, joined] at reads
    exact .inr (FileTree.names_of_prefix _ rest _ (Bool.eq_false_iff.mpr empty) reads)

end Regular

structure Mirrors (storage : DirStorage) (place : Place) (regions : List String) (tree : FileTree)
    (memory : MemoryStorage) : Prop where
  led : tree.walk (tree.startOf storage.directory) (PathText.names storage.directory) = .ok place
  there : tree.find? place = some .directory
  shallow : ∀ name, tree.find? (place ++ [name]) = (memory.read name).map .file
  deep : ∀ name below, below ≠ [] → tree.find? (place ++ name :: below) = none
  known : ∀ region bytes, memory.read region = some bytes → region ∈ regions

namespace Mirrors

variable {storage : DirStorage} {place : Place} {regions : List String} {tree : FileTree} {memory : MemoryStorage}
variable {region : String} (mirrors : storage.Mirrors place regions tree memory) (regular : storage.Regular region)
include mirrors

theorem no_directory (name : String) : tree.find? (place ++ [name]) ≠ some .directory := by
  rw [mirrors.shallow]
  cases memory.read name with
  | none => exact nofun
  | some bytes => exact nofun

include regular

theorem leads : tree.resolve (storage.path region) = .ok (place ++ [region]) :=
  tree.resolve_inside _ region regular.plain regular.region_fits _ regular.reads place mirrors.led mirrors.there

theorem reads_same : storage.read region tree = .ok (memory.read region) := by
  have found := mirrors.shallow region
  cases held : memory.read region with
  | none =>
      rw [held] at found
      exact storage.read_missing region tree (tree.stat_free _ _ (mirrors.leads regular) found)
  | some bytes =>
      rw [held] at found
      apply storage.read_present
      exact (tree.stat_file_iff _ bytes).mpr
        ⟨_, mirrors.leads regular, found, PathText.ends_in_no_slash _ region regular.plain⟩

theorem ready : storage.Ready region tree (place ++ [region ++ ".partial"]) (place ++ [region]) where
  made := tree.made_of_walk _ regular.reads_directory place mirrors.led mirrors.there
  beside :=
    tree.resolve_inside _ _ regular.plain_beside regular.fits _ regular.reads_beside place mirrors.led mirrors.there
  leads := mirrors.leads regular
  startFree := mirrors.no_directory _
  placeFree := mirrors.no_directory _
  besideFile := PathText.ends_in_no_slash _ _ regular.plain_beside
  file := PathText.ends_in_no_slash _ region regular.plain
  named := PathText.ends_in_no_dots _ region regular.plain

theorem after_write (member : region ∈ regions) (apart : region ++ ".partial" ∉ regions) (bytes : Bytes) :
    storage.Mirrors place regions (tree.replaced (place ++ [region ++ ".partial"]) (place ++ [region]) bytes)
      (memory.write region bytes) := by
  have ready := mirrors.ready regular
  have within := ready.within bytes
  have different : region ++ ".partial" ≠ region := by simp
  refine ⟨?_, within.directories place mirrors.there, fun name => ?_, fun name below moves => ?_, fun other found => ?_⟩
  · rw [FileTree.start_of_same tree _ within.base]
    exact FileTree.walk_within tree _ within _ _ place mirrors.led
  · by_cases same : region = name
    · rw [← same, memory.read_write, tree.find?_replaced _ _ bytes (by simp)]
      rfl
    · rw [memory.read_write_other region name bytes same]
      by_cases beside : region ++ ".partial" = name
      · rw [← beside, tree.find?_replaced_start _ _ bytes (by simp) (by simp [different.symm])]
        cases held : memory.read (region ++ ".partial") with
        | none => rfl
        | some other => exact absurd (mirrors.known _ other held) apart
      · rw [tree.find?_replaced_other _ _ bytes _ (by simp [beside]) (by simp [same])]
        exact mirrors.shallow name
  · have deeper : ∀ other, place ++ [other] ≠ place ++ name :: below := fun other same => by
      simp at same
      exact moves same.2
    rw [tree.find?_replaced_other _ _ bytes _ (deeper _) (deeper _)]
    exact mirrors.deep name below moves
  · intro held
    by_cases same : region = other
    · exact same ▸ member
    · rw [memory.read_write_other region other bytes same] at held
      exact mirrors.known other found held

end Mirrors

-- What the directory holds is in memory; or nothing is, and the directory is bare once it is made.
inductive Shows (storage : DirStorage) (place : Place) (regions : List String) (tree : FileTree) : MemoryStorage → Prop
  | mirrors (memory : MemoryStorage) (mirrors : storage.Mirrors place regions tree memory) :
      Shows storage place regions tree memory
  | missing (makes : (tree.makeDirs storage.directory).1 = .ok ())
      (bare : (tree.makeDirs storage.directory).2.Bare storage.directory place) :
      Shows storage place regions tree .empty

theorem bare_mirrors {storage : DirStorage} {place : Place} {tree : FileTree} (regions : List String)
    (bare : tree.Bare storage.directory place) : storage.Mirrors place regions tree .empty :=
  ⟨bare.led, bare.there, fun name => bare.nothing [name] (List.cons_ne_nil name []),
    fun name below _ => bare.nothing (name :: below) (List.cons_ne_nil name below), nofun⟩

theorem vacant_shows (storage : DirStorage) (place : Place) (regions : List String) (tree : FileTree)
    (rooted : tree.Rooted) (vacant : tree.Vacant storage.directory place) : storage.Shows place regions tree .empty := by
  cases vacant with
  | bare _ bare => exact .mirrors _ (bare_mirrors regions bare)
  | missing known first rest above lacks => exact .missing (lacks.makes rooted) (lacks.made_bare rooted)
  | cleared _ makes bare => exact .missing makes bare

namespace Shows

variable {storage : DirStorage} {place : Place} {regions : List String} {tree : FileTree} {memory : MemoryStorage}
variable (agrees : storage.Shows place regions tree memory)
include agrees

theorem access_same (next : RegionAccess) (regular : storage.Regular next.region) (member : next.region ∈ regions)
    (apart : next.region ++ ".partial" ∉ regions) :
    (storage.access tree next).1 = (memory.access next).1 ∧
      storage.Shows place regions (storage.access tree next).2 (memory.access next).2 := by
  cases next with
  | read region =>
      have same : storage.read region tree = .ok (memory.read region) := by
        cases agrees with
        | mirrors _ mirrors => exact mirrors.reads_same regular
        | missing _ bare =>
            have grows := tree.dirs_grow storage.directory
            apply storage.read_missing
            exact bare.unseen_before grows region regular.plain regular.region_fits _ regular.reads
      exact ⟨congrArg RegionAnswer.ofRead same, agrees⟩
  | write region bytes =>
      have writes : ∃ after, storage.write region bytes tree = (.ok (), after) ∧
          storage.Mirrors place regions after (memory.write region bytes) := by
        cases agrees with
        | mirrors _ mirrors =>
            exact ⟨_, (mirrors.ready regular).write bytes, mirrors.after_write regular member apart bytes⟩
        | missing makes bare =>
            have made := bare_mirrors regions bare
            rw [storage.write_once_made region tree bytes makes]
            exact ⟨_, (made.ready regular).write bytes, made.after_write regular member apart bytes⟩
      obtain ⟨after, wrote, mirrors⟩ := writes
      rw [access, wrote]
      exact ⟨rfl, .mirrors _ mirrors⟩

theorem serve_same (accesses : List RegionAccess) (regular : ∀ next ∈ accesses, storage.Regular next.region)
    (members : ∀ next ∈ accesses, next.region ∈ regions)
    (apart : ∀ next ∈ accesses, next.region ++ ".partial" ∉ regions) :
    (serve storage.access tree accesses).1 = (serve MemoryStorage.access memory accesses).1 ∧
      storage.Shows place regions (serve storage.access tree accesses).2
        (serve MemoryStorage.access memory accesses).2 := by
  induction accesses generalizing tree memory with
  | nil => exact ⟨rfl, agrees⟩
  | cons next later ih =>
      obtain ⟨regularFirst, regularLater⟩ := List.forall_mem_cons.mp regular
      obtain ⟨memberFirst, membersLater⟩ := List.forall_mem_cons.mp members
      obtain ⟨apartFirst, apartLater⟩ := List.forall_mem_cons.mp apart
      obtain ⟨same, after⟩ := agrees.access_same next regularFirst memberFirst apartFirst
      obtain ⟨others, ends⟩ := ih after regularLater membersLater apartLater
      exact ⟨by simp only [serve, same, others], ends⟩

theorem known (region : String) (bytes : Bytes) (reads : memory.read region = some bytes) : region ∈ regions := by
  cases agrees with
  | mirrors _ mirrors => exact mirrors.known region bytes reads
  | missing _ _ => cases reads

theorem find?_below (below : Place) (inside : below ≠ []) (node : FileNode) :
    tree.find? (place ++ below) = some node ↔
      ∃ region bytes, below = [region] ∧ node = .file bytes ∧ memory.read region = some bytes := by
  have mirrored : ∀ later held, storage.Mirrors place regions later held → later.find? (place ++ below) = some node →
      ∃ region bytes, below = [region] ∧ node = .file bytes ∧ held.read region = some bytes := by
    intro later held mirrors found
    obtain ⟨name, deeper, rfl⟩ := List.exists_cons_of_ne_nil inside
    by_cases ends : deeper = []
    · rw [ends, mirrors.shallow, Option.map_eq_some_iff] at found
      obtain ⟨bytes, reads, file⟩ := found
      exact ⟨name, bytes, by rw [ends], file.symm, reads⟩
    · rw [mirrors.deep name deeper ends] at found
      cases found
  constructor
  · intro found
    cases agrees with
    | mirrors _ mirrors => exact mirrored _ _ mirrors found
    | missing _ bare => exact mirrored _ _ (bare_mirrors regions bare) ((tree.dirs_grow _).kept _ node found)
  · rintro ⟨region, bytes, rfl, rfl, reads⟩
    cases agrees with
    | mirrors _ mirrors => rw [mirrors.shallow, reads]; rfl
    | missing _ _ => cases reads

end Shows

theorem dir_mirrors_memory (storage : DirStorage) (tree : FileTree) (place : Place) (accesses : List RegionAccess)
    (rooted : tree.Rooted) (vacant : tree.Vacant storage.directory place)
    (regular : ∀ next ∈ accesses, storage.Regular next.region)
    (apart : ∀ next ∈ accesses, ∀ other ∈ accesses, other.region ≠ next.region ++ ".partial") :
    let directory := serve storage.access tree accesses
    let memory := serve MemoryStorage.access .empty accesses
    directory.1 = memory.1 ∧
    (∀ earlier region later, accesses = earlier ++ .read region :: later →
      directory.1[earlier.length]? = some (.found (RegionAccess.last? region earlier))) ∧
    (∀ cause, .failed cause ∉ directory.1) ∧
    (∀ below node, below ≠ [] → (directory.2.find? (place ++ below) = some node ↔
      ∃ region bytes, below = [region] ∧ node = .file bytes ∧ RegionAccess.last? region accesses = some bytes)) ∧
    (∀ next ∈ accesses, directory.2.find? (place ++ [next.region ++ ".partial"]) = none) := by
  intro directory memory
  have members : ∀ next ∈ accesses, next.region ∈ accesses.map RegionAccess.region := fun next member =>
    List.mem_map_of_mem member
  have beside : ∀ next ∈ accesses, next.region ++ ".partial" ∉ accesses.map RegionAccess.region := by
    intro next member inside
    obtain ⟨other, isMember, same⟩ := List.mem_map.mp inside
    exact apart next member other isMember same
  obtain ⟨same, agrees⟩ := (storage.vacant_shows place _ tree rooted vacant).serve_same accesses regular members beside
  have held : ∀ region, memory.2.read region = RegionAccess.last? region accesses := by
    intro region
    rw [MemoryStorage.serve_read, MemoryStorage.empty_read, Option.or_none]
  refine ⟨same, ?_, ?_, ?_, ?_⟩
  · rintro earlier region later rfl
    rw [same, serve_answer, MemoryStorage.access, MemoryStorage.serve_read, MemoryStorage.empty_read, Option.or_none]
  · intro cause
    rw [same]
    exact MemoryStorage.serve_works _ accesses cause
  · intro below node inside
    rw [agrees.find?_below below inside node]
    exact exists_congr fun region => exists_congr fun bytes => by rw [← held region]
  · intro next member
    by_contra there
    obtain ⟨node, found⟩ := Option.ne_none_iff_exists'.mp there
    obtain ⟨region, bytes, same, -, reads⟩ := (agrees.find?_below _ (List.cons_ne_nil _ []) node).mp found
    exact beside next member (List.singleton_inj.mp same ▸ agrees.known region bytes reads)

theorem store_mirrors_memory :
    let storage : DirStorage := ⟨"store"⟩
    let accesses : List RegionAccess := [.read "a", .write "a" [1], .write "b" [2], .read "a", .write "a" [3], .read "b"]
    let directory := serve storage.access FileTree.empty accesses
    FileTree.empty.Rooted ∧ FileTree.empty.Vacant "store" ["store"] ∧
      (∀ next ∈ accesses, storage.Regular next.region) ∧
      (∀ next ∈ accesses, ∀ other ∈ accesses, other.region ≠ next.region ++ ".partial") ∧
      directory.1 = [.found none, .written, .written, .found (some [1]), .written, .found (some [2])] ∧
      directory.2.find? ["store", "a"] = some (.file [3]) ∧ directory.2.find? ["store", "a.partial"] = none := by
  intro storage accesses directory
  have regularA : storage.Regular "a" :=
    ⟨by decide, by decide, by decide +kernel, by decide +kernel⟩
  have regularB : storage.Regular "b" :=
    ⟨by decide, by decide, by decide +kernel, by decide +kernel⟩
  have regular : ∀ next ∈ accesses, storage.Regular next.region := by
    simp only [accesses, List.forall_mem_cons, RegionAccess.region]
    exact ⟨regularA, regularA, regularB, regularA, regularA, regularB, nofun⟩
  have apart : ∀ next ∈ accesses, ∀ other ∈ accesses, other.region ≠ next.region ++ ".partial" := by decide
  have lacks : FileTree.empty.Lacks "store" [] "store" [] [] :=
    ⟨by decide +kernel, rfl, rfl, rfl, by decide, by decide, by decide⟩
  have vacant : FileTree.empty.Vacant "store" ["store"] := .missing [] "store" [] [] lacks
  obtain ⟨same, -, -, holds, clean⟩ :=
    dir_mirrors_memory storage FileTree.empty ["store"] accesses FileTree.empty_rooted vacant regular apart
  refine ⟨FileTree.empty_rooted, vacant, regular, apart, same.trans (by decide), ?_, ?_⟩
  · exact (holds ["a"] _ (List.cons_ne_nil _ _)).mpr ⟨"a", [3], rfl, rfl, by decide⟩
  · exact clean (.read "a") List.mem_cons_self

-- A directory that is missing can not always be made: not from within, nor below a file, nor with a name too long. And
-- what is made to go up from it may stand where a region is to be.
theorem missing_directory_fails :
    FileTree.empty.stat "store/." = .error .notFound ∧ Regular ⟨"store/."⟩ "a" ∧
      (serve (DirStorage.access ⟨"store/."⟩) FileTree.empty [.write "a" [1], .read "a"]).1 =
        [.failed .notFound, .found none] ∧
      (serve (DirStorage.access ⟨"file/store"⟩) (FileTree.empty.place "file" (some [])) [.write "a" [1]]).1 =
        [.failed .notADirectory] ∧
      (serve (DirStorage.access ⟨"new/" ++ String.ofList (List.replicate 256 'x')⟩) FileTree.empty
        [.write Record.region [1]]).1 = [.failed .invalidFilename] ∧
      (serve (DirStorage.access ⟨"a/.."⟩) FileTree.empty [.write "a" [1]]).1 = [.failed .isADirectory] ∧
      (serve MemoryStorage.access .empty [.write "a" [1], .read "a"]).1 = [.written, .found (some [1])] := by
  have answered : ∀ storage : DirStorage, (storage.write Record.region [1] FileTree.empty).1 = .error .invalidFilename →
      (serve storage.access FileTree.empty [.write Record.region [1]]).1 = [.failed .invalidFilename] :=
    fun storage failed => by simp only [serve, access, failed, RegionAnswer.ofWrite]
  have regular : Regular ⟨"store/."⟩ "a" :=
    ⟨by decide, by decide, by decide +kernel, by decide +kernel⟩
  refine ⟨by decide +kernel, regular, by decide +kernel, by decide +kernel, ?_, by decide +kernel, by decide⟩
  exact answered _ long_name_comes_out.2.1

end DirStorage
end AlarmClock
