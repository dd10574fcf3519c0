import AlarmClock.Controller
import AlarmClock.FileTree

set_option autoImplicit false

namespace AlarmClock

structure DirStorage where
  directory : String
deriving DecidableEq, Repr

namespace DirStorage

def path (storage : DirStorage) (region : String) : String := PathText.join storage.directory region

def partialPath (storage : DirStorage) (region : String) : String := storage.path (region ++ ".partial")

def read (storage : DirStorage) (region : String) (tree : FileTree) : Except FileError (Option Bytes) :=
  match tree.read (storage.path region) with
  | .ok bytes => .ok (some bytes)
  | .error .notFound => .ok none
  | .error cause => .error cause

def write (storage : DirStorage) (region : String) (bytes : Bytes) (tree : FileTree) :
    Except FileError Unit × FileTree :=
  match tree.makeDirs storage.directory with
  | (.error cause, made) => (.error cause, made)
  | (.ok (), made) =>
      match made.write (storage.partialPath region) bytes with
      | .error cause => (.error cause, made)
      | .ok written =>
          match written.rename (storage.partialPath region) (storage.path region) with
          | .error cause => (.error cause, written)
          | .ok renamed => (.ok (), renamed)

def surroundings (storage : DirStorage) (tree : FileTree) (clock : Clock)
    (armFailure : Option Failure) : Surroundings where
  clock := clock
  armFailure := armFailure
  saved := storage.read Record.region tree
  writeFailure := match (storage.write Record.region [] tree).1 with
    | .ok () => none
    | .error cause => some cause

def absorb (storage : DirStorage) (tree : FileTree) : Effect → FileTree
  | .write bytes => (storage.write Record.region bytes tree).2
  | .arm _ | .disarm | .wake _ | .log _ => tree

end DirStorage

structure MemoryStorage where
  regions : List (String × Bytes)
deriving DecidableEq, Repr

namespace MemoryStorage

def empty : MemoryStorage := ⟨[]⟩

def read (storage : MemoryStorage) (region : String) : Option Bytes :=
  (storage.regions.find? fun entry => entry.1 == region).map (·.2)

def write (storage : MemoryStorage) (region : String) (bytes : Bytes) : MemoryStorage :=
  ⟨(region, bytes) :: storage.regions.filter fun entry => entry.1 != region⟩

theorem read_write (storage : MemoryStorage) (region : String) (bytes : Bytes) :
    (storage.write region bytes).read region = some bytes := by
  simp [read, write]

theorem read_write_other (storage : MemoryStorage) (region other : String) (bytes : Bytes)
    (different : region ≠ other) : (storage.write region bytes).read other = storage.read other := by
  have away : (region == other) = false := by simp [different]
  have kept : (storage.regions.filter fun entry => entry.1 != region).find? (fun entry => entry.1 == other) =
      storage.regions.find? fun entry => entry.1 == other := by
    rw [List.find?_filter]
    congr 1
    funext entry
    by_cases same : entry.1 = other
    · simp [same, Ne.symm different]
    · simp [same]
  simp [read, write, away, kept]

end MemoryStorage
end AlarmClock
