import AlarmClock.Failure
import AlarmClock.PathText
import AlarmClock.Record

set_option autoImplicit false

namespace AlarmClock

inductive FileNode where
  | file (bytes : Bytes)
  | directory
deriving DecidableEq

abbrev Place := List String

/-- What is at each place but the root, which is always a directory, and where relative paths begin. -/
structure FileTree where
  nodes : List (Place × FileNode)
  base : Place
deriving DecidableEq

namespace FileTree

def empty : FileTree := ⟨[], []⟩

def find? (tree : FileTree) (place : Place) : Option FileNode :=
  if place = [] then some .directory else (tree.nodes.find? fun entry => entry.1 == place).map (·.2)

def remove (tree : FileTree) (place : Place) : FileTree :=
  { tree with nodes := tree.nodes.filter fun entry => entry.1 != place }

def put (tree : FileTree) (place : Place) (node : FileNode) : FileTree :=
  { tree with nodes := (tree.remove place).nodes ++ [(place, node)] }

def nameLimit : Nat := 255
def pathLimit : Nat := 4096

def walk (tree : FileTree) (here : Place) : List String → Except FileError Place
  | [] => .ok here
  | name :: rest =>
      match tree.find? here with
      | none => .error .notFound
      | some (.file _) => .error .notADirectory
      | some .directory =>
          if name = "." then tree.walk here rest
          else if name = ".." then tree.walk here.dropLast rest
          else if nameLimit < name.utf8ByteSize then .error .invalidFilename
          else tree.walk (here ++ [name]) rest

def namesOf (path : String) : Except FileError (List String) :=
  if path.toList.contains '\x00' then .error .invalidInput
  else if path.isEmpty then .error .notFound
  else if pathLimit ≤ path.utf8ByteSize then .error .invalidFilename
  else .ok (PathText.names path)

def startOf (tree : FileTree) (path : String) : Place := if PathText.isAbsolute path then [] else tree.base

def resolve (tree : FileTree) (path : String) : Except FileError Place :=
  match namesOf path with
  | .error cause => .error cause
  | .ok names => tree.walk (tree.startOf path) names

def stat (tree : FileTree) (path : String) : Except FileError FileNode :=
  match tree.resolve path with
  | .error cause => .error cause
  | .ok place =>
      match tree.find? place with
      | none => .error .notFound
      | some (.file bytes) =>
          if PathText.endsInSlash path then .error .notADirectory else .ok (.file bytes)
      | some .directory => .ok .directory

def isPresent (tree : FileTree) (path : String) : Bool := (tree.stat path).toOption.isSome

def read (tree : FileTree) (path : String) : Except FileError Bytes :=
  match tree.stat path with
  | .error cause => .error cause
  | .ok (.file bytes) => .ok bytes
  | .ok .directory => .error .isADirectory

def write (tree : FileTree) (path : String) (bytes : Bytes) : Except FileError FileTree :=
  match tree.resolve path with
  | .error cause => .error cause
  | .ok place =>
      match tree.find? place with
      | some .directory => .error .isADirectory
      | _ => if PathText.endsInSlash path then .error .isADirectory else .ok (tree.put place (.file bytes))

def makeDir (tree : FileTree) (start : Place) (names : List String) : Except FileError FileTree :=
  match tree.walk start names with
  | .error cause => .error cause
  | .ok place =>
      match tree.find? place with
      | some _ => .error .alreadyExists
      | none => .ok (tree.put place .directory)

def isDirectory (tree : FileTree) (start : Place) (names : List String) : Bool :=
  match tree.walk start names with
  | .error _ => false
  | .ok place => tree.find? place == some .directory

def ensureDir (tree : FileTree) (start : Place) (names : List String) : Except FileError FileTree :=
  match tree.makeDir start names with
  | .ok made => .ok made
  | .error cause => if tree.isDirectory start names then .ok tree else .error cause

def makeWay (tree : FileTree) (start : Place) (dot : List String) :
    List String → Except FileError Unit × FileTree
  | [] => (.ok (), tree)
  | name :: above =>
      let names := (name :: above).reverse ++ dot
      match tree.ensureDir start names with
      | .ok made => (.ok (), made)
      | .error .notFound =>
          match tree.makeWay start [] above with
          | (.error cause, made) => (.error cause, made)
          | (.ok (), made) =>
              match made.ensureDir start names with
              | .ok all => (.ok (), all)
              | .error cause => (.error cause, made)
      | .error cause => (.error cause, tree)

def makeDirs (tree : FileTree) (path : String) : Except FileError Unit × FileTree :=
  if path.isEmpty then (.ok (), tree)
  else
    match namesOf path with
    | .error cause => (.error cause, tree)
    | .ok names =>
        let dot := if names.getLast? = some "." then ["."] else []
        tree.makeWay (tree.startOf path) dot (PathText.withoutDots names).reverse

def plant (tree : FileTree) (path : String) (bytes : Bytes) : Except FileError Unit × FileTree :=
  match tree.makeWay (tree.startOf path) [] (PathText.withoutDots (PathText.names path)).reverse.tail with
  | (.error cause, made) => (.error cause, made)
  | (.ok (), made) =>
      match made.write path bytes with
      | .ok written => (.ok (), written)
      | .error cause => (.error cause, made)

def removeFile (tree : FileTree) (path : String) : Except FileError FileTree :=
  match tree.stat path, tree.resolve path with
  | .ok (.file _), .ok place => .ok (tree.remove place)
  | .ok .directory, _ => .error .isADirectory
  | .error cause, _ | _, .error cause => .error cause

def place (tree : FileTree) (path : String) : Option Bytes → FileTree
  | some bytes => (tree.plant path bytes).2
  | none => (tree.removeFile path).toOption.getD tree

def rename (tree : FileTree) (source target : String) : Except FileError FileTree :=
  match tree.stat source, tree.resolve source, tree.resolve target with
  | .ok (.file bytes), .ok start, .ok place =>
      if PathText.endsInDots target then .error .busy
      else if PathText.endsInSlash target then .error .notADirectory
      else if tree.find? place = some .directory then .error .isADirectory
      else .ok ((tree.remove start).put place (.file bytes))
  | .ok .directory, _, _ => .error .isADirectory
  | .error cause, _, _ => .error cause
  | _, .error cause, _ => .error cause
  | _, _, .error cause => .error cause

def filesBelow (tree : FileTree) (place : Place) : List (String × Bytes) :=
  tree.nodes.filterMap fun (spot, node) =>
    match node with
    | .directory => none
    | .file bytes =>
        if place.isPrefixOf spot then some ("/".intercalate (spot.drop place.length), bytes) else none

theorem remove_other (tree : FileTree) (place other : Place) (different : place ≠ other) :
    (tree.remove place).nodes.find? (fun entry => entry.1 == other) =
      tree.nodes.find? (fun entry => entry.1 == other) := by
  simp only [remove, List.find?_filter]
  congr 1
  funext entry
  by_cases same : entry.1 = other
  · simp [same, Ne.symm different]
  · simp [same]

theorem find?_remove (tree : FileTree) (place : Place) (inside : place ≠ []) :
    (tree.remove place).find? place = none := by
  simp [find?, inside, remove, List.find?_eq_none]

theorem find?_remove_other (tree : FileTree) (place other : Place) (different : place ≠ other) :
    (tree.remove place).find? other = tree.find? other := by
  rw [find?, find?, tree.remove_other place other different]

theorem find?_put (tree : FileTree) (place : Place) (node : FileNode) (inside : place ≠ []) :
    (tree.put place node).find? place = some node := by
  have absent : (tree.remove place).nodes.find? (fun entry => entry.1 == place) = none := by
    simp [remove, List.find?_eq_none]
  simp [find?, inside, put, List.find?_append, absent]

theorem find?_put_other (tree : FileTree) (place other : Place) (node : FileNode)
    (different : place ≠ other) : (tree.put place node).find? other = tree.find? other := by
  simp [find?, put, List.find?_append, tree.remove_other place other different, different]

end FileTree
end AlarmClock
