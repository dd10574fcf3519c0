import AlarmClock.Failure
import AlarmClock.FileTree
import AlarmClock.Paths
import AlarmClock.Record
import AlarmClock.Text.Utf8
import AlarmClock.Toml.Document
import AlarmClock.Toml.Quote

set_option autoImplicit false

namespace AlarmClock

inductive DirName where
  | text (path : String)
  | raw (bytes : Bytes)
deriving DecidableEq, Repr

def DirName.shown : DirName → String
  | .text path => path
  | .raw bytes => Utf8.shown bytes

structure Config where
  timeFormat : String
  autoStop : Nat
  storageDir : Option DirName
deriving DecidableEq, Repr

namespace Config

def defaultTimeFormat : String := "%H:%M"
def defaultAutoStop : Nat := 60

def default : Config := ⟨defaultTimeFormat, defaultAutoStop, none⟩

instance : Inhabited Config := ⟨default⟩

def ofTable (table : Toml.Entries) : Option Config := do
  let timeFormat ← match table.find? "time_format" with
    | none => some defaultTimeFormat
    | some (.string text) => some text
    | some _ => none
  let autoStop ← match table.find? "auto_stop_secs" with
    | none => some defaultAutoStop
    | some (.integer n) => if 0 ≤ n then some n.toNat else none
    | some _ => none
  let storageDir ← match table.find? "storage_dir" with
    | none => some none
    | some (.string text) => some (some (.text text))
    | some _ => none
  some ⟨timeFormat, autoStop, storageDir⟩

def ofText (text : String) : Except Failure Config :=
  match (Toml.parse text).bind ofTable with
  | some config => .ok config
  | none => .error .config

def load (file : Except FileError Bytes) : Except Failure Config :=
  match file with
  | .error cause => .error (.storage cause)
  | .ok bytes =>
      match String.fromUTF8? ⟨bytes.toArray⟩ with
      | some text => ofText text
      | none => .error (.storage (.other "stream did not contain valid UTF-8"))

def loadOrDefault (file : Option (Except FileError Bytes)) : Except Failure Config :=
  match file with
  | none => .ok default
  | some file => load file

def storagePath (config : Config) (dirs : BaseDirs) : DirName :=
  config.storageDir.getD (.text dirs.dataPath)

inductive WriteFault where
  | noForm
  | quoteRun
deriving DecidableEq, Repr

def hasForm (config : Config) : Bool :=
  config.autoStop ≤ 9223372036854775807 &&
    match config.storageDir with
    | some (.raw _) => false
    | some (.text _) | none => true

def toText (config : Config) : Except WriteFault String :=
  if config.hasForm then
    let common := fun (timeFormat : String) =>
      "time_format = " ++ timeFormat ++ "\n" ++ "auto_stop_secs = " ++ toString config.autoStop ++ "\n"
    match Toml.quote? config.timeFormat, config.storageDir.map fun dir => Toml.quote? dir.shown with
    | some timeFormat, none => .ok (common timeFormat)
    | some timeFormat, some (some path) => .ok (common timeFormat ++ "storage_dir = " ++ path ++ "\n")
    | _, _ => .error .quoteRun
  else .error .noForm

def save (config : Config) (directory path : String) (tree : FileTree) :
    Except WriteFault (Except FileError Unit × FileTree) :=
  config.toText.map fun text =>
    match tree.makeDirs directory with
    | (.error cause, tree) => (.error cause, tree)
    | (.ok (), tree) =>
        match tree.write path text.toUTF8.toList with
        | .error cause => (.error cause, tree)
        | .ok written => (.ok (), written)

end Config
end AlarmClock
