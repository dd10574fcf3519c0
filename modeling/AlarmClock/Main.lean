import AlarmClock.Clock
import AlarmClock.Command
import AlarmClock.Daemon
import AlarmClock.Errand
import AlarmClock.Storage
import AlarmClock.Zone.Posix
import Std.Time.DateTime.Timestamp

set_option autoImplicit false

namespace AlarmClock.Program

def fileError : IO.Error → FileError
  | .noFileOrDirectory _ _ _ => .notFound
  | e => .other (toString e)

def attempt {α : Type} (act : IO α) : IO (Except FileError α) := do
  try
    return .ok (← act)
  catch e => return .error (fileError e)

def readFile (path : String) : IO (Except FileError Bytes) := attempt do
  return (← IO.FS.readBinFile path).toList

def writeFile (path : String) (bytes : Bytes) : IO Unit := IO.FS.writeBinFile path ⟨bytes.toArray⟩

def writeRegion (storage : DirStorage) (bytes : Bytes) : IO (Except FileError Unit) := attempt do
  IO.FS.createDirAll storage.directory
  writeFile (storage.partialPath Record.region) bytes
  IO.FS.rename (storage.partialPath Record.region) (storage.path Record.region)

def zoneRule (bytes : Bytes) : List Char :=
  (((bytes.reverse.drop 1).takeWhile (· != 10)).reverse).map fun byte => Char.ofNat byte.toNat

def findZone (name : Option String) : IO Zone := do
  let path := match name with
    | none => "/etc/localtime"
    | some name => PathText.join "/usr/share/zoneinfo" (String.ofList (name.toList.dropWhile (· == ':')))
  let rule := match ← readFile path, name with
    | .ok bytes, _ => zoneRule bytes
    | .error _, some name => name.toList
    | .error _, none => []
  return (Zone.ofText? rule).getD .utc

structure Setting where
  dirs : BaseDirs
  zone : Zone

def Setting.find : IO Setting := do
  let home := (← IO.getEnv "HOME").getD ""
  let dirs := ⟨home, "/", ← IO.getEnv "XDG_CONFIG_HOME", ← IO.getEnv "XDG_DATA_HOME"⟩
  return ⟨dirs, ← findZone (← IO.getEnv "TZ")⟩

def Setting.clock (setting : Setting) : IO WallClock := do
  let now ← Std.Time.Timestamp.now
  return .zoned setting.zone ⟨now.toNanosecondsSinceUnixEpoch.val⟩

def Setting.configFile (setting : Setting) : IO (Option (Except FileError Bytes)) := do
  match ← readFile setting.dirs.configPath with
  | .error .notFound => return none
  | file => return some file

def Setting.storage (setting : Setting) (config : Config) : DirStorage :=
  ⟨(config.storagePath setting.dirs).shown⟩

def Setting.surroundings (setting : Setting) (storage : DirStorage) : IO Surroundings := do
  let saved := match ← readFile (storage.path Record.region) with
    | .ok bytes => .ok (some bytes)
    | .error .notFound => .ok none
    | .error cause => .error cause
  return ⟨(← setting.clock).reading, none, saved, none⟩

def printLine (line : Line) : IO Unit := do
  IO.println line.text
  (← IO.getStdout).flush

def writeAll (storage : DirStorage) (effects : List Effect) : IO (Option FileError) := do
  for effect in effects do
    if let .write bytes := effect then
      if let .error cause ← writeRegion storage bytes then return some cause
  return none

def carryOut {α : Type} (storage : DirStorage) (around : Surroundings) (plan : Surroundings → α)
    (effects : α → List Effect) : IO α := do
  match ← writeAll storage (effects (plan around)) with
  | none => return plan around
  | some cause => return plan { around with writeFailure := some cause }

def writeConfig (setting : Setting) (force : Bool) : IO Ending := do
  let path := setting.dirs.configPath
  if !force && (← setting.configFile).isSome then
    printLine (.configExists path)
    return .success
  match Config.default.toText with
  | .error _ => return .failed .configWrite
  | .ok text =>
      let written ← attempt do
        IO.FS.createDirAll setting.dirs.configDir
        writeFile path text.toUTF8.toList
      match written with
      | .error cause => return .failed (.storage cause)
      | .ok () =>
          printLine (.wroteConfig path)
          return .success

def runErrand (setting : Setting) (config : Config) (errand : Errand) : IO Ending := do
  unless errand.missingSlot?.isSome || (← setting.clock).Shows do return .noTime
  let storage := setting.storage config
  let around ← setting.surroundings storage
  let report ← carryOut storage around (fun around => errand.perform config around) Report.effects
  report.lines.forM printLine
  return report.ending

def nextDeadline (now : Nat) (deadline : Option Nat) (effects : List Effect) : Option Nat :=
  effects.foldl (fun deadline effect =>
    match effect with
    | .arm span => some (now + span)
    | .disarm => none
    | .wake _ | .write _ | .log _ => deadline) deadline

partial def countLines (input : IO.FS.Stream) (typed : IO.Ref Nat) : IO Unit := do
  unless (← input.getLine).isEmpty do
    typed.modify (· + 1)
    countLines input typed

partial def waitForMessage (typed : IO.Ref Nat) (deadline : Option Nat) (waitEnd : Nat) :
    IO (Option Message) := do
  if 0 < (← typed.get) then
    typed.modify (· - 1)
    return some .stopRequested
  let now ← IO.monoNanosNow
  if deadline.any (· ≤ now) then return some .timerExpired
  if waitEnd ≤ now then return none
  IO.sleep 5
  waitForMessage typed deadline waitEnd

partial def serve (setting : Setting) (config : Config) (typed : IO.Ref Nat) (deadline : Option Nat)
    (d : Daemon) : IO Ending := do
  if d.isFinished then
    printLine .nothingToDo
    return .success
  let message ←
    if d.inbox.isEmpty then waitForMessage typed deadline ((← IO.monoNanosNow) + Daemon.pollInterval)
    else pure none
  let deadline := if message = some .timerExpired then none else deadline
  let d := { d with inbox := d.inbox ++ message.toList }
  let now ← IO.monoNanosNow
  let storage := setting.storage config
  let around ← setting.surroundings storage
  let turn ← carryOut storage around (fun around => d.turn config around now) Turn.effects
  turn.lines.forM printLine
  if turn.goesOn then
    serve setting config typed (nextDeadline now deadline turn.effects) turn.daemon
  else return .unusableFormat

def runDaemon (setting : Setting) (config : Config) : IO Ending := do
  unless (← setting.clock).Shows do return .noTime
  let now ← IO.monoNanosNow
  match Daemon.start (← setting.surroundings (setting.storage config)) now with
  | .error failure => return .failed failure
  | .ok turn =>
      turn.lines.forM printLine
      let typed ← IO.mkRef 0
      unless turn.daemon.isFinished do
        let _ ← IO.asTask (countLines (← IO.getStdin) typed) .dedicated
      serve setting config typed (nextDeadline now none turn.effects) turn.daemon

def withConfig (setting : Setting) (act : Config → IO Ending) : IO Ending := do
  match Config.loadOrDefault (← setting.configFile) with
  | .error failure => return .failed failure
  | .ok config => act config

def obey (setting : Setting) (args : List String) : IO Ending := do
  match Command.parse args with
  | .error .help =>
      printLine .usage
      return .success
  | .error .version =>
      printLine .version
      return .success
  | .error .misuse =>
      IO.eprintln Line.usage.text
      return .misuse
  | .ok (.writeConfig force) => writeConfig setting force
  | .ok (.errand errand) => withConfig setting fun config => runErrand setting config errand
  | .ok .run => withConfig setting fun config => runDaemon setting config

def run (args : List String) : IO Ending := do
  let setting ← Setting.find
  match ← attempt (IO.FS.createDirAll setting.dirs.logPath) with
  | .error _ => return .noLog
  | .ok () => if (← setting.clock).Runs then obey setting args else return .noTime

end AlarmClock.Program

def main (args : List String) : IO UInt32 := do
  let ending ← AlarmClock.Program.run args
  if let some message := ending.message? then IO.eprintln ("Error: " ++ message)
  return ending.exitCode.toUInt32
