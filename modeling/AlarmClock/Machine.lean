import AlarmClock.Clock
import AlarmClock.Command
import AlarmClock.Daemon.Session
import AlarmClock.Errand

set_option autoImplicit false

namespace AlarmClock

structure Machine where
  tree : FileTree
  dirs : BaseDirs
  clock : WallClock

namespace Machine

def configFile (m : Machine) : Option (Except FileError Bytes) :=
  if m.tree.isPresent m.dirs.configPath then some (m.tree.read m.dirs.configPath) else none

def storage (m : Machine) (config : Config) : DirStorage := ⟨(config.storagePath m.dirs).shown⟩

structure Run where
  rows : List String
  ending : Option Ending
  tree : FileTree
deriving DecidableEq

def ended (lines : List Line) (ending : Ending) (tree : FileTree) : Run :=
  ⟨lines.flatMap Line.rows, some ending, tree⟩

def writeConfig (m : Machine) (force : Bool) : Run :=
  if force || !m.tree.isPresent m.dirs.configPath then
    match Config.default.save m.dirs.configDir m.dirs.configPath m.tree with
    | .error _ => ended [] (.failed .configWrite) m.tree
    | .ok (.error cause, tree) => ended [] (.failed (.storage cause)) tree
    | .ok (.ok (), written) => ended [.wroteConfig m.dirs.configPath] .success written
  else ended [.configExists m.dirs.configPath] .success m.tree

def runErrand (m : Machine) (config : Config) (errand : Errand) : Run :=
  -- an errand for a slot that is missing ends before it needs the time
  if errand.missingSlot?.isSome || m.clock.Shows then
    let storage := m.storage config
    let report := errand.perform config (storage.surroundings m.tree m.clock.reading none)
    ended report.lines report.ending (report.effects.foldl storage.absorb m.tree)
  else ended [] .noTime m.tree

def withConfig (m : Machine) (f : Config → Run) : Run :=
  match Config.loadOrDefault m.configFile with
  | .error failure => ended [] (.failed failure) m.tree
  | .ok config => f config

def refuse (m : Machine) : Refusal → Run
  | .help => ended [.usage] .success m.tree
  | .version => ended [.version] .success m.tree
  | .misuse => ended [] .misuse m.tree

def runDaemon (m : Machine) (config : Config) (audience : Audience) : Run :=
  if m.clock.Shows then
    let storage := m.storage config
    let clock := m.clock.reading
    match Daemon.start (storage.surroundings m.tree clock none) 0 with
    | .error failure => ended [] (.failed failure) m.tree
    | .ok turn =>
        let last := ((Session.fresh config storage clock m.tree audience).record turn).play Session.turnLimit
        ⟨last.1.printed, last.2, last.1.react.tree⟩
  else ended [] .noTime m.tree

def obey (m : Machine) (audience : Audience) (args : List String) : Run :=
  match Command.parse args with
  | .error refusal => m.refuse refusal
  | .ok (.writeConfig force) => m.writeConfig force
  | .ok (.errand errand) => m.withConfig fun config => m.runErrand config errand
  | .ok .run => m.withConfig fun config => m.runDaemon config audience

def run (m : Machine) (audience : Audience) (args : List String) : Run :=
  match m.tree.makeDirs m.dirs.logPath with
  | (.error _, tree) => ended [] .noLog tree
  | (.ok (), tree) =>
      if m.clock.Runs then { m with tree := tree }.obey audience args else ended [] .noTime tree

end Machine
end AlarmClock
