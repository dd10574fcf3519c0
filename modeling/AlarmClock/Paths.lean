import AlarmClock.PathText

set_option autoImplicit false

namespace AlarmClock

structure BaseDirs where
  home : String
  accountHome : String
  configHome : Option String
  dataHome : Option String
deriving DecidableEq, Repr

namespace BaseDirs

def projectName : String := "wrist_alarm"

def configName : String := "config.toml"

def homeDir (dirs : BaseDirs) : String := if dirs.home.isEmpty then dirs.accountHome else dirs.home

def baseDir (dirs : BaseDirs) (set : Option String) (fallback : String) : String :=
  match set with
  | some directory =>
      if PathText.isAbsolute directory then directory else PathText.join dirs.homeDir fallback
  | none => PathText.join dirs.homeDir fallback

def configDir (dirs : BaseDirs) : String :=
  PathText.join (dirs.baseDir dirs.configHome ".config") projectName

def configPath (dirs : BaseDirs) : String := PathText.join dirs.configDir configName

def dataPath (dirs : BaseDirs) : String :=
  PathText.join (dirs.baseDir dirs.dataHome ".local/share") projectName

def logPath (dirs : BaseDirs) : String := PathText.join dirs.dataPath "log"

end BaseDirs
end AlarmClock
