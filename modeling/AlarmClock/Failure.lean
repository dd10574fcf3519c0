set_option autoImplicit false

namespace AlarmClock

inductive FileError where
  | notFound
  | notADirectory
  | isADirectory
  | alreadyExists
  | invalidInput
  | invalidFilename
  | busy
  | other (reason : String)
deriving DecidableEq, Repr

def FileError.message : FileError → String
  | .notFound => "No such file or directory (os error 2)"
  | .notADirectory => "Not a directory (os error 20)"
  | .isADirectory => "Is a directory (os error 21)"
  | .alreadyExists => "File exists (os error 17)"
  | .invalidInput => "file name contained an unexpected NUL byte"
  | .invalidFilename => "File name too long (os error 36)"
  | .busy => "Device or resource busy (os error 16)"
  | .other reason => reason

inductive Failure where
  | timer (reason : String)
  | storage (cause : FileError)
  | config
  | configWrite
deriving DecidableEq, Repr

def Failure.message : Failure → String
  | .timer reason => "couldn't arm the alarm timer: " ++ reason
  | .storage _ => "storage error"
  | .config => "couldn't parse config file"
  | .configWrite => "couldn't serialize config"

end AlarmClock
