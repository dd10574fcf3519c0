import AlarmClock.Daemon
import AlarmClock.Report
import AlarmClock.Storage
import AlarmClock.TimerThread

set_option autoImplicit false

namespace AlarmClock

structure Reaction where
  files : List (String × Option Bytes)
  typed : String
deriving DecidableEq, Repr

/-- The reactions to the alarms that begin to ring, in order, those to rows by their number, and after how
many rows the daemon is killed. -/
structure Audience where
  onRing : List Reaction
  onRow : List (Nat × Reaction)
  patience : Option Nat
deriving DecidableEq, Repr

def Audience.silent : Audience := ⟨[], [], none⟩

structure Session where
  config : Config
  storage : DirStorage
  clock : Clock
  tree : FileTree
  daemon : Daemon
  timer : TimerThread
  now : Nat
  printed : List String
  audience : Audience
  pending : List Reaction
  unread : Nat

namespace Session

def turnLimit : Nat := 100000

def readAhead : Nat := 100

def fresh (config : Config) (storage : DirStorage) (clock : Clock) (tree : FileTree) (audience : Audience) :
    Session :=
  ⟨config, storage, clock, tree, Daemon.fresh 0, TimerThread.start, 0, [], audience, [], 0⟩

def surroundings (s : Session) : Surroundings :=
  s.storage.surroundings s.tree s.clock s.timer.failure?

def tell (timer : TimerThread) : Effect → TimerThread
  | .arm span => (timer.send (.arm span)).toOption.getD timer
  | .disarm => (timer.send .disarm).toOption.getD timer
  | .wake _ | .write _ | .log _ => timer

def isOver (s : Session) : Bool :=
  match s.audience.patience with
  | some count => count ≤ s.printed.length
  | none => false

def printRow (s : Session) (row : String) : Session :=
  if s.isOver then s
  else
    let number := s.printed.length + 1
    { s with
      printed := s.printed ++ [row]
      pending := s.pending ++ (s.audience.onRow.filter fun entry => entry.1 == number).map (·.2) }

def print (s : Session) (line : Line) : Session :=
  let after := line.rows.foldl printRow s
  if after.printed.length = s.printed.length + line.rows.length then
    match line, after.audience.onRing with
    | .rings _ _, reaction :: later =>
        { after with
          audience := { after.audience with onRing := later }
          pending := after.pending ++ [reaction] }
    | _, _ => after
  else after

def record (s : Session) (turn : Turn) : Session :=
  turn.lines.foldl print { s with
    daemon := turn.daemon
    timer := turn.effects.foldl tell s.timer
    tree := turn.effects.foldl s.storage.absorb s.tree }

def react (s : Session) : Session :=
  let files := s.pending.flatMap Reaction.files
  let typed := s.pending.flatMap fun reaction => reaction.typed.toList
  { s with
    tree := files.foldl (fun tree entry => tree.place entry.1 entry.2) s.tree
    unread := s.unread + typed.count '\n'
    pending := [] }

def read (s : Session) : Session :=
  let count := min s.unread (readAhead - s.daemon.inbox.length)
  { s with
    daemon := { s.daemon with inbox := s.daemon.inbox ++ List.replicate count .stopRequested }
    unread := s.unread - count }

def await (patience : Nat) (s : Session) : Session :=
  let (timer, now, fired) := s.timer.await s.now patience
  { s with
    timer := timer
    now := now
    daemon := { s.daemon with inbox := s.daemon.inbox ++ if fired then [.timerExpired] else [] } }

def wait (s : Session) : Session :=
  -- what is in the inbox is worked on before the audience gets to act, but the timer does not wait for that
  if s.daemon.inbox.isEmpty then
    let s := s.react.read
    if s.daemon.inbox.isEmpty then s.await Daemon.pollInterval else s
  else s.read.await 0

def ended (s : Session) (ending : Ending) : Session × Option Ending :=
  (s, if s.isOver then none else some ending)

def play : Nat → Session → Session × Option Ending
  | 0, s => (s, none)
  | turns + 1, s =>
      if s.isOver then (s, none)
      else if s.daemon.isFinished then (s.print .nothingToDo).ended .success
      else
        let s := s.wait
        let turn := s.daemon.turn s.config s.surroundings s.now
        if turn.goesOn then (s.record turn).play turns else (s.record turn).ended .unusableFormat

end Session
end AlarmClock
