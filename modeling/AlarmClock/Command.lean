import AlarmClock.Command.Values
import AlarmClock.Command.Words
import AlarmClock.Days.Parser

set_option autoImplicit false

namespace AlarmClock

inductive Errand where
  | list
  | next
  | set (slot : Nat) (hour minute : UInt8) (days : Option Days)
  | enable (slot : Nat)
  | disable (slot : Nat)
deriving DecidableEq, Repr

inductive Command where
  | writeConfig (force : Bool)
  | errand (errand : Errand)
  | run
deriving DecidableEq, Repr

def Errand.slot? : Errand → Option Nat
  | .list | .next => none
  | .set slot _ _ _ | .enable slot | .disable slot => some slot

inductive Refusal where
  | help
  | version
  | misuse
deriving DecidableEq, Repr

namespace Command

def noWords : List Word → Except Refusal Unit
  | [] => .ok ()
  | .help :: _ => .error .help
  | _ => .error .misuse

def readSlot (text : String) : Except Refusal Nat :=
  match slotNumber? text.toList with
  | some slot => .ok slot
  | none => .error .misuse

def takeForce (force : Bool) : Word → Except Refusal Bool
  | .flag _ => if force then .error .misuse else .ok true
  | .help => .error .help
  | .value _ | .unknown => .error .misuse

def takeSlot (slot : Option Nat) : Word → Except Refusal (Option Nat)
  | .value text => if slot.isSome then .error .misuse else (readSlot text).map some
  | .help => .error .help
  | .flag _ | .unknown => .error .misuse

structure Draft where
  slot : Option Nat
  time : Option (UInt8 × UInt8)
  days : Option Days
deriving DecidableEq, Repr

def Draft.take (draft : Draft) : Word → Except Refusal Draft
  | .value text =>
      match draft.slot, draft.time with
      | none, _ => (readSlot text).map fun slot => { draft with slot := some slot }
      | some _, none =>
          match timeOfDay? text.toList with
          | some time => .ok { draft with time := some time }
          | none => .error .misuse
      | some _, some _ => .error .misuse
  | .flag text =>
      match draft.days, Days.parse text with
      | none, .ok days => .ok { draft with days := some days }
      | _, _ => .error .misuse
  | .help => .error .help
  | .unknown => .error .misuse

def Draft.errand (draft : Draft) : Except Refusal Errand :=
  match draft.slot, draft.time with
  | some slot, some (hour, minute) => .ok (.set slot hour minute draft.days)
  | _, _ => .error .misuse

def forceFlag : Flag := ⟨'f', "force", false⟩
def daysFlag : Flag := ⟨'d', "days", true⟩

def parseSlotOnly (errand : Nat → Errand) (args : List String) : Except Refusal Command := do
  match ← (Word.readAll none false args).foldlM takeSlot none with
  | some slot => .ok (.errand (errand slot))
  | none => .error .misuse

def parsePlain (command : Command) (args : List String) : Except Refusal Command := do
  noWords (Word.readAll none false args)
  return command

def parseInit (args : List String) : Except Refusal Command := do
  return .writeConfig (← (Word.readAll (some forceFlag) false args).foldlM takeForce false)

def parseSet (args : List String) : Except Refusal Command := do
  let draft ← (Word.readAll (some daysFlag) false args).foldlM Draft.take ⟨none, none, none⟩
  return .errand (← draft.errand)

def parser? : String → Option (List String → Except Refusal Command)
  | "init" => some parseInit
  | "list" => some (parsePlain (.errand .list))
  | "set" => some parseSet
  | "enable" => some (parseSlotOnly .enable)
  | "disable" => some (parseSlotOnly .disable)
  | "next" => some (parsePlain (.errand .next))
  | "run" => some (parsePlain .run)
  | _ => none

def parseHelp : List String → Refusal
  | [] => .help
  | [name] => if (parser? name).isSome || name = "help" then .help else .misuse
  | _ => .misuse

def parseFlag (arg : String) : Refusal :=
  match arg.toList with
  | '-' :: 'h' :: _ => .help
  | '-' :: 'V' :: _ => .version
  | _ => if arg = "--help" then .help else if arg = "--version" then .version else .misuse

def parse : List String → Except Refusal Command
  | [] | ["--"] => .ok .run
  | name :: args =>
      match parser? name with
      | some parser => parser args
      | none => .error (if name = "help" then parseHelp args else parseFlag name)

theorem read_slot_digits (slot : Nat) :
    readSlot (toString slot) = if slot < UInt64.size then .ok slot else .error .misuse := by
  rw [readSlot, slot_number_of_digits]
  by_cases known : slot < UInt64.size
  · rw [if_pos known, if_pos known]
  · rw [if_neg known, if_neg known]

theorem parse_slot_only_digits (errand : Nat → Errand) (slot : Nat) :
    parseSlotOnly errand [toString slot] =
      if slot < UInt64.size then .ok (.errand (errand slot)) else .error .misuse := by
  have words : Word.readAll none false [toString slot] = [.value (toString slot)] :=
    Word.read_all_plain none _ [] (digits_undashed slot)
  rw [parseSlotOnly, words, List.foldlM_cons, takeSlot, read_slot_digits]
  by_cases known : slot < UInt64.size
  · rw [if_pos known, if_pos known]
    rfl
  · rw [if_neg known, if_neg known]
    rfl

def timeText (hour minute : Nat) : String := twoDigits hour ++ ":" ++ twoDigits minute

theorem time_text_undashed (hour minute : Nat) (hours : hour < 100) (rest : List Char) :
    (timeText hour minute).toList ≠ '-' :: rest := by
  have digit : ∀ k < 10, k.digitChar ≠ '-' := by decide
  rw [timeText, String.toList_append, String.toList_append, two_digits hour hours]
  intro dashed
  exact digit (hour / 10) (by omega) (List.cons.inj dashed).1

theorem set_words (slot hour minute : Nat) (hours : hour < 100) (rest : List String) :
    Word.readAll (some daysFlag) false (toString slot :: timeText hour minute :: rest) =
      .value (toString slot) :: .value (timeText hour minute) :: Word.readAll (some daysFlag) false rest := by
  rw [Word.read_all_plain _ _ _ (digits_undashed slot), Word.read_all_plain _ _ _ (time_text_undashed hour minute hours)]

theorem days_words (text : String) :
    Word.readAll (some daysFlag) false ["--days", text] = [if Word.isFlagLike text then .unknown else .flag text] := by
  have awaits : Word.readArgument (some daysFlag) "--days" = ⟨[], true⟩ := by decide +kernel
  rw [Word.readAll, if_neg (by decide), if_neg (by decide), awaits]
  simp [Word.readAll]

theorem take_slot_digits (slot : Nat) (days : Option Days) : Draft.take ⟨none, none, days⟩ (.value (toString slot)) =
    if slot < UInt64.size then .ok ⟨some slot, none, days⟩ else .error .misuse := by
  rw [Draft.take, read_slot_digits]
  by_cases known : slot < UInt64.size
  · rw [if_pos known, if_pos known]
    rfl
  · rw [if_neg known, if_neg known]
    rfl

theorem take_time_digits (slot hour minute : Nat) (days : Option Days) (hours : hour < 100) (minutes : minute < 100) :
    Draft.take ⟨some slot, none, days⟩ (.value (timeText hour minute)) =
      if hour ≤ 23 ∧ minute ≤ 59 then .ok ⟨some slot, some (hour.toUInt8, minute.toUInt8), days⟩
      else .error .misuse := by
  simp only [Draft.take, timeText, time_of_day_of_digits hour minute hours minutes]
  by_cases real : hour ≤ 23 ∧ minute ≤ 59
  · rw [if_pos real, if_pos real]
  · rw [if_neg real, if_neg real]

theorem take_slot_and_time (slot hour minute : Nat) (hours : hour < 100) (minutes : minute < 100) (rest : List Word) :
    (Word.value (toString slot) :: .value (timeText hour minute) :: rest).foldlM Draft.take ⟨none, none, none⟩ =
      if slot < UInt64.size ∧ hour ≤ 23 ∧ minute ≤ 59 then
        rest.foldlM Draft.take ⟨some slot, some (hour.toUInt8, minute.toUInt8), none⟩
      else .error .misuse := by
  rw [List.foldlM_cons, take_slot_digits]
  by_cases known : slot < UInt64.size
  · rw [if_pos known]
    simp only [bind, Except.bind, List.foldlM_cons, take_time_digits slot hour minute none hours minutes]
    by_cases real : hour ≤ 23 ∧ minute ≤ 59
    · rw [if_pos real, if_pos ⟨known, real⟩]
    · rw [if_neg real, if_neg fun both => real both.2]
  · rw [if_neg known, if_neg fun both => known both.1]
    rfl

theorem parse_enable (slot : Nat) : parse ["enable", toString slot] =
    if slot < UInt64.size then .ok (.errand (.enable slot)) else .error .misuse :=
  parse_slot_only_digits .enable slot

theorem parse_disable (slot : Nat) : parse ["disable", toString slot] =
    if slot < UInt64.size then .ok (.errand (.disable slot)) else .error .misuse :=
  parse_slot_only_digits .disable slot

theorem parse_set (slot hour minute : Nat) (hours : hour < 100) (minutes : minute < 100) :
    parse ["set", toString slot, timeText hour minute] =
      if slot < UInt64.size ∧ hour ≤ 23 ∧ minute ≤ 59 then
        .ok (.errand (.set slot hour.toUInt8 minute.toUInt8 none))
      else .error .misuse := by
  change parseSet _ = _
  rw [parseSet, set_words slot hour minute hours, take_slot_and_time slot hour minute hours minutes]
  by_cases real : slot < UInt64.size ∧ hour ≤ 23 ∧ minute ≤ 59
  · rw [if_pos real, if_pos real]
    rfl
  · rw [if_neg real, if_neg real]
    rfl

theorem parse_set_days (slot hour minute : Nat) (hours : hour < 100) (minutes : minute < 100) (text : String) :
    parse ["set", toString slot, timeText hour minute, "--days", text] =
      if slot < UInt64.size ∧ hour ≤ 23 ∧ minute ≤ 59 then
        match Days.parse text with
        | .ok days => .ok (.errand (.set slot hour.toUInt8 minute.toUInt8 (some days)))
        | .error _ => .error .misuse
      else .error .misuse := by
  change parseSet _ = _
  rw [parseSet, set_words slot hour minute hours, days_words, take_slot_and_time slot hour minute hours minutes]
  by_cases real : slot < UInt64.size ∧ hour ≤ 23 ∧ minute ≤ 59
  · rw [if_pos real, if_pos real]
    cases read : Days.parse text with
    | ok days =>
        rw [if_neg (Word.not_flag_like text (Days.parse_undashed text days read))]
        simp only [List.foldlM_cons, Draft.take, read]
        rfl
    | error fault =>
        by_cases flagged : Word.isFlagLike text = true
        · rw [if_pos flagged]
          rfl
        · rw [if_neg flagged]
          simp only [List.foldlM_cons, Draft.take, read]
          rfl
  · rw [if_neg real, if_neg real]
    rfl

end Command
end AlarmClock
