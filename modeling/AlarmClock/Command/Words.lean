set_option autoImplicit false

namespace AlarmClock

structure Flag where
  letter : Char
  name : String
  takesValue : Bool
deriving DecidableEq, Repr

inductive Word where
  | value (text : String)
  | flag (text : String)
  | help
  | unknown
deriving DecidableEq, Repr

namespace Word

def isFlagLike (arg : String) : Bool := arg.startsWith "-" && arg != "-"

structure Reading where
  words : List Word
  awaiting : Bool
deriving DecidableEq, Repr

def Reading.after (word : Word) (reading : Reading) : Reading := ⟨word :: reading.words, reading.awaiting⟩

def Reading.unknown : Reading := ⟨[.unknown], false⟩

def readFlag (known : Flag) (attached : Option String) : Reading :=
  match known.takesValue, attached with
  | true, some text => ⟨[.flag text], false⟩
  | true, none => ⟨[], true⟩
  | false, none => ⟨[.flag ""], false⟩
  | false, some _ => .unknown

def readLong (flag : Option Flag) (text : List Char) : Reading :=
  let name := String.ofList (text.takeWhile (· != '='))
  let attached := match text.dropWhile (· != '=') with
    | [] => none
    | _ :: rest => some (String.ofList rest)
  match flag.filter fun known => known.name == name with
  | some known => readFlag known attached
  | none => if name = "help" ∧ attached = none then ⟨[.help], false⟩ else .unknown

def readCluster (flag : Option Flag) : List Char → Reading
  | [] => ⟨[], false⟩
  | letter :: rest =>
      match flag.filter fun known => known.letter == letter with
      | some known =>
          if known.takesValue then
            match rest with
            | [] => readFlag known none
            | '=' :: text => readFlag known (some (String.ofList text))
            | text => readFlag known (some (String.ofList text))
          else (readCluster flag rest).after (.flag "")
      | none => if letter = 'h' then ⟨[.help], false⟩ else .unknown

def readArgument (flag : Option Flag) (arg : String) : Reading :=
  match arg.toList with
  | '-' :: '-' :: rest => readLong flag rest
  | '-' :: letter :: rest => readCluster flag (letter :: rest)
  | _ => ⟨[.value arg], false⟩

def readAll (flag : Option Flag) (awaiting : Bool) : List String → List Word
  | [] => if awaiting then [.unknown] else []
  | arg :: rest =>
      if awaiting then
        (if isFlagLike arg then .unknown else .flag arg) :: readAll flag false rest
      else if arg = "--" then rest.map .value
      else
        let reading := readArgument flag arg
        reading.words ++ readAll flag reading.awaiting rest

theorem not_flag_like (arg : String) (plain : ∀ rest, arg.toList ≠ '-' :: rest) : ¬ isFlagLike arg = true := by
  intro flagged
  rw [isFlagLike, Bool.and_eq_true, String.startsWith_string_iff] at flagged
  obtain ⟨rest, dashed⟩ := flagged.1
  exact plain rest dashed.symm

theorem read_argument_plain (flag : Option Flag) (arg : String) (plain : ∀ rest, arg.toList ≠ '-' :: rest) :
    readArgument flag arg = ⟨[.value arg], false⟩ := by
  unfold readArgument
  split
  · rename_i rest dashed
    exact absurd dashed (plain _)
  · rename_i letter rest dashed
    exact absurd dashed (plain _)
  · rfl

theorem read_all_plain (flag : Option Flag) (arg : String) (rest : List String) (plain : ∀ rest, arg.toList ≠ '-' :: rest) :
    readAll flag false (arg :: rest) = .value arg :: readAll flag false rest := by
  have undashed : arg ≠ "--" := fun same => plain ['-'] (same ▸ rfl)
  rw [readAll, if_neg (by decide), if_neg undashed, read_argument_plain flag arg plain]
  rfl

end Word
end AlarmClock
