set_option autoImplicit false

namespace AlarmClock.Toml

inductive TableForm where
  | inline
  | headed
  | implied
  | dotted
deriving DecidableEq, Repr

inductive Value where
  | string (text : String)
  | integer (n : Int)
  | float (text : String)
  | boolean (b : Bool)
  | dateTime (text : String)
  | array (items : List Value)
  | table (form : TableForm) (entries : List (String × Value))
  | tables (latest : List (String × Value)) (earlier : List (List (String × Value)))

abbrev Entries := List (String × Value)

namespace Entries

def find? (entries : Entries) (key : String) : Option Value :=
  (List.find? (fun e => e.1 == key) entries).map (·.2)

def put (entries : Entries) (key : String) (value : Value) : Entries :=
  if (entries.find? key).isSome then entries.map fun e => if e.1 == key then (key, value) else e
  else entries ++ [(key, value)]

end Entries

abbrev Change := TableForm × Entries → Option (TableForm × Entries)

def within (way : TableForm) (change : Change) : List String → Change
  | [], table => change table
  | key :: path, (form, entries) =>
      match entries.find? key with
      | none => do
          let (newForm, newEntries) ← within way change path (way, [])
          some (form, entries.put key (.table newForm newEntries))
      | some (.table .inline _) => none
      | some (.table inner innerEntries) =>
          if way = .dotted ∧ inner = .headed then none
          else do
            let (newForm, newEntries) ← within way change path (inner, innerEntries)
            some (form, entries.put key (.table newForm newEntries))
      | some (.tables latest earlier) => do
          let (_, newEntries) ← within way change path (.headed, latest)
          some (form, entries.put key (.tables newEntries earlier))
      | some _ => none

def addKey (key : String) (value : Value) : Change := fun (form, entries) =>
  if (entries.find? key).isSome then none else some (form, entries.put key value)

def addDotted (path : List String) (key : String) (value : Value) : Change :=
  match path with
  | [] => addKey key value
  | _ :: _ =>
      within .dotted (fun (form, entries) =>
        if form = .dotted then addKey key value (form, entries) else none) path

def openTable (key : String) : Change := fun (form, entries) =>
  match entries.find? key with
  | none => some (form, entries.put key (.table .headed []))
  | some (.table .implied inner) => some (form, entries.put key (.table .headed inner))
  | some _ => none

def openNext (key : String) : Change := fun (form, entries) =>
  match entries.find? key with
  | none => some (form, entries.put key (.tables [] []))
  | some (.tables latest earlier) => some (form, entries.put key (.tables [] (latest :: earlier)))
  | some _ => none

end AlarmClock.Toml
