import AlarmClock.Proofs.SavedConfig

set_option autoImplicit false

namespace AlarmClock

namespace Toml

def Value.Bounded : Value → Prop
  | .integer n => n ≤ 9223372036854775807
  | .string _ | .float _ | .boolean _ | .dateTime _ | .array _ | .table _ _ | .tables _ _ => True

def Entries.Bounded (entries : Entries) : Prop := ∀ e ∈ entries, e.2.Bounded

def ReadsBounded (reader : Reader Value) : Prop := ∀ cs value rest, reader cs = some (value, rest) → value.Bounded

def KeepsBounded (change : Change) : Prop :=
  ∀ table after, change table = some after → table.2.Bounded → after.2.Bounded

theorem integer_bounded (n : Int) (value : Value) (read : integer? n = some value) : value.Bounded := by
  rw [integer?, Option.ite_none_right_eq_some] at read
  obtain ⟨⟨-, upper⟩, same⟩ := read
  obtain rfl := Option.some.inj same
  exact upper

theorem based_integer_bounded (base : Nat) : ReadsBounded (basedInteger base) := by
  intro cs value rest read
  simp only [basedInteger, Option.bind_eq_bind, Option.bind_eq_some_iff, Option.some.injEq, Prod.mk.injEq] at read
  obtain ⟨digits, -, n, whole, rfl, -⟩ := read
  exact integer_bounded _ n whole

theorem float_bounded (negative : Bool) (whole fraction exp : List Char) (value : Value)
    (read : float? negative whole fraction exp = some value) : value.Bounded := by
  rw [float?, Option.ite_none_left_eq_some] at read
  obtain ⟨-, same⟩ := read
  obtain rfl := Option.some.inj same
  trivial

theorem with_exponent_bounded (negative : Bool) (whole fraction cs rest : List Char) (value : Value)
    (read : (do let (exp, rest) ← exponent cs; some (← float? negative whole fraction exp, rest)) = some (value, rest)) :
    value.Bounded := by
  simp only [Option.bind_eq_bind, Option.bind_eq_some_iff, Option.some.injEq, Prod.mk.injEq] at read
  obtain ⟨exp, -, float, made, rfl, -⟩ := read
  exact float_bounded negative whole fraction _ float made

theorem unsigned_bounded (negative : Bool) : ReadsBounded (unsigned negative) := by
  intro cs value rest read
  unfold unsigned at read
  split at read
  · cases read
    trivial
  · cases read
    trivial
  · obtain ⟨⟨whole, more⟩, -, read⟩ := Option.bind_eq_some_iff.mp read
    dsimp only at read
    split at read
    · obtain ⟨⟨fraction, more⟩, -, read⟩ := Option.bind_eq_some_iff.mp read
      dsimp only at read
      split at read
      · exact with_exponent_bounded negative whole fraction _ rest value read
      · exact with_exponent_bounded negative whole fraction _ rest value read
      · simp only [Option.bind_eq_bind, Option.bind_eq_some_iff, Option.some.injEq, Prod.mk.injEq] at read
        obtain ⟨float, made, rfl, -⟩ := read
        exact float_bounded negative whole fraction _ float made
    · exact with_exponent_bounded negative whole [] _ rest value read
    · exact with_exponent_bounded negative whole [] _ rest value read
    · simp only [Option.bind_eq_bind, Option.bind_eq_some_iff, Option.some.injEq, Prod.mk.injEq] at read
      obtain ⟨n, made, rfl, -⟩ := read
      exact integer_bounded _ n made

theorem number_bounded : ReadsBounded number := by
  intro cs value rest read
  unfold number at read
  split at read
  · exact based_integer_bounded 16 _ value rest read
  · exact based_integer_bounded 8 _ value rest read
  · exact based_integer_bounded 2 _ value rest read
  · exact unsigned_bounded false _ value rest read
  · exact unsigned_bounded true _ value rest read
  · exact unsigned_bounded false _ value rest read

theorem date_time_bounded : ReadsBounded dateTime := by
  intro cs value rest read
  unfold dateTime at read
  split at read
  · obtain ⟨after, -, same⟩ := Option.bind_eq_some_iff.mp read
    cases same
    trivial
  · obtain ⟨after, -, same⟩ := Option.bind_eq_some_iff.mp read
    cases same
    trivial

theorem scalar_bounded : ReadsBounded scalar := by
  have numbers : ReadsBounded numberOrDate := by
    intro cs value rest read
    unfold numberOrDate at read
    split at read
    · split at read
      · exact date_time_bounded _ value rest read
      · exact number_bounded _ value rest read
    · split at read
      · exact date_time_bounded _ value rest read
      · exact number_bounded _ value rest read
    · exact number_bounded _ value rest read
  intro cs value rest read
  unfold scalar at read
  split at read
  · cases read
    trivial
  · cases read
    trivial
  · obtain ⟨text, -, same⟩ := Option.map_eq_some_iff.mp read
    cases same
    trivial
  · obtain ⟨text, -, same⟩ := Option.map_eq_some_iff.mp read
    cases same
    trivial
  · exact numbers _ value rest read

theorem value_bounded (depth : Nat) : ReadsBounded (value depth) := by
  intro cs v rest read
  unfold value at read
  split at read
  · obtain ⟨items, -, same⟩ := Option.map_eq_some_iff.mp read
    cases same
    trivial
  · split at read
    · cases read
      trivial
    · obtain ⟨entries, -, same⟩ := Option.map_eq_some_iff.mp read
      cases same
      trivial
  · exact scalar_bounded _ v rest read

theorem put_bounded (entries : Entries) (key : String) (value : Value) (bounded : entries.Bounded)
    (small : value.Bounded) : (entries.put key value).Bounded := by
  intro e present
  rw [Entries.put] at present
  split at present
  · obtain ⟨old, before, rfl⟩ := List.mem_map.mp present
    by_cases same : (old.1 == key) = true
    · rw [if_pos same]
      exact small
    · rw [if_neg same]
      exact bounded old before
  · rcases List.mem_append.mp present with before | new
    · exact bounded e before
    · obtain rfl := List.mem_singleton.mp new
      exact small

-- What lies deeper stands in a table, so only a change to the entries themselves counts.
theorem within_bounded (way : TableForm) (change : Change) (path : List String) (keeps : path = [] → KeepsBounded change) :
    KeepsBounded (within way change path) := by
  intro table after made bounded
  obtain ⟨form, entries⟩ := table
  cases path with
  | nil => exact keeps rfl _ after made bounded
  | cons key path =>
      unfold within at made
      split at made
      · obtain ⟨deeper, -, same⟩ := Option.bind_eq_some_iff.mp made
        cases same
        exact put_bounded entries key _ bounded trivial
      · cases made
      · split at made
        · cases made
        · obtain ⟨deeper, -, same⟩ := Option.bind_eq_some_iff.mp made
          cases same
          exact put_bounded entries key _ bounded trivial
      · obtain ⟨deeper, -, same⟩ := Option.bind_eq_some_iff.mp made
        cases same
        exact put_bounded entries key _ bounded trivial
      · cases made

theorem add_dotted_bounded (path : List String) (key : String) (value : Value) (small : value.Bounded) :
    KeepsBounded (addDotted path key value) := by
  cases path with
  | nil =>
      intro table after made bounded
      rw [addDotted, addKey, Option.ite_none_left_eq_some] at made
      obtain ⟨-, same⟩ := made
      cases same
      exact put_bounded _ key value bounded small
  | cons first path => exact within_bounded .dotted _ (first :: path) fun none => absurd none (List.cons_ne_nil first path)

theorem open_table_bounded (key : String) : KeepsBounded (openTable key) := by
  intro table after made bounded
  obtain ⟨form, entries⟩ := table
  unfold openTable at made
  dsimp only at made
  split at made
  · cases made
    exact put_bounded entries key _ bounded trivial
  · cases made
    exact put_bounded entries key _ bounded trivial
  · cases made

theorem open_next_bounded (key : String) : KeepsBounded (openNext key) := by
  intro table after made bounded
  obtain ⟨form, entries⟩ := table
  unfold openNext at made
  dsimp only at made
  split at made
  · cases made
    exact put_bounded entries key _ bounded trivial
  · cases made
    exact put_bounded entries key _ bounded trivial
  · cases made

theorem entry_bounded (reader : Reader Value) (bounded : ReadsBounded reader) (cs rest : List Char) (path : List String)
    (last : String) (value : Value) (read : entry reader cs = some ((path, last, value), rest)) : value.Bounded := by
  obtain ⟨⟨⟨path, last⟩, after⟩, -, read⟩ := Option.bind_eq_some_iff.mp read
  dsimp only at read
  split at read
  · obtain ⟨⟨v, rest⟩, found, same⟩ := Option.bind_eq_some_iff.mp read
    cases same
    exact bounded _ v rest found
  · cases read

-- Each statement keeps the bound: a header only opens tables, and the value of an entry is bounded as it is read.
theorem statements_bounded (count : Nat) (under : Header) (root : TableForm × Entries) (cs : List Char) (entries : Entries)
    (read : statements count under root cs = some entries) (bounded : root.2.Bounded) : entries.Bounded := by
  induction count generalizing under root cs with
  | zero => cases read
  | succ count ih =>
      obtain ⟨line, -, read⟩ := Option.bind_eq_some_iff.mp read
      dsimp only at read
      split at read
      · cases read
        exact bounded
      · obtain ⟨⟨⟨path, last⟩, rest⟩, -, read⟩ := Option.bind_eq_some_iff.mp read
        obtain ⟨after, made, read⟩ := Option.bind_eq_some_iff.mp read
        exact ih _ after rest read
          (within_bounded .implied _ path (fun _ => open_next_bounded last) root after made bounded)
      · obtain ⟨⟨⟨path, last⟩, rest⟩, -, read⟩ := Option.bind_eq_some_iff.mp read
        obtain ⟨after, made, read⟩ := Option.bind_eq_some_iff.mp read
        exact ih _ after rest read
          (within_bounded .implied _ path (fun _ => open_table_bounded last) root after made bounded)
      · obtain ⟨⟨⟨path, last, v⟩, rest⟩, found, read⟩ := Option.bind_eq_some_iff.mp read
        obtain ⟨after, made, read⟩ := Option.bind_eq_some_iff.mp read
        obtain ⟨next, -, read⟩ := Option.bind_eq_some_iff.mp read
        have small := entry_bounded _ (value_bounded _) _ rest path last v found
        exact ih _ after next read
          (within_bounded .implied _ under (fun _ => add_dotted_bounded path last v small) root after made bounded)

theorem parse_bounded (document : String) (entries : Entries) (read : parse document = some entries) : entries.Bounded :=
  statements_bounded _ _ _ _ entries read nofun

theorem find_bounded (entries : Entries) (key : String) (value : Value) (found : entries.find? key = some value)
    (bounded : entries.Bounded) : value.Bounded := by
  obtain ⟨e, held, rfl⟩ := Option.map_eq_some_iff.mp found
  exact bounded e (List.mem_of_find?_eq_some held)

end Toml

namespace Config

def formatIn (table : Toml.Entries) : Option String :=
  match table.find? "time_format" with
  | none => some defaultTimeFormat
  | some (.string text) => some text
  | some _ => none

def autoStopIn (table : Toml.Entries) : Option Nat :=
  match table.find? "auto_stop_secs" with
  | none => some defaultAutoStop
  | some (.integer n) => if 0 ≤ n then some n.toNat else none
  | some _ => none

def storageDirIn (table : Toml.Entries) : Option (Option DirName) :=
  match table.find? "storage_dir" with
  | none => some none
  | some (.string text) => some (some (.text text))
  | some _ => none

theorem of_table_fields (table : Toml.Entries) :
    ofTable table = (formatIn table).bind fun timeFormat => (autoStopIn table).bind fun autoStop =>
      (storageDirIn table).map fun storageDir => ⟨timeFormat, autoStop, storageDir⟩ := by
  have format (rest : String → Option Config) : (formatIn table).bind rest =
      match table.find? "time_format" with
      | none => rest defaultTimeFormat
      | some (.string text) => rest text
      | some _ => none := by
    unfold formatIn
    split <;> rfl
  have stop (rest : Nat → Option Config) : (autoStopIn table).bind rest =
      match table.find? "auto_stop_secs" with
      | none => rest defaultAutoStop
      | some (.integer n) => if 0 ≤ n then rest n.toNat else none
      | some _ => none := by
    unfold autoStopIn
    split
    · rfl
    · split <;> rfl
    · rfl
  have dir (rest : Option DirName → Config) : (storageDirIn table).map rest =
      match table.find? "storage_dir" with
      | none => some (rest none)
      | some (.string text) => some (rest (some (.text text)))
      | some _ => none := by
    unfold storageDirIn
    split <;> rfl
  simp only [format, stop, dir]
  rfl

theorem auto_stop_bounded (table : Toml.Entries) (bounded : table.Bounded) (autoStop : Nat)
    (given : autoStopIn table = some autoStop) : autoStop ≤ 2 ^ 63 - 1 := by
  unfold autoStopIn at given
  split at given
  · cases given
    decide
  · rename_i n found
    have upper : n ≤ 9223372036854775807 := Toml.find_bounded table _ _ found bounded
    obtain ⟨-, same⟩ := Option.ite_none_right_eq_some.mp given
    cases same
    omega
  · cases given

theorem storage_dir_textual (table : Toml.Entries) (bytes : Bytes) : storageDirIn table ≠ some (some (.raw bytes)) := by
  intro given
  unfold storageDirIn at given
  split at given
  · cases given
  · cases given
  · cases given

theorem table_has_form (table : Toml.Entries) (config : Config) (bounded : table.Bounded)
    (made : ofTable table = some config) : config.hasForm = true := by
  rw [of_table_fields] at made
  obtain ⟨timeFormat, -, made⟩ := Option.bind_eq_some_iff.mp made
  obtain ⟨autoStop, stop, made⟩ := Option.bind_eq_some_iff.mp made
  obtain ⟨storageDir, dir, rfl⟩ := Option.map_eq_some_iff.mp made
  refine (has_form_iff _).mpr ⟨auto_stop_bounded table bounded autoStop stop, ?_⟩
  rintro bytes rfl
  exact storage_dir_textual table bytes dir

theorem loaded_has_form (file : Except FileError Bytes) (config : Config) (loaded : load file = .ok config) :
    config.hasForm = true := by
  unfold load at loaded
  split at loaded
  · cases loaded
  · split at loaded
    · rename_i text _
      unfold ofText at loaded
      cases given : (Toml.parse text).bind ofTable with
      | none =>
          rw [given] at loaded
          cases loaded
      | some made =>
          rw [given] at loaded
          cases loaded
          obtain ⟨table, parsed, made⟩ := Option.bind_eq_some_iff.mp given
          exact table_has_form table config (Toml.parse_bounded text table parsed) made
    · cases loaded

theorem load_gives_iff (config : Config) : (∃ file, load file = .ok config) ↔ config.hasForm = true := by
  constructor
  · rintro ⟨file, loaded⟩
    exact loaded_has_form file config loaded
  · intro hasForm
    exact ⟨.ok config.fileText.toUTF8.toList, by rw [load_text, config.text_read_back hasForm]⟩

theorem every_format_loads (file : Except FileError Bytes) (config : Config) (loaded : load file = .ok config)
    (format : String) : ∃ other, load other = .ok { config with timeFormat := format } := by
  have hasForm := (load_gives_iff config).mp ⟨file, loaded⟩
  exact (load_gives_iff _).mpr hasForm

end Config
end AlarmClock
