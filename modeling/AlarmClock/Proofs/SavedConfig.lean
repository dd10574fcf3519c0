import AlarmClock.Config
import AlarmClock.Proofs.Entries
import AlarmClock.Proofs.Regions

set_option autoImplicit false

namespace AlarmClock

theorem bytes_to_list_loop (bytes : ByteArray) (i : Nat) (seen : List UInt8) :
    ByteArray.toList.loop bytes i seen = seen.reverse ++ bytes.data.toList.drop i := by
  fun_induction ByteArray.toList.loop bytes i seen with
  | case1 i seen inside ih =>
      have bound : i < bytes.data.toList.length := by simpa using inside
      have same : bytes.get! i = bytes.data.toList[i] := by
        obtain ⟨data⟩ := bytes
        exact getElem!_pos data i inside
      rw [ih, List.drop_eq_getElem_cons bound, same, List.reverse_cons, List.append_assoc]
      rfl
  | case2 i seen outside =>
      rw [List.drop_eq_nil_of_le (by simpa using outside), List.append_nil]

theorem utf8_read_back (text : String) : String.fromUTF8? ⟨text.toUTF8.toList.toArray⟩ = some text := by
  have same : (⟨text.toUTF8.toList.toArray⟩ : ByteArray) = text.toUTF8 := by
    rw [ByteArray.toList, bytes_to_list_loop]
    simp
  rw [same]
  simp only [String.fromUTF8?, String.toUTF8_eq_toByteArray, dif_pos text.isValidUTF8]
  rfl

namespace Config

theorem has_form_iff (config : Config) :
    config.hasForm = true ↔ config.autoStop ≤ 2 ^ 63 - 1 ∧ ∀ bytes, config.storageDir ≠ some (.raw bytes) := by
  obtain ⟨timeFormat, autoStop, storageDir⟩ := config
  rcases storageDir with _ | path | bytes
  · simp [hasForm]
  · simp [hasForm]
  · simp [hasForm]

def texts (config : Config) : List String := config.timeFormat :: (config.storageDir.map DirName.shown).toList

open Toml

def firstLines (format : String) (n : Nat) (rest : List Char) : List Char :=
  line "time_format" (quoteChars format.toList) (line "auto_stop_secs" (Nat.toDigits 10 n) rest)

theorem time_format_bare : BareKey "time_format".toList := ⟨by decide, by decide⟩

theorem auto_stop_bare : BareKey "auto_stop_secs".toList := ⟨by decide, by decide⟩

theorem storage_dir_bare : BareKey "storage_dir".toList := ⟨by decide, by decide⟩

theorem first_lines_read (format : String) (n count : Nat) (rest : List Char) (bound : n ≤ 9223372036854775807) :
    statements (count + 2) [] (.headed, []) (firstLines format n rest) =
      statements count [] (.headed, [("time_format", .string format), ("auto_stop_secs", .integer n)]) rest := by
  rw [firstLines, statement_read (count + 1) [] "time_format" _ _ (.string format) time_format_bare
    (by rw [quoted_value, String.ofList_toList]) (quoted_solid _) rfl]
  exact statement_read count [("time_format", .string format)] "auto_stop_secs" _ rest (.integer n) auto_stop_bare
    (decimal_entry_value _ n rest bound) (decimal_solid n) (by simp [Entries.find?])

theorem first_lines_parsed (format : String) (n : Nat) (rest : List Char) (bound : n ≤ 9223372036854775807) :
    ∃ count, rest.length < count ∧ parse (String.ofList (firstLines format n rest)) =
      statements count [] (.headed, [("time_format", .string format), ("auto_stop_secs", .integer n)]) rest := by
  have unmarked : dropMark (firstLines format n rest) = firstLines format n rest := line_unmarked _ _ _ time_format_bare
  have second := line_longer "auto_stop_secs" (Nat.toDigits 10 n) rest
  have first := line_longer "time_format" (quoteChars format.toList) (line "auto_stop_secs" (Nat.toDigits 10 n) rest)
  obtain ⟨count, same⟩ : ∃ count, (firstLines format n rest).length + 1 = count + 2 := by
    rw [firstLines]
    exact ⟨_, (Nat.sub_add_cancel (by omega)).symm⟩
  refine ⟨count, ?_, ?_⟩
  · rw [firstLines] at same
    omega
  · rw [parse, String.toList_ofList, unmarked, same, first_lines_read format n count rest bound]

theorem two_lines_parsed (format : String) (n : Nat) (bound : n ≤ 9223372036854775807) :
    parse (String.ofList (firstLines format n [])) =
      some [("time_format", .string format), ("auto_stop_secs", .integer n)] := by
  obtain ⟨count, positive, parsed⟩ := first_lines_parsed format n [] bound
  obtain ⟨count, rfl⟩ := Nat.exists_eq_succ_of_ne_zero (Nat.ne_of_gt positive)
  rw [parsed]
  rfl

theorem three_lines_parsed (format path : String) (n : Nat) (bound : n ≤ 9223372036854775807) :
    parse (String.ofList (firstLines format n (line "storage_dir" (quoteChars path.toList) []))) =
      some [("time_format", .string format), ("auto_stop_secs", .integer n), ("storage_dir", .string path)] := by
  obtain ⟨count, enough, parsed⟩ := first_lines_parsed format n (line "storage_dir" (quoteChars path.toList) []) bound
  have filled := line_longer "storage_dir" (quoteChars path.toList) []
  obtain ⟨count, rfl⟩ : ∃ more, count = more + 2 := ⟨count - 2, by omega⟩
  rw [parsed, statement_read (count + 1) _ "storage_dir" _ [] (.string path) storage_dir_bare
    (by rw [quoted_value, String.ofList_toList]) (quoted_solid _) (by simp [Entries.find?])]
  rfl

theorem lines_text (format : String) (n : Nat) :
    "time_format = " ++ String.ofList (quoteChars format.toList) ++ "\n" ++ "auto_stop_secs = " ++ toString n ++ "\n" =
      String.ofList (firstLines format n []) := by
  have formatKey : "time_format = ".toList = "time_format".toList ++ [' ', '=', ' '] := by decide
  have stopKey : "auto_stop_secs = ".toList = "auto_stop_secs".toList ++ [' ', '=', ' '] := by decide
  have lineEnd : "\n".toList = ['\n'] := rfl
  rw [← String.toList_inj]
  simp only [String.toList_append, String.toList_ofList, firstLines, line, formatKey, stopKey, lineEnd, Nat.toString_eq_repr,
    Nat.toList_repr, List.append_assoc, List.cons_append, List.nil_append]

theorem text_with_dir (format path : String) (n : Nat) :
    String.ofList (firstLines format n []) ++ "storage_dir = " ++ String.ofList (quoteChars path.toList) ++ "\n" =
      String.ofList (firstLines format n (line "storage_dir" (quoteChars path.toList) [])) := by
  have pathKey : "storage_dir = ".toList = "storage_dir".toList ++ [' ', '=', ' '] := by decide
  have lineEnd : "\n".toList = ['\n'] := rfl
  rw [← String.toList_inj]
  simp only [String.toList_append, String.toList_ofList, firstLines, line, pathKey, lineEnd, List.append_assoc,
    List.cons_append, List.nil_append]

def lastLine (config : Config) : List Char :=
  match config.storageDir with
  | some dir => line "storage_dir" (quoteChars dir.shown.toList) []
  | none => []

def fileText (config : Config) : String := String.ofList (firstLines config.timeFormat config.autoStop config.lastLine)

theorem quote_short (text : String) (short : ¬ Overlong text) : quote? text = some (String.ofList (quoteChars text.toList)) :=
  (quote_some_iff text _).mpr ⟨short, rfl⟩

theorem quote_overlong (text : String) (long : Overlong text) : quote? text = none :=
  Option.eq_none_iff_forall_ne_some.mpr fun quoted same => ((quote_some_iff text quoted).mp same).1 long

theorem to_text_short (config : Config) (hasForm : config.hasForm = true) (short : ∀ text ∈ config.texts, ¬ Overlong text) :
    config.toText = .ok config.fileText := by
  obtain ⟨format, n, storageDir⟩ := config
  have formatShort := quote_short format (short format List.mem_cons_self)
  rw [toText, if_pos hasForm]
  cases storageDir with
  | none =>
      simp only [formatShort, Option.map_none, lines_text]
      rfl
  | some dir =>
      have dirShort := quote_short dir.shown (short dir.shown (List.mem_cons_of_mem _ List.mem_cons_self))
      simp only [formatShort, Option.map_some, dirShort, lines_text, text_with_dir]
      rfl

theorem to_text_overlong (config : Config) (hasForm : config.hasForm = true) (text : String) (held : text ∈ config.texts)
    (long : Overlong text) : config.toText = .error .quoteRun := by
  obtain ⟨format, n, storageDir⟩ := config
  have unquoted := quote_overlong text long
  rw [toText, if_pos hasForm]
  cases storageDir with
  | none =>
      obtain rfl : text = format := List.mem_singleton.mp held
      simp only [unquoted]
  | some dir =>
      simp only [texts, Option.map_some, Option.toList_some, List.mem_cons, List.not_mem_nil, or_false] at held
      rcases held with rfl | rfl
      · simp only [unquoted]
      · simp only [Option.map_some, unquoted]
        cases quote? format with
        | none => rfl
        | some _ => rfl

theorem text_read_back (config : Config) (hasForm : config.hasForm = true) : ofText config.fileText = .ok config := by
  obtain ⟨format, n, storageDir⟩ := config
  obtain ⟨bound, textual⟩ := (has_form_iff _).mp hasForm
  rcases storageDir with _ | path | bytes
  · have parsed := two_lines_parsed format n bound
    simp [ofText, fileText, lastLine, parsed, ofTable, Entries.find?]
  · have parsed := three_lines_parsed format path n bound
    simp [ofText, fileText, lastLine, DirName.shown, parsed, ofTable, Entries.find?]
  · exact absurd rfl (textual bytes)

end Config

def FileTree.CanWrite (tree : FileTree) (directory path : String) : Prop :=
  (tree.makeDirs directory).1 = .ok () ∧ ∃ written, (tree.makeDirs directory).2.write path [] = .ok written

namespace FileTree

theorem write_takes_any (tree : FileTree) (path : String) (first bytes : Bytes) (written : FileTree)
    (wrote : tree.write path first = .ok written) : ∃ other, tree.write path bytes = .ok other := by
  obtain ⟨place, leads, free, file, -⟩ := (tree.write_iff path first written).mp wrote
  exact ⟨_, (tree.write_iff path bytes _).mpr ⟨place, leads, free, file, rfl⟩⟩

theorem read_what_is_written (tree : FileTree) (path : String) (bytes : Bytes) (written : FileTree)
    (wrote : tree.write path bytes = .ok written) : written.read path = .ok bytes := by
  obtain ⟨place, leads, free, file, rfl⟩ := (tree.write_iff path bytes written).mp wrote
  have still := resolve_within tree _ (tree.put_within place (.file bytes) free) path place leads
  have found := tree.find?_put place (.file bytes) (tree.not_root place free)
  rw [read, (stat_file_iff _ path bytes).mpr ⟨place, still, found, file⟩]

end FileTree

namespace Config

theorem saved_text (config : Config) (directory path : String) (tree : FileTree) (text : String)
    (written : config.toText = .ok text) (room : tree.CanWrite directory path) :
    ∃ saved, config.save directory path tree = .ok (.ok (), saved) ∧ saved.read path = .ok text.toUTF8.toList := by
  obtain ⟨made, _, free⟩ := room
  generalize way : tree.makeDirs directory = after at made free
  obtain ⟨_, all⟩ := after
  obtain rfl := made
  obtain ⟨saved, wrote⟩ := all.write_takes_any path [] text.toUTF8.toList _ free
  refine ⟨saved, ?_, all.read_what_is_written path _ saved wrote⟩
  simp only [save, written, Except.map, way, wrote]

theorem load_text (text : String) : load (.ok text.toUTF8.toList) = ofText text := by
  simp only [load, utf8_read_back]

-- A configuration that has a form in a file is loaded again as it was saved, but for a string that has quotes 256 times
-- in a row: then it is not saved.
theorem saved_config_loads_iff (config : Config) (directory path : String) (tree : FileTree)
    (bound : config.autoStop ≤ 2 ^ 63 - 1) (textual : ∀ bytes, config.storageDir ≠ some (.raw bytes))
    (room : tree.CanWrite directory path) :
    (∃ saved, config.save directory path tree = .ok (.ok (), saved) ∧ load (saved.read path) = .ok config) ↔
      ∀ text ∈ config.texts, ¬ Toml.Overlong text := by
  have hasForm := config.has_form_iff.mpr ⟨bound, textual⟩
  constructor
  · rintro ⟨saved, saves, -⟩ text held long
    rw [save, config.to_text_overlong hasForm text held long] at saves
    cases saves
  · intro short
    obtain ⟨saved, saves, holds⟩ :=
      config.saved_text directory path tree _ (config.to_text_short hasForm short) room
    refine ⟨saved, saves, ?_⟩
    rw [holds, load_text, config.text_read_back hasForm]

theorem quoted_breaks_are_loaded :
    let config : Config := ⟨"\n'%H'\\\"%M\"\u0007", 9223372036854775807, some (.text "/srv/'alarms'")⟩
    (∀ bytes, config.storageDir ≠ some (.raw bytes)) ∧ FileTree.empty.CanWrite "/etc/alarm" "/etc/alarm/config.toml" ∧
      ∃ saved, config.save "/etc/alarm" "/etc/alarm/config.toml" .empty = .ok (.ok (), saved) ∧
        load (saved.read "/etc/alarm/config.toml") = .ok config := by
  have textual : ∀ bytes, some (DirName.text "/srv/'alarms'") ≠ some (.raw bytes) := nofun
  have room : FileTree.empty.CanWrite "/etc/alarm" "/etc/alarm/config.toml" := ⟨by decide, _, rfl⟩
  refine ⟨textual, room, (saved_config_loads_iff _ _ _ _ (by decide) textual room).mpr ?_⟩
  decide

theorem quotes_in_a_row_are_not_saved :
    let config : Config := ⟨String.ofList (List.replicate 256 '"'), 60, none⟩
    config.autoStop ≤ 2 ^ 63 - 1 ∧ config.storageDir = none ∧
      FileTree.empty.CanWrite "/etc/alarm" "/etc/alarm/config.toml" ∧
      config.save "/etc/alarm" "/etc/alarm/config.toml" .empty = .error .quoteRun := by
  have long : Toml.Overlong (String.ofList (List.replicate 256 '"')) :=
    ⟨'"', List.mem_cons_self, by rw [String.toList_ofList]; exact List.infix_rfl⟩
  generalize String.ofList (List.replicate 256 '"') = text at long
  have unwritten := to_text_overlong ⟨text, 60, none⟩ rfl text List.mem_cons_self long
  refine ⟨(by decide : 60 ≤ 2 ^ 63 - 1), rfl, ⟨by decide, _, rfl⟩, ?_⟩
  rw [save, unwritten]
  rfl

end Config
end AlarmClock
