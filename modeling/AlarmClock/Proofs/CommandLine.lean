import AlarmClock.Machine
import AlarmClock.Proofs.Errands
import AlarmClock.Proofs.Regions

set_option autoImplicit false

namespace AlarmClock

namespace DirStorage

def writeAll (storage : DirStorage) (tree : FileTree) (writes : List Bytes) : FileTree :=
  writes.foldl (fun tree bytes => (storage.write Record.region bytes tree).2) tree

theorem absorbs_writes (storage : DirStorage) (effects : List Effect) (tree : FileTree) :
    effects.foldl storage.absorb tree = storage.writeAll tree (effects.filterMap Effect.written?) := by
  induction effects generalizing tree with
  | nil => rfl
  | cons effect later ih =>
      rw [List.foldl_cons, ih]
      cases effect with
      | write bytes => rfl
      | arm span | disarm | wake slot | log notice => rfl

end DirStorage

namespace Machine

def opened (m : Machine) : FileTree := (m.tree.makeDirs m.dirs.logPath).2

def finds (m : Machine) (config : Config) : Except FileError (Option Bytes) :=
  (m.storage config).read Record.region m.opened

-- Processes can open their log, are configured, and can write the alarms.
structure Serves (m : Machine) (config : Config) : Prop where
  logs : (m.tree.makeDirs m.dirs.logPath).1 = .ok ()
  configured : Config.loadOrDefault { m with tree := m.opened }.configFile = .ok config
  writes : ((m.storage config).write Record.region [] m.opened).1 = .ok ()

theorem log_made (m : Machine) (logs : (m.tree.makeDirs m.dirs.logPath).1 = .ok ()) : m.opened.Made m.dirs.logPath :=
  m.tree.dirs_made m.dirs.logPath logs

theorem plain_names : PathText.Plain BaseDirs.projectName ∧ PathText.Plain "log" ∧ PathText.Plain BaseDirs.configName ∧
    PathText.Plain Record.region ∧ PathText.Plain (Record.region ++ ".partial") := by
  have beside : Record.region ++ ".partial" = "alarms.dat.partial" := rfl
  rw [beside]
  simp [PathText.plain_iff, PathText.isSlash, BaseDirs.projectName, BaseDirs.configName, Record.region]

theorem data_made (dirs : BaseDirs) (tree : FileTree) (made : tree.Made dirs.logPath) : tree.Made dirs.dataPath := by
  obtain ⟨project, log, -⟩ := plain_names
  have last := PathText.names_join (dirs.baseDir dirs.dataHome ".local/share") BaseDirs.projectName project
  apply tree.made_above dirs.dataPath "log" log _ made
  rw [BaseDirs.dataPath, last, List.getLast?_concat]
  exact fun self => project.notSelf (Option.some.inj self)

theorem config_file_seen (m : Machine) :
    m.configFile = (m.tree.stat m.dirs.configPath).toOption.map fun node =>
      match node with
      | .file bytes => .ok bytes
      | .directory => .error .isADirectory := by
  unfold configFile FileTree.isPresent FileTree.read
  cases m.tree.stat m.dirs.configPath with
  | error cause => rfl
  | ok node =>
      cases node with
      | file bytes => rfl
      | directory => rfl

theorem config_kept (m : Machine) (config : Config) (serves : m.Serves config) (bytes : Bytes) :
    { m with tree := ((m.storage config).write Record.region bytes m.opened).2 }.configFile =
      { m with tree := m.opened }.configFile := by
  obtain ⟨-, -, name, region, beside⟩ := plain_names
  have notRegion : BaseDirs.configName ≠ Record.region := by decide
  have notBeside : BaseDirs.configName ≠ Record.region ++ ".partial" := by decide
  have kept := DirStorage.write_keeps_others serves.writes region beside m.dirs.configDir BaseDirs.configName name
    notRegion notBeside bytes
  have absent : ∀ cause, m.opened.stat m.dirs.configPath = .error cause → config = .default := fun cause seen => by
    have configured := serves.configured
    rw [config_file_seen] at configured
    change Config.loadOrDefault ((m.opened.stat m.dirs.configPath).toOption.map _) = .ok config at configured
    rw [seen] at configured
    exact (Except.ok.inj configured).symm
  rw [config_file_seen, config_file_seen]
  apply congrArg (Option.map _)
  change (((m.storage config).write Record.region bytes m.opened).2.stat m.dirs.configPath).toOption =
    (m.opened.stat m.dirs.configPath).toOption
  cases seen : m.opened.stat m.dirs.configPath with
  | ok node => exact congrArg Except.toOption (kept node seen)
  | error cause =>
      -- without a configuration the alarms are in the data directory, which was made for the log
      obtain rfl := absent cause seen
      have made : m.opened.Made (m.storage .default).directory := data_made m.dirs m.opened (m.log_made serves.logs)
      cases later : ((m.storage .default).write Record.region bytes m.opened).2.stat m.dirs.configPath with
      | error other => rfl
      | ok node =>
          have before := DirStorage.write_adds_no_other serves.writes region beside m.dirs.configDir
            BaseDirs.configName name notRegion notBeside made bytes node later
          cases before.symm.trans seen

theorem serves_later (m : Machine) (config : Config) (tree : FileTree) (made : tree.Made m.dirs.logPath)
    (configured : Config.loadOrDefault { m with tree := tree }.configFile = .ok config)
    (writes : ((m.storage config).write Record.region [] tree).1 = .ok ()) :
    { m with tree := tree }.opened = tree ∧ { m with tree := tree }.Serves config := by
  have nothing := tree.made_makes_nothing m.dirs.logPath made
  have same : { m with tree := tree }.opened = tree := congrArg Prod.snd nothing
  refine ⟨same, congrArg Prod.fst nothing, ?_, ?_⟩
  · rw [same]
    exact configured
  · rw [same]
    exact writes

theorem serves_written (m : Machine) (config : Config) (serves : m.Serves config) (bytes : Bytes) :
    let after := ((m.storage config).write Record.region bytes m.opened).2
    { m with tree := after }.opened = after ∧ { m with tree := after }.Serves config := by
  intro after
  have within := DirStorage.write_within serves.writes bytes
  apply m.serves_later config after (m.opened.made_within after within _ (m.log_made serves.logs))
  · exact (congrArg Config.loadOrDefault (m.config_kept config serves bytes)).trans serves.configured
  · exact DirStorage.write_works_again serves.writes bytes []

theorem serves_writes (m : Machine) (config : Config) (serves : m.Serves config) (saved : Option Bytes)
    (readable : m.finds config = .ok saved) (writes : List Bytes) :
    let later : Machine := { m with tree := (m.storage config).writeAll m.opened writes }
    later.Serves config ∧ later.finds config = .ok (writes.getLast?.or saved) := by
  induction writes generalizing m saved with
  | nil =>
      obtain ⟨same, still⟩ := m.serves_later config m.opened (m.log_made serves.logs) serves.configured serves.writes
      refine ⟨still, ?_⟩
      unfold finds
      rw [DirStorage.writeAll, List.foldl_nil, same]
      exact readable
  | cons bytes later ih =>
      obtain ⟨same, still⟩ := m.serves_written config serves bytes
      have found : { m with tree := ((m.storage config).write Record.region bytes m.opened).2 }.finds config =
          .ok (some bytes) := by
        unfold finds
        rw [same]
        exact DirStorage.read_written serves.writes bytes
      have rest := ih _ still (some bytes) found
      rw [same] at rest
      rw [List.getLast?_cons, Option.some_or, ← Option.or_some]
      exact rest

end Machine

namespace Errand

def applied (slots : Slots) (errand : Errand) : Slots :=
  match errand.slot? with
  | some slot => if inside : slot < slotCount then slots.set slot (errand.revise slots[slot]) else slots
  | none => slots

theorem applied_other (slots : Slots) (errand : Errand) (slot : Nat) (inside : slot < slotCount)
    (other : errand.slot? ≠ some slot) : (errand.applied slots)[slot] = slots[slot] := by
  unfold applied
  cases edits : errand.slot? with
  | none => rfl
  | some edited =>
      dsimp only
      by_cases editedInside : edited < slotCount
      · rw [dif_pos editedInside]
        exact Vector.getElem_set_ne editedInside inside fun same => other (same ▸ edits)
      · rw [dif_neg editedInside]

theorem perform_missing (config : Config) (around : Surroundings) (errand : Errand) (slot : Nat)
    (edits : errand.slot? = some slot) (outside : slotCount ≤ slot) :
    errand.perform config around = ⟨[], [], .noSuchSlot slot⟩ := by
  have missing : errand.missingSlot? = some slot := by
    rw [missingSlot?, edits, Option.filter_some, decide_eq_true outside, if_pos rfl]
  rw [perform, missing]

theorem perform_edits (config : Config) (around : Surroundings) (errand : Errand) (slot : Nat)
    (edits : errand.slot? = some slot) (inside : slot < slotCount) (done : (errand.session around).result = .ok ()) :
    (errand.perform config around).ending = .success ∧
      (errand.perform config around).effects = (errand.session around).effects := by
  have present : errand.missingSlot? = none := by
    rw [missingSlot?, edits, Option.filter_some, decide_eq_false (Nat.not_le.mpr inside)]
    rfl
  simp only [perform, present, done]
  cases errand with
  | list | next => cases edits
  | set slot hour minute days | enable slot | disable slot => exact ⟨rfl, rfl⟩

end Errand

-- An edit as it is spelled on the command line: `set i HH:MM`, with `--days d` or not, `enable i` or `disable i`.
inductive Order where
  | set (slot : Nat) (hour minute : Fin 100) (days : Option String)
  | enable (slot : Nat)
  | disable (slot : Nat)
deriving DecidableEq, Repr

namespace Order

def words : Order → List String
  | .set slot hour minute none => ["set", toString slot, Command.timeText hour minute]
  | .set slot hour minute (some days) => ["set", toString slot, Command.timeText hour minute, "--days", days]
  | .enable slot => ["enable", toString slot]
  | .disable slot => ["disable", toString slot]

def slot : Order → Nat
  | .set slot _ _ _ | .enable slot | .disable slot => slot

-- None if the number is too large, or if the time or the days do not exist.
def errand? : Order → Option Errand
  | .set slot hour minute days =>
      if slot < UInt64.size ∧ hour.val ≤ 23 ∧ minute.val ≤ 59 then
        match days with
        | none => some (.set slot hour.val.toUInt8 minute.val.toUInt8 none)
        | some text =>
            (Days.parse text).toOption.map fun days => .set slot hour.val.toUInt8 minute.val.toUInt8 (some days)
      else none
  | .enable slot => if slot < UInt64.size then some (.enable slot) else none
  | .disable slot => if slot < UInt64.size then some (.disable slot) else none

theorem parse_words (order : Order) :
    Command.parse order.words =
      match order.errand? with
      | some errand => .ok (.errand errand)
      | none => .error .misuse := by
  cases order with
  | enable slot =>
      rw [words, Command.parse_enable, errand?]
      by_cases known : slot < UInt64.size
      · simp only [if_pos known]
      · simp only [if_neg known]
  | disable slot =>
      rw [words, Command.parse_disable, errand?]
      by_cases known : slot < UInt64.size
      · simp only [if_pos known]
      · simp only [if_neg known]
  | set slot hour minute days =>
      by_cases real : slot < UInt64.size ∧ hour.val ≤ 23 ∧ minute.val ≤ 59
      · cases days with
        | none =>
            rw [words, Command.parse_set slot hour minute hour.isLt minute.isLt]
            simp only [errand?, if_pos real]
        | some text =>
            rw [words, Command.parse_set_days slot hour minute hour.isLt minute.isLt]
            simp only [errand?, if_pos real]
            cases Days.parse text with
            | ok days => rfl
            | error fault => rfl
      · cases days with
        | none =>
            rw [words, Command.parse_set slot hour minute hour.isLt minute.isLt]
            simp only [errand?, if_neg real]
        | some text =>
            rw [words, Command.parse_set_days slot hour minute hour.isLt minute.isLt]
            simp only [errand?, if_neg real]

theorem errand_slot (order : Order) (errand : Errand) (asked : order.errand? = some errand) :
    errand.slot? = some order.slot := by
  unfold errand? at asked
  split at asked
  · obtain ⟨-, asked⟩ := Option.ite_none_right_eq_some.mp asked
    split at asked
    · obtain rfl := Option.some.inj asked
      rfl
    · obtain ⟨days, -, rfl⟩ := Option.map_eq_some_iff.mp asked
      rfl
  · obtain ⟨-, asked⟩ := Option.ite_none_right_eq_some.mp asked
    obtain rfl := Option.some.inj asked
    rfl
  · obtain ⟨-, asked⟩ := Option.ite_none_right_eq_some.mp asked
    obtain rfl := Option.some.inj asked
    rfl

end Order

structure Editor where
  args : List String
  clock : WallClock
  audience : Audience
  shows : clock.Shows
  edits : ∀ command, Command.parse args = .ok command →
    ∃ errand slot, command = .errand errand ∧ errand.slot? = some slot

namespace Editor

def errand? (e : Editor) : Option Errand :=
  match Command.parse e.args with
  | .ok (.errand errand) => some errand
  | _ => none

def slot? (e : Editor) : Option Nat := e.errand?.bind Errand.slot?

def applied (slots : Slots) (e : Editor) : Slots := (e.errand?.map (Errand.applied slots)).getD slots

theorem asked (e : Editor) :
    (∃ refusal, Command.parse e.args = .error refusal ∧ e.errand? = none) ∨
      ∃ errand slot, Command.parse e.args = .ok (.errand errand) ∧ e.errand? = some errand ∧
        errand.slot? = some slot := by
  cases read : Command.parse e.args with
  | error refusal =>
      refine .inl ⟨refusal, rfl, ?_⟩
      rw [errand?, read]
  | ok command =>
      obtain ⟨errand, slot, rfl, edits⟩ := e.edits command read
      refine .inr ⟨errand, slot, rfl, ?_, edits⟩
      rw [errand?, read]

theorem applied_other (slots : Slots) (e : Editor) (slot : Nat) (inside : slot < slotCount)
    (other : e.slot? ≠ some slot) : (e.applied slots)[slot] = slots[slot] := by
  unfold applied
  unfold slot? at other
  generalize e.errand? = asked at other ⊢
  cases asked with
  | none => rfl
  | some errand => exact errand.applied_other slots slot inside other

theorem all_applied_other (editors : List Editor) (slots : Slots) (slot : Nat) (inside : slot < slotCount)
    (other : ∀ e ∈ editors, e.slot? ≠ some slot) : (editors.foldl applied slots)[slot] = slots[slot] := by
  induction editors generalizing slots with
  | nil => rfl
  | cons e later ih =>
      obtain ⟨first, rest⟩ := List.forall_mem_cons.mp other
      rw [List.foldl_cons, ih (e.applied slots) rest]
      exact applied_other slots e slot inside first

end Editor

def Order.editor (order : Order) (clock : WallClock) (audience : Audience) (shows : clock.Shows) : Editor where
  args := order.words
  clock := clock
  audience := audience
  shows := shows
  edits := fun command read => by
    rw [order.parse_words] at read
    cases asked : order.errand? with
    | none => simp [asked] at read
    | some errand =>
        rw [asked] at read
        exact ⟨errand, order.slot, (Except.ok.inj read).symm, order.errand_slot errand asked⟩

namespace Machine

def runs (m : Machine) (e : Editor) : Run := { m with clock := e.clock }.run e.audience e.args

def after (m : Machine) (e : Editor) : Machine := { m with tree := (m.runs e).tree }

def afterAll (m : Machine) (editors : List Editor) : Machine := editors.foldl after m

theorem with_config (m : Machine) (config : Config) (f : Config → Run)
    (configured : Config.loadOrDefault m.configFile = .ok config) : m.withConfig f = f config := by
  unfold withConfig
  generalize Config.loadOrDefault m.configFile = found at configured ⊢
  obtain rfl := configured
  rfl

theorem obey_errand (m : Machine) (config : Config) (configured : Config.loadOrDefault m.configFile = .ok config)
    (shows : m.clock.Shows) (audience : Audience) (args : List String) (errand : Errand)
    (asked : Command.parse args = .ok (.errand errand)) :
    let report := errand.perform config ((m.storage config).surroundings m.tree m.clock.reading none)
    m.obey audience args = ended report.lines report.ending (report.effects.foldl (m.storage config).absorb m.tree) := by
  rw [obey, asked]
  refine (m.with_config config _ configured).trans (if_pos ?_)
  rw [Bool.or_eq_true]
  exact .inr (decide_eq_true shows)

theorem refuse_ends (m : Machine) (refusal : Refusal) :
    (m.refuse refusal).ending = some (if refusal = .misuse then .misuse else .success) ∧
      (m.refuse refusal).tree = m.tree := by
  cases refusal with
  | help | version | misuse => exact ⟨rfl, rfl⟩

section Runs

variable (m : Machine) (config : Config) (serves : m.Serves config) (e : Editor)
include serves

theorem runs_opened : m.runs e = { m with tree := m.opened, clock := e.clock }.obey e.audience e.args := by
  have logs := serves.logs
  unfold runs run opened
  dsimp only
  generalize m.tree.makeDirs m.dirs.logPath = way at logs ⊢
  obtain ⟨result, tree⟩ := way
  obtain rfl := logs
  exact if_pos e.shows.1

theorem runs_refused (refusal : Refusal) (refused : Command.parse e.args = .error refusal) :
    (m.runs e).ending = some (if refusal = .misuse then .misuse else .success) ∧ (m.runs e).tree = m.opened := by
  rw [m.runs_opened config serves e, obey, refused]
  exact refuse_ends _ refusal

theorem runs_errand (errand : Errand) (asked : Command.parse e.args = .ok (.errand errand)) :
    let report := errand.perform config ((m.storage config).surroundings m.opened e.clock.reading none)
    (m.runs e).ending = some report.ending ∧
      (m.runs e).tree = report.effects.foldl (m.storage config).absorb m.opened := by
  intro report
  have performs := obey_errand { m with tree := m.opened, clock := e.clock } config serves.configured e.shows e.audience
    e.args errand asked
  rw [← m.runs_opened config serves e] at performs
  exact ⟨congrArg Run.ending performs, congrArg Run.tree performs⟩

theorem runs_missing (errand : Errand) (slot : Nat) (asked : Command.parse e.args = .ok (.errand errand))
    (edits : errand.slot? = some slot) (outside : slotCount ≤ slot) :
    (m.runs e).ending = some (.noSuchSlot slot) ∧ (m.runs e).tree = m.opened := by
  obtain ⟨ending, tree⟩ := m.runs_errand config serves e errand asked
  rw [errand.perform_missing config _ slot edits outside] at ending tree
  exact ⟨ending, tree⟩

theorem runs_edit (saved : Option Bytes) (readable : m.finds config = .ok saved)
    (errand : Errand) (slot : Nat) (asked : Command.parse e.args = .ok (.errand errand))
    (edits : errand.slot? = some slot) (inside : slot < slotCount) :
    (m.runs e).ending = some .success ∧
      (m.runs e).tree = (m.storage config).writeAll m.opened
        (Record.rewrite (Record.loaded saved) slot inside (errand.revise (Record.loaded saved)[slot])) := by
  obtain ⟨ending, tree⟩ := m.runs_errand config serves e errand asked
  have wellFormed := Command.parse_well_formed e.args errand asked
  have saves : ((m.storage config).surroundings m.opened e.clock.reading none).writeFailure = none := by
    simp only [DirStorage.surroundings, serves.writes]
  generalize surround : (m.storage config).surroundings m.opened e.clock.reading none = around at ending tree saves
  have arms : around.armFailure = none := by rw [← surround]; rfl
  have read : around.saved = .ok saved := by rw [← surround]; exact readable
  have done := errand.session_done around arms saves saved read slot edits inside wellFormed
  have writes := errand.session_writes around arms saved read slot edits inside wellFormed
  obtain ⟨success, effects⟩ := errand.perform_edits config around slot edits inside done
  rw [success] at ending
  rw [effects, DirStorage.absorbs_writes, ← Outcome.writes, writes] at tree
  exact ⟨ending, tree⟩

theorem runs_writes (saved : Option Bytes) (readable : m.finds config = .ok saved) :
    ∃ writes, (m.runs e).tree = (m.storage config).writeAll m.opened writes ∧
      Record.loaded (writes.getLast?.or saved) = e.applied (Record.loaded saved) := by
  rcases e.asked with ⟨refusal, refused, nothing⟩ | ⟨errand, slot, asked, known, edits⟩
  · refine ⟨[], (m.runs_refused config serves e refusal refused).2, ?_⟩
    rw [Editor.applied, nothing]
    rfl
  · rw [Editor.applied, known]
    by_cases inside : slot < slotCount
    · obtain ⟨-, tree⟩ := m.runs_edit config serves e saved readable errand slot asked edits inside
      have wellFormed := Command.parse_well_formed e.args errand asked
      refine ⟨_, tree, ?_⟩
      have valid := errand.revise_valid _ wellFormed (Record.loaded_valid saved slot inside)
      rw [Record.loaded_rewrite saved slot inside _ valid]
      simp only [Option.map_some, Option.getD_some, Errand.applied, edits, dif_pos inside]
    · obtain ⟨-, tree⟩ := m.runs_missing config serves e errand slot asked edits (Nat.not_lt.mp inside)
      refine ⟨[], tree, ?_⟩
      simp only [Option.map_some, Option.getD_some, Errand.applied, edits, dif_neg inside]
      rfl

theorem after_applied (saved : Option Bytes) (readable : m.finds config = .ok saved) :
    (m.after e).Serves config ∧
      ∃ last, (m.after e).finds config = .ok last ∧
        Record.loaded last = e.applied (Record.loaded saved) := by
  obtain ⟨writes, tree, applied⟩ := m.runs_writes config serves e saved readable
  obtain ⟨still, found⟩ := m.serves_writes config serves saved readable writes
  rw [after, tree]
  exact ⟨still, _, found, applied⟩

end Runs

theorem all_applied (m : Machine) (config : Config) (serves : m.Serves config) (saved : Option Bytes)
    (readable : m.finds config = .ok saved) (editors : List Editor) :
    (m.afterAll editors).Serves config ∧
      ∃ last, (m.afterAll editors).finds config = .ok last ∧
        Record.loaded last = editors.foldl Editor.applied (Record.loaded saved) := by
  induction editors generalizing m saved with
  | nil => exact ⟨serves, saved, readable, rfl⟩
  | cons e later ih =>
      obtain ⟨still, next, read, applied⟩ := m.after_applied config serves e saved readable
      rw [List.foldl_cons, ← applied]
      exact ih (m.after e) still next read

-- The edits of a sequence of commands are made in order, and no others. A command for a slot that is missing fails and
-- changes no file. What the words of a command ask for is said without their reader.
theorem commands_edit_in_order (m : Machine) (config : Config) (serves : m.Serves config) (saved : Option Bytes)
    (readable : m.finds config = .ok saved) (editors : List Editor) :
    let final := m.afterAll editors
    let edited := editors.foldl Editor.applied (Record.loaded saved)
    (∀ (c : Controller) (clock : Clock) (armFailure : Option Failure),
      (c.load ((final.storage config).surroundings final.opened clock armFailure)).controller.alarms = ⟨edited, false⟩) ∧
    (∀ slot (inside : slot < slotCount), (∀ e ∈ editors, e.slot? ≠ some slot) →
      edited[slot] = (Record.loaded saved)[slot]) ∧
    (∀ e : Editor,
      (∀ slot, e.slot? = some slot →
        (final.runs e).ending = some (if slot < slotCount then .success else .noSuchSlot slot)) ∧
      (Command.parse e.args = .error .misuse → (final.runs e).ending = some .misuse) ∧
      ((∀ slot, e.slot? = some slot → slotCount ≤ slot) → (final.runs e).tree = final.opened)) ∧
    ∀ order : Order,
      Command.parse order.words =
        match order.errand? with
        | some errand => .ok (.errand errand)
        | none => .error .misuse := by
  intro final edited
  obtain ⟨still, last, read, applied⟩ := m.all_applied config serves saved readable editors
  refine ⟨fun c clock armFailure => ?_, ?_, fun e => ⟨fun slot named => ?_, fun misused => ?_, fun outside => ?_⟩,
    Order.parse_words⟩
  · rw [c.load_alarms _ last read, applied]
  · exact fun slot inside => Editor.all_applied_other editors (Record.loaded saved) slot inside
  · rcases e.asked with ⟨refusal, -, nothing⟩ | ⟨errand, own, asked, known, edits⟩
    · rw [Editor.slot?, nothing] at named
      cases named
    · rw [Editor.slot?, known, Option.bind_some, edits] at named
      obtain rfl := Option.some.inj named
      by_cases inside : own < slotCount
      · rw [if_pos inside]
        exact (final.runs_edit config still e last read errand own asked edits inside).1
      · rw [if_neg inside]
        exact (final.runs_missing config still e errand own asked edits (Nat.not_lt.mp inside)).1
  · exact (final.runs_refused config still e .misuse misused).1
  · rcases e.asked with ⟨refusal, refused, -⟩ | ⟨errand, own, asked, known, edits⟩
    · exact (final.runs_refused config still e refusal refused).2
    · have missing := outside own (by rw [Editor.slot?, known, Option.bind_some, edits])
      exact (final.runs_missing config still e errand own asked edits missing).2

end Machine

namespace Machine

def eightOnTuesday : WallClock := .manual ⟨⟨2024, 1, 2⟩, 8, 0, 0, 0⟩ 0

def earlyBytes : Bytes :=
  Record.encode #v[⟨5, 45, Days.once, true⟩, Alarm.default, Alarm.default, Alarm.default] ++ [255]

def homeMachine : Machine :=
  ⟨(FileTree.empty.plant "/home/user/.local/share/wrist_alarm/alarms.dat" earlyBytes).2,
    ⟨"/home/user", "/home/user", none, none⟩, eightOnTuesday⟩

def homeOrders : List Order :=
  [.enable 0, .set 1 6 30 (some "Mo"), .enable 7, .set 1 18 0 none, .disable 0]

def atEight (order : Order) : Editor := order.editor eightOnTuesday .silent (by decide +kernel)

def eveningSlots : Slots := #v[⟨5, 45, Days.once, false⟩, ⟨18, 0, ⟨2⟩, true⟩, Alarm.default, Alarm.default]

-- The second time for slot 1 leaves it the days of the first.
theorem evening_keeps_mondays :
    let final := homeMachine.afterAll (homeOrders.map atEight)
    homeMachine.Serves .default ∧
      homeMachine.finds .default = .ok (some earlyBytes) ∧
      (∀ (c : Controller) (clock : Clock) (armFailure : Option Failure),
        (c.load ((final.storage .default).surroundings final.opened clock armFailure)).controller.alarms =
          ⟨eveningSlots, false⟩) ∧
      (final.runs (atEight (.enable 7))).ending = some (.noSuchSlot 7) := by
  intro final
  have serves : homeMachine.Serves .default := ⟨rfl, by decide +kernel, by decide +kernel⟩
  have readable : homeMachine.finds .default = .ok (some earlyBytes) := rfl
  obtain ⟨loads, -, endings, -⟩ := homeMachine.commands_edit_in_order .default serves (some earlyBytes) readable
    (homeOrders.map atEight)
  have edited : (homeOrders.map atEight).foldl Editor.applied (Record.loaded (some earlyBytes)) = eveningSlots := by
    decide +kernel
  refine ⟨serves, readable, fun c clock armFailure => ?_, (endings (atEight (.enable 7))).1 7 (by decide +kernel)⟩
  rw [loads c clock armFailure, edited]

end Machine
end AlarmClock
