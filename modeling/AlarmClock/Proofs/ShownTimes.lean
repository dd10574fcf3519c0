import AlarmClock.Proofs.LoadedConfig
import AlarmClock.Proofs.Watch

set_option autoImplicit false

namespace AlarmClock

namespace TimeFormat

def signs : List Char := ['%', 'n', 't', 'p', 'P', 'R', 'T', 'X', 'r']

def numbers : List Char := ['H', 'k', 'I', 'l', 'M', 'S', 'f']

inductive Specifier : List Char → Prop where
  | sign (c : Char) (known : c ∈ signs) : Specifier [c]
  | number (c : Char) (known : c ∈ numbers) : Specifier [c]
  | padded (pad c : Char) (padding : pad ∈ ['-', '0', '_']) (known : c ∈ numbers) : Specifier [pad, c]
  | fraction (n : Char) (digits : n ∈ ['3', '6', '9']) : Specifier [n, 'f']
  | dottedFraction (n : Char) (digits : n ∈ ['3', '6', '9']) : Specifier ['.', n, 'f']
  | shortFraction : Specifier ['.', 'f']

inductive Usable : List Char → Prop where
  | nil : Usable []
  | plain (c : Char) (rest : List Char) (unmarked : c ≠ '%') (usable : Usable rest) : Usable (c :: rest)
  | specifier (text rest : List Char) (known : Specifier text) (usable : Usable rest) : Usable ('%' :: text ++ rest)

theorem number_known_iff (c : Char) : (number? c).isSome = true ↔ c ∈ numbers := by
  fun_cases number? c with
  | case8 =>
      simp only [Option.isSome_none, Bool.false_eq_true, false_iff, numbers, List.mem_cons, List.not_mem_nil, or_false]
      tauto
  | _ => decide

theorem specifier_known_iff (c : Char) : (specifier? c).isSome = true ↔ c ∈ signs ∨ c ∈ numbers := by
  fun_cases specifier? c with
  | case10 =>
      have noSign : c ∉ signs := by
        simp only [signs, List.mem_cons, List.not_mem_nil, or_false]
        tauto
      rw [Option.isSome_map, number_known_iff]
      exact (or_iff_right noSign).symm
  | _ => decide

theorem padded_known_iff (pad : Pad) (c : Char) : (padded? pad c).isSome = true ↔ c ∈ numbers := by
  rw [padded?, Option.isSome_map, number_known_iff]

theorem followed_known_iff (first rest : Option (List Item)) :
    (do some ((← first) ++ (← rest))).isSome = true ↔ first.isSome = true ∧ rest.isSome = true := by
  cases first with
  | none => simp
  | some items =>
      cases rest with
      | none => simp
      | some more => simp

theorem ahead_known_iff (item : Item) (rest : Option (List Item)) :
    (do some (item :: (← rest))).isSome = true ↔ rest.isSome = true := by
  cases rest with
  | none => simp
  | some more => simp

theorem single_read (c : Char) (rest : List Char) (known : c ∈ signs ∨ c ∈ numbers) :
    (items? ('%' :: c :: rest)).isSome = true ↔ (items? rest).isSome = true := by
  have all : (signs ++ numbers).all (fun c => c ∉ ['-', '0', '_', '.', '3', '6', '9']) = true := by decide
  have alone := of_decide_eq_true (List.all_eq_true.mp all c (List.mem_append.mpr known))
  simp only [List.mem_cons, List.not_mem_nil, or_false, not_or] at alone
  have read : items? ('%' :: c :: rest) = (do some ((← specifier? c) ++ (← items? rest))) := by
    rw [items?]
    all_goals simp [alone]
  rw [read, followed_known_iff]
  exact and_iff_right ((specifier_known_iff c).mpr known)

theorem items_plain (c : Char) (rest : List Char) (unmarked : c ≠ '%') :
    items? (c :: rest) = (do some (.literal c.toString :: (← items? rest))) := by
  rw [items?]
  all_goals simp [unmarked]

theorem items_usable (cs : List Char) (known : (items? cs).isSome = true) : Usable cs := by
  fun_induction items? cs with
  | case1 => exact .nil
  | case2 c rest ih =>
      obtain ⟨number, later⟩ := (followed_known_iff _ _).mp known
      exact .specifier ['-', c] rest (.padded '-' c (by decide) ((padded_known_iff _ c).mp number)) (ih later)
  | case3 c rest ih =>
      obtain ⟨number, later⟩ := (followed_known_iff _ _).mp known
      exact .specifier ['0', c] rest (.padded '0' c (by decide) ((padded_known_iff _ c).mp number)) (ih later)
  | case4 c rest ih =>
      obtain ⟨number, later⟩ := (followed_known_iff _ _).mp known
      exact .specifier ['_', c] rest (.padded '_' c (by decide) ((padded_known_iff _ c).mp number)) (ih later)
  | case5 rest ih =>
      exact .specifier ['.', 'f'] rest .shortFraction (ih ((ahead_known_iff _ _).mp known))
  | case6 rest ih =>
      exact .specifier ['.', '3', 'f'] rest (.dottedFraction '3' (by decide)) (ih ((ahead_known_iff _ _).mp known))
  | case7 rest ih =>
      exact .specifier ['.', '6', 'f'] rest (.dottedFraction '6' (by decide)) (ih ((ahead_known_iff _ _).mp known))
  | case8 rest ih =>
      exact .specifier ['.', '9', 'f'] rest (.dottedFraction '9' (by decide)) (ih ((ahead_known_iff _ _).mp known))
  | case9 rest ih =>
      exact .specifier ['3', 'f'] rest (.fraction '3' (by decide)) (ih ((ahead_known_iff _ _).mp known))
  | case10 rest ih =>
      exact .specifier ['6', 'f'] rest (.fraction '6' (by decide)) (ih ((ahead_known_iff _ _).mp known))
  | case11 rest ih =>
      exact .specifier ['9', 'f'] rest (.fraction '9' (by decide)) (ih ((ahead_known_iff _ _).mp known))
  | case12 c rest _ _ _ _ _ _ _ _ _ _ ih =>
      obtain ⟨specifier, later⟩ := (followed_known_iff _ _).mp known
      rcases (specifier_known_iff c).mp specifier with sign | number
      · exact .specifier [c] rest (.sign c sign) (ih later)
      · exact .specifier [c] rest (.number c number) (ih later)
  | case13 => cases known
  | case14 c rest _ _ _ _ _ _ _ _ _ _ marked alone ih =>
      have unmarked : c ≠ '%' := by
        rintro rfl
        cases rest with
        | nil => exact alone rfl rfl
        | cons next rest => exact marked next rest rfl rfl
      exact .plain c rest unmarked (ih ((ahead_known_iff _ _).mp known))

theorem specifier_read (text rest : List Char) (known : Specifier text) :
    (items? ('%' :: text ++ rest)).isSome = true ↔ (items? rest).isSome = true := by
  cases known with
  | sign c known => exact single_read c rest (.inl known)
  | number c known => exact single_read c rest (.inr known)
  | padded pad c padding known =>
      have number (pad : Pad) := (padded_known_iff pad c).mpr known
      simp only [List.mem_cons, List.not_mem_nil, or_false] at padding
      rcases padding with rfl | rfl | rfl
      · exact (followed_known_iff _ _).trans (and_iff_right (number .none))
      · exact (followed_known_iff _ _).trans (and_iff_right (number .zero))
      · exact (followed_known_iff _ _).trans (and_iff_right (number .space))
  | fraction n digits =>
      simp only [List.mem_cons, List.not_mem_nil, or_false] at digits
      rcases digits with rfl | rfl | rfl
      · exact ahead_known_iff (.fraction false 3) _
      · exact ahead_known_iff (.fraction false 6) _
      · exact ahead_known_iff (.fraction false 9) _
  | dottedFraction n digits =>
      simp only [List.mem_cons, List.not_mem_nil, or_false] at digits
      rcases digits with rfl | rfl | rfl
      · exact ahead_known_iff (.fraction true 3) _
      · exact ahead_known_iff (.fraction true 6) _
      · exact ahead_known_iff (.fraction true 9) _
  | shortFraction => exact ahead_known_iff .shortFraction _

theorem items_known_iff (cs : List Char) : (items? cs).isSome = true ↔ Usable cs := by
  constructor
  · exact items_usable cs
  · intro usable
    induction usable with
    | nil => rfl
    | plain c rest unmarked usable ih =>
        rw [items_plain c rest unmarked, ahead_known_iff]
        exact ih
    | specifier text rest known usable ih => exact (specifier_read text rest known).mpr ih

instance (cs : List Char) : Decidable (Usable cs) := decidable_of_iff _ (items_known_iff cs)

example : Usable "%l:%M %p, %-S%.3f s".toList := by decide
example : ¬ Usable "%a %H:%M".toList := by decide

theorem rendered_iff (format : String) (time : TimeOfDay) :
    (render? format time).isSome = true ↔ Usable format.toList := by
  rw [render?, Option.isSome_map, items_known_iff]

end TimeFormat

open TimeFormat

theorem Alarm.time_text_iff (format : String) (alarm : Alarm) :
    (∃ text, alarm.timeText? format = some text) ↔ Usable format.toList := by
  rw [← Option.isSome_iff_exists]
  exact rendered_iff format _

theorem Line.of_slots_iff (format : String) (slots : Slots) :
    (∃ lines, Line.ofSlots? format slots = some lines) ↔ Usable format.toList := by
  constructor
  · rintro ⟨lines, shown⟩
    have first : (slots[0], 0) ∈ slots.toList.zipIdx := by
      rw [List.mem_zipIdx_iff_getElem?]
      simp
    obtain ⟨line, -, made⟩ := (map_m_some _ _ _ shown).1 _ first
    obtain ⟨text, time, -⟩ := Option.map_eq_some_iff.mp made
    exact (slots[0].time_text_iff format).mp ⟨text, time⟩
  · intro usable
    refine map_m_total _ _ fun entry _ => ?_
    obtain ⟨alarm, slot⟩ := entry
    obtain ⟨text, time⟩ := (alarm.time_text_iff format).mpr usable
    refine ⟨.listed slot text alarm.days alarm.enabled, ?_⟩
    change Line.ofAlarm? format slot alarm = _
    rw [Line.ofAlarm?, time, Option.map_some]

namespace Errand

theorem list_ending (config : Config) (around : Surroundings) (loads : (Controller.initial.init around).result = .ok ()) :
    (Errand.list.perform config around).ending =
      if Usable config.timeFormat.toList then .success else .unusableFormat := by
  have session : Errand.list.session around = Controller.initial.init around := rfl
  have everywhere : Errand.list.missingSlot? = none := rfl
  have shown := Line.of_slots_iff config.timeFormat (Controller.initial.init around).controller.alarms.slots
  simp only [perform, everywhere, session, loads, lines?]
  by_cases usable : Usable config.timeFormat.toList
  · obtain ⟨lines, made⟩ := shown.mpr usable
    simp only [made, if_pos usable]
  · cases made : Line.ofSlots? config.timeFormat (Controller.initial.init around).controller.alarms.slots with
    | some lines => exact absurd (shown.mp ⟨lines, made⟩) usable
    | none => simp only [if_neg usable]

theorem failed_list_ending (config : Config) (around : Surroundings) (failure : Failure)
    (fails : (Controller.initial.init around).result = .error failure) :
    (Errand.list.perform config around).ending = .failed failure := by
  have session : Errand.list.session around = Controller.initial.init around := rfl
  have everywhere : Errand.list.missingSlot? = none := rfl
  simp only [perform, everywhere, session, fails]

theorem other_ending (config : Config) (around : Surroundings) (errand : Errand) (other : errand ≠ .list) :
    (errand.perform config around).ending ≠ .unusableFormat := by
  have lines (clock : Clock) (c : Controller) : errand.lines? config clock c = some [Line.ofController clock c] := by
    cases errand with
    | list => exact absurd rfl other
    | next | set _ _ _ _ | enable _ | disable _ => rfl
  intro unusable
  unfold perform at unusable
  split at unusable
  · cases unusable
  · dsimp only at unusable
    split at unusable
    · cases unusable
    · rw [lines] at unusable
      cases unusable

end Errand

namespace Daemon

theorem handle_goes_on_iff (config : Config) (around : Surroundings) (now : Nat) (d : Daemon) (message : Message) :
    (d.handle config around now message).goesOn = true ↔
      ∀ slot, message = .alarmRinging slot → Usable config.timeFormat.toList := by
  cases message with
  | timerExpired => exact iff_of_true rfl fun _ other => Message.noConfusion other
  | stopRequested => exact iff_of_true rfl fun _ other => Message.noConfusion other
  | alarmRinging slot =>
      have shown := ((d.controller.alarms.get? slot).getD Alarm.default).time_text_iff config.timeFormat
      rw [handle]
      cases made : ((d.controller.alarms.get? slot).getD Alarm.default).timeText? config.timeFormat with
      | some time =>
          have usable := shown.mp ⟨time, made⟩
          exact iff_of_true rfl fun _ _ => usable
      | none =>
          have unusable : ¬ Usable config.timeFormat.toList := by
            intro usable
            obtain ⟨time, shows⟩ := shown.mpr usable
            rw [made] at shows
            cases shows
          exact iff_of_false Bool.false_ne_true fun all => unusable (all slot rfl)

theorem turn_goes_on_iff (config : Config) (around : Surroundings) (now : Nat) (d : Daemon) :
    (d.turn config around now).goesOn = true ↔
      ∀ slot, d.inbox.head? = some (.alarmRinging slot) → Usable config.timeFormat.toList := by
  have worked (d : Daemon) (received : Option Message) : (d.work config around now received).goesOn = true ↔
      ∀ slot, received = some (.alarmRinging slot) → Usable config.timeFormat.toList := by
    cases received with
    | none => exact iff_of_true rfl fun _ other => absurd other.symm (Option.some_ne_none _)
    | some message =>
        rw [work, handle_goes_on_iff]
        simp only [Option.some.injEq]
  rw [(d.turn_refreshed config around now).2, ← worked]
  rw [Turn.andThen]
  split
  · rename_i goesOn
    exact iff_of_true (Watch.finish_turn config around _ _ now).2 goesOn
  · rfl

end Daemon

namespace Watch

theorem step_goes_on (config : Config) (usable : Usable config.timeFormat.toList) (w : Watch) (h : Happening)
    (going : w.stage ≠ .crashed) : (w.step config h).stage ≠ .crashed := by
  intro crashed
  cases h with
  | expiry | request | pass span => exact going crashed
  | receive =>
      simp only [step] at crashed
      split at crashed
      · split at crashed
        · exact going crashed
        · unfold take at crashed
          split at crashed
          · cases crashed
          · split at crashed
            · cases crashed
            · exact going crashed
      · exact going crashed
  | handle around =>
      simp only [step] at crashed
      split at crashed
      · cases crashed
      · rename_i message _
        have goesOn := (w.daemon.handle_goes_on_iff config around w.now message).mpr fun _ _ => usable
        rw [if_pos goesOn] at crashed
        cases crashed
      · exact going crashed
  | refresh around | judge | act around =>
      simp only [step] at crashed
      split at crashed
      · cases crashed
      · exact going crashed
  | leave =>
      simp only [step] at crashed
      split at crashed
      · split at crashed
        · cases crashed
        · exact going crashed
      · exact going crashed

theorem run_goes_on (config : Config) (usable : Usable config.timeFormat.toList) (w : Watch) (happenings : List Happening)
    (going : w.stage ≠ .crashed) : (w.run config happenings).stage ≠ .crashed := by
  induction happenings generalizing w with
  | nil => exact going
  | cons h later ih => exact ih (w.step config h) (step_goes_on config usable w h going)

end Watch

namespace Config

structure ShowsTimes (config : Config) : Prop where
  texts : ∀ alarm : Alarm, alarm.HasTime → ∃ text, alarm.timeText? config.timeFormat = some text
  errands : ∀ around (errand : Errand), (errand.perform config around).ending ≠ .unusableFormat
  turns : ∀ around now (d : Daemon), (d.turn config around now).goesOn = true
  watches : ∀ (w : Watch) happenings, w.stage ≠ .crashed → (w.run config happenings).stage ≠ .crashed

structure FailsAtTimes (config : Config) : Prop where
  texts : ∀ alarm : Alarm, alarm.timeText? config.timeFormat = none
  lists : ∀ around, (Controller.initial.init around).result = .ok () →
    (Errand.list.perform config around).ending = .unusableFormat
  announcements : ∀ around now (d : Daemon) slot, d.inbox.head? = some (.alarmRinging slot) →
    (d.turn config around now).goesOn = false

theorem shows_times_iff (config : Config) : config.ShowsTimes ↔ Usable config.timeFormat.toList := by
  constructor
  · intro shows
    exact (Alarm.default.time_text_iff _).mp (shows.texts Alarm.default Alarm.default_valid.1)
  · intro usable
    refine ⟨fun alarm _ => (alarm.time_text_iff _).mpr usable, fun around errand => ?_, fun around now d => ?_,
      Watch.run_goes_on config usable⟩
    · by_cases list : errand = .list
      · intro ends
        rw [list] at ends
        cases loads : (Controller.initial.init around).result with
        | error failure =>
            rw [Errand.failed_list_ending config around failure loads] at ends
            cases ends
        | ok _ =>
            rw [Errand.list_ending config around loads, if_pos usable] at ends
            cases ends
      · exact Errand.other_ending config around errand list
    · exact (d.turn_goes_on_iff config around now).mpr fun _ _ => usable

theorem fails_at_times_iff (config : Config) : config.FailsAtTimes ↔ ¬ Usable config.timeFormat.toList := by
  constructor
  · intro fails usable
    obtain ⟨text, shown⟩ := (Alarm.default.time_text_iff _).mpr usable
    rw [fails.texts] at shown
    cases shown
  · intro unusable
    refine ⟨fun alarm => ?_, fun around loads => ?_, fun around now d slot next => ?_⟩
    · rw [Option.eq_none_iff_forall_ne_some]
      exact fun text shown => unusable ((alarm.time_text_iff _).mp ⟨text, shown⟩)
    · rw [Errand.list_ending config around loads, if_neg unusable]
    · rw [Bool.eq_false_iff]
      exact fun goesOn => unusable ((d.turn_goes_on_iff config around now).mp goesOn slot next)

theorem loaded_config_shows_times_iff (file : Except FileError Bytes) (config : Config) (loaded : load file = .ok config) :
    (config.ShowsTimes ↔ Usable config.timeFormat.toList) ∧
      (config.FailsAtTimes ↔ ¬ Usable config.timeFormat.toList) ∧
      ∀ format, ∃ other, load other = .ok { config with timeFormat := format } :=
  ⟨config.shows_times_iff, config.fails_at_times_iff, every_format_loads file config loaded⟩

theorem twelve_hours_are_shown :
    let config : Config := ⟨"%l:%M %p", 30, none⟩
    load (.ok config.fileText.toUTF8.toList) = .ok config ∧ config.ShowsTimes := by
  intro config
  have loaded : load (.ok config.fileText.toUTF8.toList) = .ok config := by
    rw [load_text, text_read_back config rfl]
  exact ⟨loaded, (loaded_config_shows_times_iff _ config loaded).1.mpr (by decide)⟩

theorem weekday_is_not_shown :
    let config : Config := ⟨"%a %H:%M", 60, none⟩
    let around : Surroundings := ⟨Meeting.oClock 8, none, .ok none, none⟩
    load (.ok config.fileText.toUTF8.toList) = .ok config ∧ Alarm.default.HasTime ∧
      Alarm.default.timeText? config.timeFormat = none ∧
      (Errand.list.perform config around).ending.exitCode = 101 ∧
      ((⟨.initial, [.alarmRinging 0], none, 0⟩ : Daemon).turn config around 0).goesOn = false := by
  intro config around
  have unusable : ¬ Usable config.timeFormat.toList := by decide
  have fails := config.fails_at_times_iff.mpr unusable
  refine ⟨by rw [load_text, text_read_back config rfl], by decide, fails.texts _, ?_,
    fails.announcements around 0 _ 0 rfl⟩
  rw [fails.lists around (Errand.init_prepares around rfl none rfl).done]
  rfl

end Config
end AlarmClock
