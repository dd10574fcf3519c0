import AlarmClock.Proofs.Occurrence

set_option autoImplicit false

namespace AlarmClock

-- An answer for alarms whose first has the number `slot`.
structure Soonest (now : LocalTime) (slot : Nat) (alarms : List Alarm) (next : NextAlarm) : Prop where
  scheduled : ∃ index alarm, next.slot = slot + index ∧ alarms[index]? = some alarm ∧ alarm.enabled = true ∧
    alarm.nextOccurrence? now = some next.due
  first : ∀ index alarm time, alarms[index]? = some alarm → alarm.enabled = true →
    alarm.nextOccurrence? now = some time → next.due < time ∨ next.due = time ∧ next.slot ≤ slot + index

theorem find_next_from_none (now : LocalTime) (slot : Nat) (alarms : List Alarm)
    (none : findNextFrom now slot alarms = none) :
    ∀ alarm ∈ alarms, alarm.enabled = true → alarm.nextOccurrence? now = .none := by
  induction alarms generalizing slot with
  | nil => simp
  | cons alarm rest ih =>
      intro member present on
      by_cases first : alarm.enabled = true
      · cases here : alarm.nextOccurrence? now with
        | some due => simp [findNextFrom, first, here] at none
        | none =>
            rw [findNextFrom, if_pos first, here] at none
            rcases List.mem_cons.mp present with rfl | later
            · exact here
            · exact ih (slot + 1) none member later on
      · rw [findNextFrom, if_neg first] at none
        rcases List.mem_cons.mp present with rfl | later
        · exact absurd on first
        · exact ih (slot + 1) none member later on

theorem soonest_head (now due : LocalTime) (slot : Nat) (alarm : Alarm) (rest : List Alarm)
    (on : alarm.enabled = true) (here : alarm.nextOccurrence? now = some due)
    (passed : ∀ other ∈ rest, ∀ time, other.enabled = true → other.nextOccurrence? now = some time → due ≤ time) :
    Soonest now slot (alarm :: rest) ⟨slot, due⟩ := by
  refine ⟨⟨0, alarm, rfl, rfl, on, here⟩, fun index rival time present enabled rings => ?_⟩
  have order : due ≤ time := by
    cases index with
    | zero =>
        obtain rfl := Option.some.inj present
        obtain rfl := Option.some.inj (here.symm.trans rings)
        exact Int.le_refl _
    | succ index => exact passed rival (List.mem_of_getElem? present) time enabled rings
  rcases Int.lt_or_eq_of_le order with before | tied
  · exact .inl before
  · exact .inr ⟨congrArg LocalTime.mk tied, Nat.le_add_right slot index⟩

theorem soonest_tail (now : LocalTime) (slot : Nat) (alarm : Alarm) (rest : List Alarm) (next : NextAlarm)
    (soonest : Soonest now (slot + 1) rest next)
    (passed : ∀ time, alarm.enabled = true → alarm.nextOccurrence? now = some time → next.due < time) :
    Soonest now slot (alarm :: rest) next := by
  obtain ⟨index, found, slotEq, access, enabled, due⟩ := soonest.scheduled
  refine ⟨⟨index + 1, found, by omega, access, enabled, due⟩, fun other rival time present on rings => ?_⟩
  cases other with
  | zero =>
      obtain rfl := Option.some.inj present
      exact .inl (passed time on rings)
  | succ other =>
      rcases soonest.first other rival time present on rings with before | tied
      · exact .inl before
      · exact .inr ⟨tied.1, by omega⟩

theorem soonest_le (now : LocalTime) (slot : Nat) (alarms : List Alarm) (next : NextAlarm)
    (soonest : Soonest now slot alarms next) (alarm : Alarm) (present : alarm ∈ alarms) (time : LocalTime)
    (on : alarm.enabled = true) (rings : alarm.nextOccurrence? now = some time) : next.due ≤ time := by
  obtain ⟨index, access⟩ := List.getElem?_of_mem present
  rcases soonest.first index alarm time access on rings with before | ⟨tied, _⟩
  · exact Int.le_of_lt before
  · rw [tied]
    exact Int.le_refl _

theorem find_next_from_soonest (now : LocalTime) (slot : Nat) (alarms : List Alarm) (next : NextAlarm)
    (found : findNextFrom now slot alarms = some next) : Soonest now slot alarms next := by
  induction alarms generalizing slot next with
  | nil => simp [findNextFrom] at found
  | cons alarm rest ih =>
      by_cases on : alarm.enabled = true
      · cases here : alarm.nextOccurrence? now with
        | none =>
            rw [findNextFrom, if_pos on, here] at found
            exact soonest_tail now slot alarm rest next (ih (slot + 1) next found) (by simp [here])
        | some due =>
            rw [findNextFrom, if_pos on, here] at found
            cases later : findNextFrom now (slot + 1) rest with
            | none =>
                obtain rfl : ⟨slot, due⟩ = next := by simpa [later] using found
                refine soonest_head now due slot alarm rest on here fun other present time enabled rings => ?_
                simp [find_next_from_none now (slot + 1) rest later other present enabled] at rings
            | some other =>
                have chosen : NextAlarm.earlier ⟨slot, due⟩ other = next := by simpa [later] using found
                have restSoonest := ih (slot + 1) other later
                by_cases sooner : other.due < due
                · rw [NextAlarm.earlier, if_pos sooner] at chosen
                  subst chosen
                  refine soonest_tail now slot alarm rest other restSoonest fun time _ rings => ?_
                  obtain rfl := Option.some.inj (here.symm.trans rings)
                  exact sooner
                · rw [NextAlarm.earlier, if_neg sooner] at chosen
                  subst chosen
                  exact soonest_head now due slot alarm rest on here fun rival present time enabled rings =>
                    Int.le_trans (Int.not_lt.mp sooner)
                      (soonest_le now (slot + 1) rest other restSoonest rival present time enabled rings)
      · rw [findNextFrom, if_neg on] at found
        exact soonest_tail now slot alarm rest next (ih (slot + 1) next found) (by simp [on])

theorem find_next_slot (alarms : List Alarm) (now : LocalTime) (next : NextAlarm)
    (found : findNext alarms now = some next) :
    ∃ alarm, alarms[next.slot]? = some alarm ∧ alarm.enabled = true ∧ alarm.nextOccurrence? now = some next.due := by
  obtain ⟨index, alarm, slotEq, access, on, due⟩ := (find_next_from_soonest now 0 alarms next found).scheduled
  exact ⟨alarm, by rw [slotEq, Nat.zero_add]; exact access, on, due⟩

theorem find_next_later (alarms : List Alarm) (now : LocalTime) (next : NextAlarm) (times : ∀ alarm ∈ alarms, alarm.HasTime)
    (found : findNext alarms now = some next) : now < next.due := by
  obtain ⟨alarm, access, _, due⟩ := find_next_slot alarms now next found
  exact (alarm.next_occurrence_first now next.due (times alarm (List.mem_of_getElem? access)) due).later

theorem find_next_least (alarms : List Alarm) (now : LocalTime) (next : NextAlarm) (times : ∀ alarm ∈ alarms, alarm.HasTime)
    (found : findNext alarms now = some next) (alarm : Alarm) (present : alarm ∈ alarms) (on : alarm.enabled = true)
    (time : LocalTime) (rings : alarm.RingsAt time) (later : now < time) : next.due ≤ time := by
  have hasTime := times alarm present
  cases due : alarm.nextOccurrence? now with
  | some first =>
      exact Int.le_trans (soonest_le now 0 alarms next (find_next_from_soonest now 0 alarms next found) alarm present first on due)
        ((alarm.next_occurrence_first now first hasTime due).least time rings later)
  | none =>
      -- the alarm that was found lies in the calendar, and this one does not ring any more before its end
      have beyond := alarm.next_occurrence_none now time hasTime due rings later
      obtain ⟨chosen, access, _, chosenDue⟩ := find_next_slot alarms now next found
      have inside := (chosen.next_occurrence_first now next.due (times chosen (List.mem_of_getElem? access)) chosenDue).inCalendar
      apply Int.not_lt.mp
      intro before
      have days := LocalTime.day_le_of_lt time next.due before
      omega

theorem find_next_from_congr (earlier now : LocalTime) (slot : Nat) (alarms : List Alarm)
    (same : ∀ alarm ∈ alarms, alarm.enabled = true → alarm.nextOccurrence? now = alarm.nextOccurrence? earlier) :
    findNextFrom now slot alarms = findNextFrom earlier slot alarms := by
  induction alarms generalizing slot with
  | nil => rfl
  | cons alarm rest ih =>
      have tail := ih (slot + 1) fun other present => same other (List.mem_cons_of_mem alarm present)
      by_cases on : alarm.enabled = true
      · rw [findNextFrom, findNextFrom, if_pos on, if_pos on, same alarm List.mem_cons_self on, tail]
      · rw [findNextFrom, findNextFrom, if_neg on, if_neg on, tail]

theorem find_next_stable (alarms : List Alarm) (earlier now : LocalTime) (times : ∀ alarm ∈ alarms, alarm.HasTime)
    (order : earlier ≤ now) (ahead : ∀ next, findNext alarms earlier = some next → now < next.due) :
    findNext alarms now = findNext alarms earlier := by
  refine find_next_from_congr earlier now 0 alarms fun alarm present on => ?_
  refine alarm.next_occurrence_stable earlier now (times alarm present) order fun time rings => ?_
  cases found : findNext alarms earlier with
  | none => simp [find_next_from_none earlier 0 alarms found alarm present on] at rings
  | some next =>
      exact Int.lt_of_lt_of_le (ahead next found)
        (soonest_le earlier 0 alarms next (find_next_from_soonest earlier 0 alarms next found) alarm present time on rings)

theorem soonest_iff (now due : LocalTime) (slot : Nat) (alarms : List Alarm) :
    Soonest now 0 alarms ⟨slot, due⟩ ↔ ∃ alarm, alarms[slot]? = some alarm ∧ alarm.enabled = true ∧
      alarm.nextOccurrence? now = some due ∧
      ∀ other rival time, alarms[other]? = some rival → rival.enabled = true → rival.nextOccurrence? now = some time →
        due < time ∨ due = time ∧ slot ≤ other := by
  constructor
  · rintro ⟨⟨index, alarm, slotEq, access, on, rings⟩, first⟩
    obtain rfl : slot = index := slotEq.trans (Nat.zero_add index)
    simp only [Nat.zero_add] at first
    exact ⟨alarm, access, on, rings, first⟩
  · rintro ⟨alarm, access, on, rings, first⟩
    exact ⟨⟨slot, alarm, (Nat.zero_add slot).symm, access, on, rings⟩, by simpa only [Nat.zero_add] using first⟩

theorem soonest_unique (now : LocalTime) (alarms : List Alarm) (next other : NextAlarm) (soonest : Soonest now 0 alarms next)
    (otherSoonest : Soonest now 0 alarms other) : next = other := by
  obtain ⟨slot, due⟩ := next
  obtain ⟨otherSlot, otherDue⟩ := other
  obtain ⟨alarm, access, on, rings, first⟩ := (soonest_iff now due slot alarms).mp soonest
  obtain ⟨rival, otherAccess, otherOn, otherRings, otherFirst⟩ := (soonest_iff now otherDue otherSlot alarms).mp otherSoonest
  rcases first otherSlot rival otherDue otherAccess otherOn otherRings with before | ⟨same, order⟩
  · rcases otherFirst slot alarm due access on rings with after | ⟨same, -⟩
    · exact absurd before (Int.lt_asymm after)
    · exact absurd before (same ▸ Int.lt_irrefl _)
  · rcases otherFirst slot alarm due access on rings with after | ⟨-, reverse⟩
    · exact absurd after (same ▸ Int.lt_irrefl _)
    · rw [same, Nat.le_antisymm order reverse]

theorem find_next_is_soonest (alarms : List Alarm) (now : LocalTime) :
    (∀ slot due, findNext alarms now = some ⟨slot, due⟩ ↔ ∃ alarm, alarms[slot]? = some alarm ∧ alarm.enabled = true ∧
        alarm.nextOccurrence? now = some due ∧
        ∀ other rival time, alarms[other]? = some rival → rival.enabled = true → rival.nextOccurrence? now = some time →
          due < time ∨ due = time ∧ slot ≤ other) ∧
      (findNext alarms now = none ↔ ∀ alarm ∈ alarms, alarm.enabled = true → alarm.nextOccurrence? now = none) := by
  have absent := find_next_from_none now 0 alarms
  cases found : findNext alarms now with
  | none =>
      have silent := absent found
      refine ⟨fun slot due => iff_of_false nofun ?_, iff_of_true rfl silent⟩
      rintro ⟨alarm, access, on, rings, -⟩
      rw [silent alarm (List.mem_of_getElem? access) on] at rings
      cases rings
  | some next =>
      have soonest := find_next_from_soonest now 0 alarms next found
      refine ⟨fun slot due => ?_, iff_of_false nofun fun silent => ?_⟩
      · rw [← soonest_iff, Option.some_inj]
        exact ⟨fun same => same ▸ soonest, soonest_unique now alarms next ⟨slot, due⟩ soonest⟩
      · obtain ⟨alarm, access, on, rings⟩ := find_next_slot alarms now next found
        rw [silent alarm (List.mem_of_getElem? access) on] at rings
        cases rings

end AlarmClock
