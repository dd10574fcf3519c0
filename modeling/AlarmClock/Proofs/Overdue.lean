import AlarmClock.Proofs.TwiceShown

set_option autoImplicit false

namespace AlarmClock

open Calendar

namespace Zone

def PassedIsDue (zone : Zone) (time : LocalTime) : Prop :=
  ∀ instant, time ≤ zone.localTime instant → (Clock.inZone zone instant).untilTime time = 0

theorem passed_is_due_iff (zone : Zone) (time : LocalTime) :
    zone.PassedIsDue time ↔
      ∀ moment, zone.resolve? time = some moment →
        ∀ earlier : Moment, earlier.nanos < moment.nanos → zone.localTime earlier < time := by
  constructor
  · intro due moment resolved earlier before
    by_contra passed
    have none := due earlier (Int.not_lt.mp passed)
    have order := (zone.until_le_iff time earlier 0).mp (Nat.le_of_eq none) moment resolved
    omega
  · intro first instant passed
    apply Nat.le_zero.mp
    refine (zone.until_le_iff time instant 0).mpr fun moment resolved => ?_
    by_contra ahead
    exact absurd (first moment resolved instant (by omega)) (Int.not_lt.mpr passed)

section

variable {standard summer : Int} {toSummer toStandard : ChangeRule} (time : LocalTime)

def changeForward (standard : Int) (toSummer : ChangeRule) (time : LocalTime) : Moment :=
  (LocalTime.mk (toSummer.localSecond (yearOf time.day) * 1000000000)).under standard

theorem summer_before_standard (order : standard < summer) : (time.under summer).nanos < (time.under standard).nanos := by
  simp only [LocalTime.under]
  omega

theorem shown_once_iff (order : standard < summer) :
    (∃! moment, (seasonal standard summer toSummer toStandard).localTime moment = time) ↔
      ((seasonal standard summer toSummer toStandard).ShowsUnder time standard ↔
        ¬ (seasonal standard summer toSummer toStandard).ShowsUnder time summer) := by
  have apart := summer_before_standard time order
  constructor
  · rintro ⟨moment, shown, only⟩
    obtain ⟨offset, rfl, shownThen⟩ := (shown_iff _ time moment).mp shown
    have same (other : Int) (shownOther : (seasonal standard summer toSummer toStandard).ShowsUnder time other) :
        time.under other = time.under offset := only _ ((shown_iff _ time _).mpr ⟨other, rfl, shownOther⟩)
    rcases shows_under_cases time shownThen with rfl | rfl
    · refine iff_of_true shownThen fun shownFirst => ?_
      rw [same summer shownFirst] at apart
      exact Int.lt_irrefl _ apart
    · refine iff_of_false (fun shownAgain => ?_) (not_not.mpr shownThen)
      rw [same standard shownAgain] at apart
      exact Int.lt_irrefl _ apart
  · intro once
    obtain ⟨offset, shownThen⟩ : ∃ offset, (seasonal standard summer toSummer toStandard).ShowsUnder time offset := by
      by_cases first : (seasonal standard summer toSummer toStandard).ShowsUnder time summer
      · exact ⟨summer, first⟩
      · exact ⟨standard, once.mpr first⟩
    refine ⟨time.under offset, (shown_iff _ time _).mpr ⟨offset, rfl, shownThen⟩, fun other shown => ?_⟩
    obtain ⟨otherOffset, rfl, shownOther⟩ := (shown_iff _ time other).mp shown
    rcases shows_under_cases time shownThen with rfl | rfl
    · rcases shows_under_cases time shownOther with rfl | rfl
      · rfl
      · exact absurd shownOther (once.mp shownThen)
    · rcases shows_under_cases time shownOther with rfl | rfl
      · exact absurd shownThen (once.mp shownOther)
      · rfl

theorem before_summer_showing (order : standard < summer) (earlier : Moment)
    (before : earlier.nanos < (time.under summer).nanos) :
    (seasonal standard summer toSummer toStandard).localTime earlier < time := by
  change earlier.nanos + _ * 1000000000 < time.nanos
  simp only [LocalTime.under] at before
  have either : (seasonal standard summer toSummer toStandard).offsetAt earlier = standard ∨ _ := offset_at_cases
  rcases either with same | same
  · rw [same]
    omega
  · rw [same]
    omega

section

variable (seasons : Seasons standard summer toSummer toStandard) (short : summer - standard ≤ 86400)
include seasons short

theorem no_summer_after (shown : (seasonal standard summer toSummer toStandard).ShowsUnder time standard)
    (once : ¬ (seasonal standard summer toSummer toStandard).ShowsUnder time summer) (later : LocalTime)
    (after : time.wholeSecond ≤ later.wholeSecond) (near : later.wholeSecond ≤ time.wholeSecond + (summer - standard)) :
    ¬ (seasonal standard summer toSummer toStandard).ShowsUnder later summer := by
  rw [shows_standard_iff time seasons short] at shown
  rw [shows_summer_iff time seasons short] at once
  rw [shows_summer_iff later seasons short]
  obtain ⟨yearBegun, yearEnds⟩ := time.in_year
  obtain ⟨laterBegun, laterEnds⟩ := later.in_year
  have changes := seasons.changes (yearOf time.day)
  have laterChanges := seasons.changes (yearOf later.day)
  unfold StandardPiece at shown
  unfold SummerPiece RepeatedPiece at once ⊢
  rcases Int.lt_or_eq_of_le (year_order time later after) with years | years
  · have order := year_second_mono (yearOf time.day + 1) (yearOf later.day) years
    split_ifs at changes laterChanges shown once ⊢
    · obtain ⟨begins, apart, -⟩ := laterChanges
      omega
    · obtain ⟨-, -, ends⟩ := changes
      omega
  · rw [← years]
    split_ifs at changes shown once ⊢
    · have apart := changes.apart
      omega
    · omega

theorem before_standard_showing (shown : (seasonal standard summer toSummer toStandard).ShowsUnder time standard)
    (once : ¬ (seasonal standard summer toSummer toStandard).ShowsUnder time summer) (earlier : Moment)
    (before : earlier.nanos < (time.under standard).nanos) :
    (seasonal standard summer toSummer toStandard).localTime earlier < time := by
  refine Int.not_le.mp fun passed => ?_
  obtain ⟨offset, same, shownThen⟩ := (shown_iff _ _ earlier).mp rfl
  generalize (seasonal standard summer toSummer toStandard).localTime earlier = later at passed same shownThen
  obtain rfl := same
  change time.nanos ≤ later.nanos at passed
  simp only [LocalTime.under] at before
  rcases shows_under_cases later shownThen with rfl | rfl
  · omega
  · have after : time.wholeSecond ≤ later.wholeSecond := Int.ediv_le_ediv (by decide) passed
    have near : later.wholeSecond ≤ time.wholeSecond + (offset - standard) := by
      simp only [LocalTime.wholeSecond]
      omega
    exact no_summer_after time seasons short shown once later after near shownThen

theorem change_passes (unshown : ¬ (seasonal standard summer toSummer toStandard).Shows time) :
    time ≤ (seasonal standard summer toSummer toStandard).localTime (changeForward standard toSummer time) := by
  obtain ⟨begun, before⟩ := (not_shown_iff time seasons short).mp unshown
  have inside := forward_in_year standard summer toSummer toStandard seasons (yearOf time.day)
  have second : (LocalTime.mk (toSummer.localSecond (yearOf time.day) * 1000000000)).wholeSecond =
      toSummer.localSecond (yearOf time.day) := Int.mul_ediv_cancel _ (by decide)
  have sameYear := (LocalTime.in_year_iff _ (yearOf time.day)).mpr (by rw [second]; omega)
  have shown := last_second_shown _ seasons short (second.trans (by rw [sameYear]))
  rw [changeForward, shown]
  change time.nanos ≤ toSummer.localSecond (yearOf time.day) * 1000000000 + (summer - standard) * 1000000000
  simp only [LocalTime.wholeSecond] at before
  omega

theorem before_change (unshown : ¬ (seasonal standard summer toSummer toStandard).Shows time) (earlier : Moment)
    (before : earlier.nanos < (changeForward standard toSummer time).nanos) :
    (seasonal standard summer toSummer toStandard).localTime earlier < time := by
  refine Int.not_le.mp fun passed => ?_
  obtain ⟨begun, -⟩ := (not_shown_iff time seasons short).mp unshown
  have inside := forward_in_year standard summer toSummer toStandard seasons (yearOf time.day)
  obtain ⟨offset, same, shownThen⟩ := (shown_iff _ _ earlier).mp rfl
  have shown : (seasonal standard summer toSummer toStandard).Shows _ := ⟨earlier, rfl⟩
  generalize (seasonal standard summer toSummer toStandard).localTime earlier = later at passed same shownThen shown
  obtain rfl := same
  change time.nanos ≤ later.nanos at passed
  have after : time.wholeSecond ≤ later.wholeSecond := Int.ediv_le_ediv (by decide) passed
  have close : offset ≤ summer := by
    have order := seasons.order
    rcases shows_under_cases later shownThen with rfl | rfl
    · exact Int.le_of_lt order
    · exact Int.le_refl _
  have near : later.wholeSecond < toSummer.localSecond (yearOf time.day) + (summer - standard) := by
    simp only [LocalTime.under, changeForward] at before
    simp only [LocalTime.wholeSecond]
    omega
  have sameYear := (later.in_year_iff (yearOf time.day)).mpr (by omega)
  refine (not_shown_iff later seasons short).mpr ⟨?_, ?_⟩ shown
  · rw [sameYear]
    exact Int.le_trans begun after
  · rw [sameYear]
    exact near

theorem unshown_is_due_iff (inland : time.Inland) (unshown : ¬ (seasonal standard summer toSummer toStandard).Shows time) :
    (seasonal standard summer toSummer toStandard).PassedIsDue time ↔
      (seasonal standard summer toSummer toStandard).Lost time ∨
        (seasonal standard summer toSummer toStandard).resolve? time = some (changeForward standard toSummer time) := by
  have orderly : (seasonal standard summer toSummer toStandard).Orderly := seasons
  rw [passed_is_due_iff, ← resolve_none_iff _ orderly time inland]
  cases resolved : (seasonal standard summer toSummer toStandard).resolve? time with
  | none => exact iff_of_true nofun (.inl rfl)
  | some moment =>
      have stays := resolve_stays _ orderly time moment moment resolved (Int.le_refl _)
      have reached : ¬ moment.nanos < (changeForward standard toSummer time).nanos := fun before =>
        absurd (before_change time seasons short unshown moment before) (Int.not_lt.mpr stays)
      simp only [Option.some.injEq, forall_eq', reduceCtorEq, false_or]
      constructor
      · intro first
        have passes := change_passes time seasons short unshown
        have late : ¬ (changeForward standard toSummer time).nanos < moment.nanos := fun before =>
          absurd (first _ before) (Int.not_lt.mpr passes)
        exact congrArg Moment.mk (Int.le_antisymm (Int.not_lt.mp late) (Int.not_lt.mp reached))
      · rintro rfl earlier before
        exact before_change time seasons short unshown earlier before

theorem shown_is_due_iff (inland : time.Inland) (shown : (seasonal standard summer toSummer toStandard).Shows time) :
    (seasonal standard summer toSummer toStandard).PassedIsDue time ↔
      ∃! moment, (seasonal standard summer toSummer toStandard).localTime moment = time := by
  have order := seasons.order
  obtain ⟨offset, -, shownThen, resolved⟩ := shown_resolves time seasons short inland shown
  rw [passed_is_due_iff, shown_once_iff time order]
  by_cases winter : (seasonal standard summer toSummer toStandard).ShowsUnder time standard
  · by_cases first : (seasonal standard summer toSummer toStandard).ShowsUnder time summer
    · -- it names the later instant, and at the earlier one the clock shows it already
      have late := repeated_resolves time seasons short inland first winter
      have shownFirst := (shown_iff _ time _).mpr ⟨summer, rfl, first⟩
      refine iff_of_false (fun due => ?_) fun once => once.mp winter first
      have sooner := due _ late _ (summer_before_standard time order)
      rw [shownFirst] at sooner
      exact Int.lt_irrefl _ sooner
    · refine iff_of_true (fun moment found => ?_) (iff_of_true winter first)
      obtain rfl := Option.some.inj (resolved.symm.trans found)
      rcases shows_under_cases time shownThen with rfl | rfl
      · exact before_standard_showing time seasons short winter first
      · exact absurd shownThen first
  · rcases shows_under_cases time shownThen with rfl | rfl
    · exact absurd shownThen winter
    · refine iff_of_true (fun moment found => ?_) (iff_of_false winter (not_not.mpr shownThen))
      obtain rfl := Option.some.inj (resolved.symm.trans found)
      exact before_summer_showing time order

end
end
end Zone

namespace Controller

open Zone

structure Awaits (c : Controller) (slot : Nat) (time : LocalTime) : Prop where
  quiet : c.ringing = none
  scheduled : c.next = some ⟨slot, time⟩

theorem resync_rings_passed (around : Surroundings) (c : Controller) (slot : Nat) (time : LocalTime)
    (awaits : c.Awaits slot time) :
    (c.after ⟨around, .resync⟩).ringing = some slot ↔ time ≤ around.clock.now := by
  rw [c.resync_rings_iff around slot awaits.quiet, awaits.scheduled]
  simp

theorem expiry_rings_due (around : Surroundings) (c : Controller) (slot : Nat) (time : LocalTime)
    (awaits : c.Awaits slot time) :
    (c.after ⟨around, .timerExpired⟩).ringing = some slot ↔ around.clock.untilTime time ≤ expirySlack := by
  rw [c.expiry_rings_iff around slot awaits.quiet, awaits.scheduled]
  simp

theorem resync_agrees_iff (zone : Zone) (c : Controller) (slot : Nat) (time : LocalTime) (awaits : c.Awaits slot time) :
    zone.PassedIsDue time ↔
      ∀ (around : Surroundings) (instant : Moment), around.clock = Clock.inZone zone instant →
        (c.after ⟨around, .resync⟩).ringing = some slot → around.clock.untilTime time = 0 := by
  constructor
  · intro due around instant clock rings
    rw [c.resync_rings_passed around slot time awaits, clock] at rings
    rw [clock]
    exact due instant rings
  · intro agrees instant passed
    exact agrees (inZone zone instant) instant rfl ((c.resync_rings_passed _ slot time awaits).mpr passed)

theorem passed_time_is_due_iff (standard summer : Int) (toSummer toStandard : ChangeRule) (time : LocalTime) :
    let zone := seasonal standard summer toSummer toStandard
    (zone.PassedIsDue time ↔
        ∀ moment, zone.resolve? time = some moment →
          ∀ earlier : Moment, earlier.nanos < moment.nanos → zone.localTime earlier < time) ∧
      (∀ (c : Controller) (slot : Nat), c.Awaits slot time →
        (zone.PassedIsDue time ↔
            ∀ (around : Surroundings) (instant : Moment), around.clock = Clock.inZone zone instant →
              (c.after ⟨around, .resync⟩).ringing = some slot → around.clock.untilTime time = 0) ∧
          ∀ (around : Surroundings) (instant : Moment), around.clock = Clock.inZone zone instant →
            zone.PassedIsDue time → (c.after ⟨around, .resync⟩).ringing = some slot →
              (c.after ⟨around, .timerExpired⟩).ringing = some slot ∧ c.secondsLeft? around.clock = some 0) ∧
      (zone.Orderly → summer - standard ≤ 86400 → time.Inland →
        (zone.PassedIsDue time ↔
          zone.Lost time ∨ (∃! moment, zone.localTime moment = time) ∨
            ¬ zone.Shows time ∧ zone.resolve? time = some (changeForward standard toSummer time))) := by
  intro zone
  refine ⟨zone.passed_is_due_iff time, fun c slot awaits => ⟨c.resync_agrees_iff zone slot time awaits, ?_⟩, ?_⟩
  · intro around instant clock due rings
    have none := (c.resync_agrees_iff zone slot time awaits).mp due around instant clock rings
    rw [c.expiry_rings_due around slot time awaits, secondsLeft?, awaits.scheduled, Option.map_some, none]
    exact ⟨Nat.zero_le _, rfl⟩
  · intro seasons short inland
    have lostUnshown : zone.Lost time → ¬ zone.Shows time := fun lost =>
      (not_shown_iff time seasons short).mpr (skipped_piece time seasons lost.1)
    by_cases shown : zone.Shows time
    · rw [shown_is_due_iff time seasons short inland shown]
      simp only [mt lostUnshown (not_not.mpr shown), shown, not_true_eq_false, false_and, or_false, false_or]
      rfl
    · have never : ¬ ∃! moment, zone.localTime moment = time := fun once => shown once.exists
      rw [unshown_is_due_iff time seasons short inland shown]
      simp only [never, shown, not_false_eq_true, true_and, false_or]
      rfl

def halfPastTwo (instant : Moment) : List Event :=
  let around := inZone oneHourZone instant
  [⟨around, .edit 0 (.setTime 2 30)⟩, ⟨around, .edit 0 (.setEnabled true)⟩, ⟨around, .schedule⟩]

theorem time_of_change_is_due :
    let time := LocalTime.ofParts ⟨2024, 3, 31⟩ 2 0 0 0
    oneHourZone.Orderly ∧ time.Inland ∧ ¬ oneHourZone.Shows time ∧
      oneHourZone.resolve? time = some (utcMoment ⟨2024, 3, 31⟩ 1 0) ∧ oneHourZone.PassedIsDue time := by
  intro time
  have inland : time.Inland := by decide +kernel
  have unshown : ¬ oneHourZone.Shows time :=
    (not_shown_iff time one_hour_zone_orderly (by decide)).mpr ⟨by decide +kernel, by decide +kernel⟩
  have resolved : oneHourZone.resolve? time = some (utcMoment ⟨2024, 3, 31⟩ 1 0) := by decide +kernel
  have change : changeForward 3600 ⟨3, 5, 0, 7200⟩ time = utcMoment ⟨2024, 3, 31⟩ 1 0 := by decide +kernel
  obtain ⟨-, -, orderly⟩ := passed_time_is_due_iff 3600 7200 ⟨3, 5, 0, 7200⟩ ⟨10, 5, 0, 10800⟩ time
  have due := orderly one_hour_zone_orderly (by decide) inland
  rw [change] at due
  exact ⟨one_hour_zone_orderly, inland, unshown, resolved, due.mpr (.inr (.inr ⟨unshown, resolved⟩))⟩

-- At 00:45 UTC on 27 October 2024 the clock shows 02:45, a quarter of an hour before it is moved back. An alarm at 02:30
-- rings when the timer is checked, but the time left until it is three quarters of an hour. So it is at 01:10 UTC on 31
-- March, when the clock has skipped 02:30 and shows 03:10.
theorem overdue_alarm_still_waits :
    let autumn := initial.run (halfPastTwo (utcMoment ⟨2024, 10, 26⟩ 22 0))
    let autumnNight := inZone oneHourZone (utcMoment ⟨2024, 10, 27⟩ 0 45)
    let spring := initial.run (halfPastTwo (utcMoment ⟨2024, 3, 30⟩ 22 0))
    let springNight := inZone oneHourZone (utcMoment ⟨2024, 3, 31⟩ 1 10)
    (autumn.Awaits 0 (LocalTime.ofParts ⟨2024, 10, 27⟩ 2 30 0 0) ∧
        LocalTime.ofParts ⟨2024, 10, 27⟩ 2 30 0 0 ≤ autumnNight.clock.now ∧
        autumnNight.clock.untilTime (LocalTime.ofParts ⟨2024, 10, 27⟩ 2 30 0 0) = Span.ofSeconds 2700 ∧
        (autumn.after ⟨autumnNight, .resync⟩).ringing = some 0 ∧
        (autumn.after ⟨autumnNight, .timerExpired⟩).ringing = none) ∧
      spring.Awaits 0 (LocalTime.ofParts ⟨2024, 3, 31⟩ 2 30 0 0) ∧
        LocalTime.ofParts ⟨2024, 3, 31⟩ 2 30 0 0 ≤ springNight.clock.now ∧
        springNight.clock.untilTime (LocalTime.ofParts ⟨2024, 3, 31⟩ 2 30 0 0) = Span.ofSeconds 1200 ∧
        (spring.after ⟨springNight, .resync⟩).ringing = some 0 ∧
        (spring.after ⟨springNight, .timerExpired⟩).ringing = none := by
  intro autumn autumnNight spring springNight
  refine ⟨⟨⟨?_, ?_⟩, ?_, ?_, ?_, ?_⟩, ⟨?_, ?_⟩, ?_, ?_, ?_, ?_⟩
  all_goals decide +kernel

end Controller
end AlarmClock
