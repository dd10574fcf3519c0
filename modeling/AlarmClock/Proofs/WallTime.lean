import AlarmClock.Proofs.Showings
import AlarmClock.Proofs.ZonedAlert

set_option autoImplicit false

namespace AlarmClock

open Calendar

-- The lookup of local times compares the months alone.
def ChangeRule.OrderedByMonth (first second : ChangeRule) : Prop :=
  ∀ year, first.month < second.month ↔ first.localSecond year < second.localSecond year

namespace Zone

-- In every year each of the two changes keeps away from the other and from the turn of the year.
structure KeepsApart (standard summer : Int) (toSummer toStandard : ChangeRule) : Prop where
  low : -86400 < standard
  high : summer < 86400
  changes : ∀ year, toSummer.Precedes toStandard year ∨ toStandard.Precedes toSummer year

-- After the span the clock shows the time, or the one an hour later if it never shows the time.
def LeadsTo (zone : Zone) (instant : Moment) (time : LocalTime) : Prop :=
  let reached : Moment := ⟨instant.nanos + (Clock.inZone zone instant).untilTime time⟩
  (zone.Shows time → zone.localTime reached = time) ∧ (¬ zone.Shows time → zone.localTime reached = time.addSeconds 3600)

section

variable {standard summer : Int} {toSummer toStandard : ChangeRule}

theorem KeepsApart.in_year (apart : KeepsApart standard summer toSummer toStandard) (year : Int) :
    (yearSecond year + 172800 ≤ toSummer.localSecond year ∧ toSummer.localSecond year + 172800 ≤ yearSecond (year + 1)) ∧
      yearSecond year + 172800 ≤ toStandard.localSecond year ∧
        toStandard.localSecond year + 172800 ≤ yearSecond (year + 1) := by
  rcases apart.changes year with north | south
  · obtain ⟨begins, between, ends⟩ := north
    omega
  · obtain ⟨begins, between, ends⟩ := south
    omega

theorem seasons_iff (order : standard < summer) (apart : KeepsApart standard summer toSummer toStandard) :
    Seasons standard summer toSummer toStandard ↔ toSummer.OrderedByMonth toStandard := by
  constructor
  · intro seasons year
    have changes := changes_apart seasons year
    split_ifs at changes with north
    · exact iff_of_true north (by omega)
    · exact iff_of_false north (by omega)
  · refine fun ordered => ⟨apart.low, order, apart.high, fun year => ?_⟩
    have months := ordered year
    rcases apart.changes year with north | south
    · have later := north.apart
      rw [if_pos (months.mpr (by omega))]
      exact north
    · have later := south.apart
      rw [if_neg (mt months.mp (by omega))]
      exact south

theorem Seasons.keeps_apart (seasons : Seasons standard summer toSummer toStandard) :
    KeepsApart standard summer toSummer toStandard := by
  refine ⟨seasons.low, seasons.high, fun year => ?_⟩
  have changes := seasons.changes year
  split_ifs at changes
  · exact .inl changes
  · exact .inr changes

theorem hour_later_shown (seasons : Seasons standard summer toSummer toStandard) (hour : summer = standard + 3600)
    (time : LocalTime) (skipped : (seasonal standard summer toSummer toStandard).Skips time) (offset : Int)
    (looked : ((seasonal standard summer toSummer toStandard).meaning (time.addSeconds 3600)).offset? = some offset) :
    (seasonal standard summer toSummer toStandard).ShowsUnder (time.addSeconds 3600) offset := by
  rcases looked_shown (time.addSeconds 3600) seasons (by omega) offset looked with shown | ⟨-, last⟩
  · exact shown
  · obtain ⟨begun, before⟩ := skipped_piece time seasons skipped
    have later := time.whole_second_add 3600
    rcases Int.lt_or_eq_of_le (year_order time (time.addSeconds 3600) (by omega)) with earlier | same
    · have apart := forward_apart standard summer toSummer toStandard seasons _ _ earlier
      omega
    · rw [← same] at last
      omega

theorem unshown_resolves (seasons : Seasons standard summer toSummer toStandard) (hour : summer = standard + 3600)
    (time : LocalTime) (inland : time.Inland) (moment : Moment)
    (resolved : (seasonal standard summer toSummer toStandard).resolve? time = some moment)
    (unshown : ¬ (seasonal standard summer toSummer toStandard).Shows time) :
    (seasonal standard summer toSummer toStandard).localTime moment = time.addSeconds 3600 := by
  have orderly : (seasonal standard summer toSummer toStandard).Orderly := seasons
  rw [resolve_stands _ orderly time inland] at resolved
  obtain ⟨offset, looked, rfl⟩ := listed_under _ _ moment resolved
  by_cases skipped : (seasonal standard summer toSummer toStandard).Skips time
  · rw [stands_for_skipped _ time skipped] at looked ⊢
    have shown := hour_later_shown seasons hour time skipped offset looked
    exact (shown_iff _ _ _).mpr ⟨offset, rfl, shown⟩
  · rw [stands_for_shown _ time skipped] at looked ⊢
    rcases looked_shown time seasons (by omega) offset looked with shown | ⟨rfl, last⟩
    · exact absurd ((shows_iff _ time).mpr ⟨offset, shown⟩) unshown
    · have gap : summer - offset = 3600 := by omega
      rw [last_second_shown time seasons (by omega) last, gap]

theorem leads_to_wall_time (seasons : Seasons standard summer toSummer toStandard) (hour : summer = standard + 3600)
    (instant : Moment) (time : LocalTime) (inland : time.Inland)
    (left : 0 < (Clock.inZone (seasonal standard summer toSummer toStandard) instant).untilTime time) :
    (seasonal standard summer toSummer toStandard).LeadsTo instant time := by
  obtain ⟨moment, resolved⟩ : ∃ moment, (seasonal standard summer toSummer toStandard).resolve? time = some moment := by
    rw [← Option.ne_none_iff_exists']
    intro none
    rw [until_unresolved _ time instant none] at left
    exact Nat.lt_irrefl 0 left
  have reached : instant.nanos + (Clock.inZone (seasonal standard summer toSummer toStandard) instant).untilTime time =
      moment.nanos := by
    rw [until_resolved _ time instant moment resolved] at left ⊢
    omega
  unfold LeadsTo
  rw [reached]
  refine ⟨fun shown => ?_, unshown_resolves seasons hour time inland moment resolved⟩
  obtain ⟨offset, -, shownThen, found⟩ := shown_resolves time seasons (by omega) inland shown
  obtain rfl := Option.some.inj (resolved.symm.trans found)
  exact (shown_iff _ time _).mpr ⟨offset, rfl, shownThen⟩

-- A day after the turn of the year neither change has come, whichever of the offsets the clock has.
theorem second_day_outside (apart : KeepsApart standard summer toSummer toStandard) (hour : summer = standard + 3600)
    (year other second : Int) (early : yearSecond year + 86400 - summer ≤ second)
    (late : second ≤ yearSecond year + 86400 - standard) :
    ¬ (toSummer.localSecond other - standard ≤ second ∧ second < toStandard.localSecond other - summer) ∧
      ¬ (toStandard.localSecond other - summer ≤ second ∧ second < toSummer.localSecond other - standard) := by
  have inYear := apart.in_year other
  rcases Int.lt_or_le other year with earlier | later
  · have years := year_second_mono (other + 1) year earlier
    omega
  · have years := year_second_mono year other later
    omega

theorem second_day_offset (apart : KeepsApart standard summer toSummer toStandard) (hour : summer = standard + 3600)
    (year : Int) (time : LocalTime) (second : time.wholeSecond = yearSecond year + 86400) (offset : Int)
    (close : offset = standard ∨ offset = summer) :
    (seasonal standard summer toSummer toStandard).offsetAt (time.under offset) =
      if toSummer.localSecond year < toStandard.localSecond year then standard else summer := by
  have outside (other : Int) := second_day_outside apart hour year other (time.wholeSecond - offset) (by omega) (by omega)
  have low := apart.low
  have high := apart.high
  have inYear := apart.in_year year
  have sameYear : yearOf ((time.wholeSecond - offset) / 86400) = year := year_of_second_eq _ year (by omega) (by omega)
  have starts : toSummer.localSecond year - standard ≤ toStandard.localSecond year - summer ↔
      toSummer.localSecond year < toStandard.localSecond year := by
    rcases apart.changes year with north | south
    · have between := north.apart
      omega
    · have between := south.apart
      omega
  simp only [offsetAt, time.second_under, sameYear, starts]
  by_cases north : toSummer.localSecond year < toStandard.localSecond year
  · simp only [if_pos north]
    refine if_neg fun during => ?_
    obtain ⟨other, -, inSummer⟩ := List.any_eq_true.mp during
    exact (outside other).1 (by simpa only [Bool.and_eq_true, decide_eq_true_eq] using inSummer)
  · simp only [if_neg north]
    refine if_pos ((Bool.not_eq_true' _).mpr (List.any_eq_false.mpr fun other _ inWinter => ?_))
    exact (outside other).2 (by simpa only [Bool.and_eq_true, decide_eq_true_eq] using inWinter)

theorem second_day_meaning (apart : KeepsApart standard summer toSummer toStandard) (hour : summer = standard + 3600)
    (year : Int) (time : LocalTime) (second : time.wholeSecond = yearSecond year + 86400) :
    (seasonal standard summer toSummer toStandard).meaning time =
      .unique (if toSummer.month < toStandard.month then standard else summer) := by
  obtain ⟨⟨forward, ends⟩, back, -⟩ := apart.in_year year
  have sameYear : yearOf time.day = year := (time.in_year_iff year).mpr (by omega)
  have winter : time.nanos / 1000000000 ≤ toSummer.localSecond year := by
    change time.wholeSecond ≤ _
    omega
  have unended : time.nanos / 1000000000 < toStandard.localSecond year - (summer - standard) := by
    change time.wholeSecond < _
    omega
  simp only [meaning, sameYear, if_pos winter, if_pos unended]
  split_ifs
  · rfl
  · rfl

-- Asked a nanosecond before the instant that is looked up.
theorem unique_shown (zone : Zone) (time : LocalTime) (inland : time.Inland) (offset : Int)
    (small : -86400 < offset ∧ offset < 86400) (read : zone.meaning time = .unique offset) (shown : zone.Shows time)
    (leads : ∀ instant, 0 < (Clock.inZone zone instant).untilTime time → zone.LeadsTo instant time) :
    zone.ShowsUnder time offset := by
  obtain ⟨low, high⟩ := inland
  obtain ⟨moment, found⟩ := moment_at_inside time offset (by omega) (by omega) small
  have resolved : zone.resolve? time = some moment := by
    simp only [resolve?, listed?, read, found]
  have left : (Clock.inZone zone ⟨moment.nanos - 1⟩).untilTime time = 1 := by
    rw [zone.until_resolved time _ moment resolved]
    change (moment.nanos - (moment.nanos - 1)).toNat = 1
    omega
  have reached := (leads ⟨moment.nanos - 1⟩ (by omega)).1 shown
  rw [left, show moment.nanos - 1 + (1 : Nat) = moment.nanos by omega] at reached
  obtain ⟨rfl, -⟩ := (moment_at_iff time offset moment).mp found
  obtain ⟨under, same, shownUnder⟩ := (shown_iff zone time _).mp reached
  have equal : under = offset := by
    have nanos := congrArg Moment.nanos same
    simp only [LocalTime.under] at nanos
    omega
  rwa [equal] at shownUnder

theorem second_day_inland (year : Int) (low : 2000 ≤ year) (high : year < 2400) (time : LocalTime)
    (second : time.wholeSecond = yearSecond year + 86400) : time.Inland := by
  have first := year_start_mono 2000 year low
  have last := year_start_mono year 2400 (Int.le_of_lt high)
  have begins : firstDay + 2 ≤ yearStart 2000 := by decide
  have ends : yearStart 2400 + 3 ≤ lastDay := by decide
  have day : time.day = yearStart year + 1 := by
    simp only [LocalTime.wholeSecond, yearSecond] at second
    simp only [LocalTime.day, LocalTime.dayLength]
    omega
  unfold LocalTime.Inland
  omega

theorem ordered_of_leads (apart : KeepsApart standard summer toSummer toStandard) (hour : summer = standard + 3600)
    (leads : ∀ instant time, time.Inland →
      0 < (Clock.inZone (seasonal standard summer toSummer toStandard) instant).untilTime time →
        (seasonal standard summer toSummer toStandard).LeadsTo instant time) :
    toSummer.OrderedByMonth toStandard := by
  intro year
  obtain ⟨year, cycles, rfl, low, high⟩ := year_in_cycle year
  rw [toSummer.local_second_cycle, toStandard.local_second_cycle, Int.add_lt_add_iff_right]
  obtain ⟨time, second⟩ : ∃ time : LocalTime, time.wholeSecond = yearSecond year + 86400 :=
    ⟨⟨(yearSecond year + 86400) * 1000000000⟩, Int.mul_ediv_cancel _ (by decide)⟩
  have inland := second_day_inland year low high time second
  have close (north : Prop) [Decidable north] : (if north then standard else summer) = standard ∨
      (if north then standard else summer) = summer := by
    split_ifs
    · exact .inl rfl
    · exact .inr rfl
  have kept (north : Prop) [Decidable north] := second_day_offset apart hour year time second _ (close north)
  have read := second_day_meaning apart hour year time second
  have shown := (shows_iff _ time).mpr ⟨_, kept (toSummer.localSecond year < toStandard.localSecond year)⟩
  have small : -86400 < standard ∧ summer < 86400 := ⟨apart.low, apart.high⟩
  have readShown := unique_shown _ time inland _ (by split_ifs <;> omega) read shown fun instant => leads instant time inland
  have same := readShown.symm.trans (kept (toSummer.month < toStandard.month))
  split_ifs at same with months dates dates
  · exact iff_of_true months dates
  · omega
  · omega
  · exact iff_of_false months dates

end

theorem span_leads_to_wall_time_iff (standard summer : Int) (toSummer toStandard : ChangeRule)
    (apart : KeepsApart standard summer toSummer toStandard) (hour : summer = standard + 3600) :
    let zone := seasonal standard summer toSummer toStandard
    ((∀ instant time, time.Inland → 0 < (Clock.inZone zone instant).untilTime time → zone.LeadsTo instant time) ↔
        toSummer.OrderedByMonth toStandard) ∧
      (toSummer.OrderedByMonth toStandard → ∀ time,
        ¬ zone.Shows time ↔ toSummer.localSecond (yearOf time.day) ≤ time.wholeSecond ∧
          time.wholeSecond < toSummer.localSecond (yearOf time.day) + 3600) := by
  intro zone
  have seasons := seasons_iff (by omega) apart
  refine ⟨⟨ordered_of_leads apart hour, fun ordered instant time inland left => ?_⟩, fun ordered time => ?_⟩
  · exact leads_to_wall_time (seasons.mpr ordered) hour instant time inland left
  · have gap : summer - standard = 3600 := by omega
    have piece := not_shown_iff time (seasons.mpr ordered) (by omega)
    rwa [SkippedPiece, gap] at piece

open Controller (oneHourZone one_hour_zone_orderly utcMoment)

theorem half_second_leads_an_hour_on :
    let time := LocalTime.ofParts ⟨2024, 3, 31⟩ 2 0 0 500000000
    let evening := utcMoment ⟨2024, 3, 30⟩ 22 0
    let left := (Clock.inZone oneHourZone evening).untilTime time
    KeepsApart 3600 7200 ⟨3, 5, 0, 7200⟩ ⟨10, 5, 0, 10800⟩ ∧ (⟨3, 5, 0, 7200⟩ : ChangeRule).OrderedByMonth ⟨10, 5, 0, 10800⟩ ∧
      time.Inland ∧ left = Span.ofSeconds 10800 + 500000000 ∧ ¬ oneHourZone.Shows time ∧
        oneHourZone.localTime ⟨evening.nanos + left⟩ = time.addSeconds 3600 := by
  unfold oneHourZone
  intro time evening left
  have seasons : Seasons 3600 7200 ⟨3, 5, 0, 7200⟩ ⟨10, 5, 0, 10800⟩ := one_hour_zone_orderly
  have ordered := (seasons_iff (by decide) seasons.keeps_apart).mp seasons
  have inland : time.Inland := by decide +kernel
  have span : left = Span.ofSeconds 10800 + 500000000 := by decide +kernel
  obtain ⟨leads, skipped⟩ := span_leads_to_wall_time_iff 3600 7200 ⟨3, 5, 0, 7200⟩ ⟨10, 5, 0, 10800⟩ seasons.keeps_apart
    (by decide)
  have unshown := (skipped ordered time).mpr ⟨by decide +kernel, by decide +kernel⟩
  have later := (leads.mpr ordered evening time inland (by decide +kernel)).2 unshown
  exact ⟨seasons.keeps_apart, ordered, inland, span, unshown, later⟩

-- Summer is from the first to the last Sunday of May.
def mayZone : Zone := .seasonal 0 3600 ⟨5, 1, 0, 3600⟩ ⟨5, 5, 0, 7200⟩

theorem two_changes_in_may_lead_an_hour_back :
    let time := LocalTime.ofParts ⟨2024, 1, 15⟩ 12 0 0 0
    let newYear := utcMoment ⟨2024, 1, 1⟩ 0 0
    let left := (Clock.inZone mayZone newYear).untilTime time
    KeepsApart 0 3600 ⟨5, 1, 0, 3600⟩ ⟨5, 5, 0, 7200⟩ ∧ time.Inland ∧ left = Span.ofSeconds 1249200 ∧
      mayZone.Shows time ∧ mayZone.localTime ⟨newYear.nanos + left⟩ = time.addSeconds (-3600) ∧
        ¬ mayZone.LeadsTo newYear time := by
  intro time newYear left
  have shown : mayZone.Shows time := ⟨utcMoment ⟨2024, 1, 15⟩ 12 0, by decide +kernel⟩
  have reached : mayZone.localTime ⟨newYear.nanos + left⟩ = time.addSeconds (-3600) := by decide +kernel
  have apart (year : Int) := ChangeRule.precedes_of_cycle ⟨5, 1, 0, 3600⟩ ⟨5, 5, 0, 7200⟩ (by decide +kernel) year
  refine ⟨⟨by decide, by decide, fun year => .inl (apart year)⟩, by decide +kernel, by decide +kernel, shown, reached, ?_⟩
  intro leads
  exact absurd (reached.symm.trans (leads.1 shown)) (by decide +kernel)

end Zone
end AlarmClock
