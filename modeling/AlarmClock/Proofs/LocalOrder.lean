import AlarmClock.Proofs.Resolution

set_option autoImplicit false

namespace AlarmClock

open Calendar

def LocalTime.Whole (time : LocalTime) : Prop := time.nanos % 1000000000 = 0

theorem LocalTime.whole_order (a b : LocalTime) (whole : a.Whole) (otherWhole : b.Whole) :
    a < b ↔ a.wholeSecond < b.wholeSecond := by
  change a.nanos < b.nanos ↔ _
  unfold Whole at whole otherWhole
  unfold wholeSecond
  omega

theorem LocalTime.whole_nanos (time : LocalTime) (whole : time.Whole) : time.nanos = time.wholeSecond * 1000000000 := by
  unfold Whole at whole
  unfold wholeSecond
  omega

theorem LocalTime.whole_second_add (time : LocalTime) (seconds : Int) :
    (time.addSeconds seconds).wholeSecond = time.wholeSecond + seconds := by
  simp only [wholeSecond, addSeconds, addNanos]
  omega

namespace Zone

def gap : Zone → Int
  | .fixed _ => 0
  | .seasonal standard summer _ _ => summer - standard

def standsFor (zone : Zone) (time : LocalTime) : LocalTime := if zone.Skips time then time.addSeconds 3600 else time

theorem stands_for_skipped (zone : Zone) (time : LocalTime) (skipped : zone.Skips time) :
    zone.standsFor time = time.addSeconds 3600 := if_pos skipped

theorem stands_for_shown (zone : Zone) (time : LocalTime) (shown : ¬ zone.Skips time) : zone.standsFor time = time :=
  if_neg shown

theorem lost_iff (zone : Zone) (time : LocalTime) : zone.Lost time ↔ zone.Skips (zone.standsFor time) := by
  unfold Lost
  by_cases skipped : zone.Skips time
  · rw [zone.stands_for_skipped time skipped]
    exact and_iff_right skipped
  · rw [zone.stands_for_shown time skipped]
    exact and_iff_left_of_imp fun again => absurd again skipped

theorem stands_for_whole (zone : Zone) (time : LocalTime) (whole : time.Whole) : (zone.standsFor time).Whole := by
  unfold standsFor LocalTime.Whole at *
  split
  · simp only [LocalTime.addSeconds, LocalTime.addNanos]
    omega
  · exact whole

theorem stands_for_later (zone : Zone) (time : LocalTime) : time ≤ zone.standsFor time := by
  unfold standsFor
  split
  · change time.nanos ≤ time.nanos + 3600 * 1000000000
    omega
  · exact Int.le_refl _

theorem listed_skipped (zone : Zone) (time : LocalTime) (skipped : zone.Skips time) : zone.listed? time = none := by
  unfold listed?
  rw [show zone.meaning time = .skipped from skipped]

theorem resolve_stands (zone : Zone) (orderly : zone.Orderly) (time : LocalTime) (inland : time.Inland) :
    zone.resolve? time = zone.listed? (zone.standsFor time) := by
  obtain ⟨low, high⟩ := inland
  unfold resolve?
  by_cases skipped : zone.Skips time
  · have inside : (time.addSeconds 3600).InCalendar := by
      simp only [LocalTime.InCalendar, LocalTime.day, LocalTime.addSeconds, LocalTime.addNanos, LocalTime.dayLength] at *
      omega
    rw [zone.listed_skipped time skipped, zone.stands_for_skipped time skipped]
    exact if_pos inside
  · obtain ⟨moment, found⟩ := zone.listed_inside orderly time (by omega) (by omega) skipped
    rw [zone.stands_for_shown time skipped, found]

theorem resolve_none_iff (zone : Zone) (orderly : zone.Orderly) (time : LocalTime) (inland : time.Inland) :
    zone.resolve? time = none ↔ zone.Lost time := by
  rw [zone.resolve_stands orderly time inland, lost_iff]
  constructor
  · intro missing
    by_contra shown
    have near : firstDay + 1 ≤ (zone.standsFor time).day ∧ (zone.standsFor time).day + 1 ≤ lastDay := by
      unfold standsFor LocalTime.Inland at *
      split
      · simp only [LocalTime.day, LocalTime.addSeconds, LocalTime.addNanos, LocalTime.dayLength] at *
        omega
      · omega
    obtain ⟨moment, found⟩ := zone.listed_inside orderly (zone.standsFor time) near.1 near.2 shown
    rw [found] at missing
    cases missing
  · exact zone.listed_skipped _

theorem year_order (a b : LocalTime) (order : a.wholeSecond ≤ b.wholeSecond) : yearOf a.day ≤ yearOf b.day := by
  apply Int.not_lt.mp
  intro earlier
  have years := year_second_mono (yearOf b.day + 1) (yearOf a.day) earlier
  have begun := a.in_year.1
  have ends := b.in_year.2
  omega

-- A gap of an hour is too short to skip two times that are an hour apart.
theorem never_lost (zone : Zone) (orderly : zone.Orderly) (short : zone.gap ≤ 3600) (time : LocalTime) :
    ¬ zone.Lost time := by
  rintro ⟨skipped, again⟩
  cases zone with
  | fixed offset => cases skipped
  | seasonal standard summer toSummer toStandard =>
      have seasons : Seasons standard summer toSummer toStandard := orderly
      obtain ⟨begun, before⟩ := skipped_piece time seasons skipped
      obtain ⟨begunAgain, beforeAgain⟩ := skipped_piece (time.addSeconds 3600) seasons again
      have later := time.whole_second_add 3600
      have gap : summer - standard ≤ 3600 := short
      rcases Int.lt_or_eq_of_le (year_order time (time.addSeconds 3600) (by omega)) with earlier | same
      · have apart := forward_apart standard summer toSummer toStandard seasons _ _ earlier
        omega
      · rw [← same] at begunAgain beforeAgain
        omega

-- Listed times keep their order. Two of them are at the same instant only where the first is the last one before summer.
theorem listed_order (zone : Zone) (orderly : zone.Orderly) (a b : LocalTime) (first second : Moment) (whole : a.Whole)
    (otherWhole : b.Whole) (found : zone.listed? a = some first) (otherFound : zone.listed? b = some second)
    (order : a < b) :
    first.nanos < second.nanos ∨ first = second ∧
      ∃ standard summer toSummer toStandard, zone = .seasonal standard summer toSummer toStandard ∧
        a.wholeSecond = toSummer.localSecond (yearOf a.day) := by
  obtain ⟨offset, looked, nanos⟩ := zone.listed_some a first found
  obtain ⟨otherOffset, otherLooked, otherNanos⟩ := zone.listed_some b second otherFound
  rw [a.whole_nanos whole] at nanos
  rw [b.whole_nanos otherWhole] at otherNanos
  rw [LocalTime.whole_order a b whole otherWhole] at order
  cases zone with
  | fixed constant =>
      obtain rfl : constant = offset := Option.some.inj looked
      obtain rfl : constant = otherOffset := Option.some.inj otherLooked
      exact .inl (by omega)
  | seasonal standard summer toSummer toStandard =>
      have seasons : Seasons standard summer toSummer toStandard := orderly
      have standardFirst := seasons.order
      rcases looked_cases a offset looked with rfl | rfl
      · rcases looked_cases b otherOffset otherLooked with rfl | rfl
        · exact .inl (by omega)
        · rcases gap_between a seasons b looked otherLooked order with apart | ⟨adjacent, last⟩
          · exact .inl (by omega)
          · refine .inr ⟨?_, _, _, toSummer, toStandard, rfl, last⟩
            exact congrArg Moment.mk (show first.nanos = second.nanos by omega)
      · rcases looked_cases b otherOffset otherLooked with rfl | rfl
        · exact .inl (by omega)
        · exact .inl (by omega)

theorem listed_after_skipped (zone : Zone) (orderly : zone.Orderly) (skipped a b : LocalTime) (first second : Moment)
    (skips : zone.Skips skipped) (whole : skipped.Whole) (firstWhole : a.Whole) (secondWhole : b.Whole)
    (after : skipped < a) (order : a < b) (near : b ≤ skipped.addSeconds 3600) (found : zone.listed? a = some first)
    (otherFound : zone.listed? b = some second) : first.nanos < second.nanos := by
  rcases zone.listed_order orderly a b first second firstWhole secondWhole found otherFound order with
    earlier | ⟨-, standard, summer, toSummer, toStandard, rfl, last⟩
  · exact earlier
  · have seasons : Seasons standard summer toSummer toStandard := orderly
    obtain ⟨begun, before⟩ := skipped_piece skipped seasons skips
    rw [LocalTime.whole_order _ _ whole firstWhole] at after
    rw [LocalTime.whole_order _ _ firstWhole secondWhole] at order
    have hour : b.wholeSecond ≤ skipped.wholeSecond + 3600 := by
      rw [← skipped.whole_second_add]
      exact Int.ediv_le_ediv (by decide) near
    -- the exception is at the beginning of summer, which is before the skipped time, or a year later
    obtain ⟨low, -, high, -⟩ := seasons
    rcases Int.lt_or_eq_of_le (year_order skipped a (Int.le_of_lt after)) with earlier | same
    · have apart := forward_apart standard summer toSummer toStandard orderly _ _ earlier
      omega
    · rw [← same] at last
      omega

theorem stands_order_iff (zone : Zone) (orderly : zone.Orderly) (a b : LocalTime) (first second : Moment) (whole : a.Whole)
    (otherWhole : b.Whole) (order : a ≤ b) (found : zone.listed? (zone.standsFor a) = some first)
    (otherFound : zone.listed? (zone.standsFor b) = some second) :
    first.nanos ≤ second.nanos ↔ zone.standsFor a ≤ zone.standsFor b := by
  have wholes := zone.stands_for_whole a whole
  have otherWholes := zone.stands_for_whole b otherWhole
  constructor
  · intro inOrder
    apply Int.not_lt.mp
    intro reversed
    by_cases skipped : zone.Skips a
    · rw [zone.stands_for_skipped a skipped] at found wholes reversed
      by_cases both : zone.Skips b
      · rw [zone.stands_for_skipped b both] at reversed
        change a.nanos ≤ b.nanos at order
        change b.nanos + 3600 * 1000000000 < a.nanos + 3600 * 1000000000 at reversed
        omega
      · rw [zone.stands_for_shown b both] at otherFound reversed
        have after : a < b := by
          rcases Int.lt_or_eq_of_le order with after | same
          · exact after
          · have times : a = b := congrArg LocalTime.mk same
            rw [times] at skipped
            exact absurd skipped both
        have earlier := zone.listed_after_skipped orderly a b _ second first skipped whole otherWhole wholes after reversed
          (Int.le_refl _) otherFound found
        omega
    · rw [zone.stands_for_shown a skipped] at reversed
      exact absurd (Int.le_trans order (zone.stands_for_later b)) (Int.not_le.mpr reversed)
  · intro inOrder
    rcases Int.lt_or_eq_of_le inOrder with before | same
    · rcases zone.listed_order orderly _ _ first second wholes otherWholes found otherFound before with earlier | ⟨rfl, -⟩
      · exact Int.le_of_lt earlier
      · exact Int.le_refl _
    · have times : zone.standsFor a = zone.standsFor b := congrArg LocalTime.mk same
      rw [times] at found
      obtain rfl := Option.some.inj (found.symm.trans otherFound)
      exact Int.le_refl _

end Zone
end AlarmClock
