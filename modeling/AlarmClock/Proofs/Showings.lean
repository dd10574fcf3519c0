import AlarmClock.Proofs.LocalOrder

set_option autoImplicit false

namespace AlarmClock

open Calendar

namespace LocalTime

def under (time : LocalTime) (offset : Int) : Moment := ⟨time.nanos - offset * 1000000000⟩

theorem second_under (time : LocalTime) (offset : Int) :
    (time.under offset).nanos / 1000000000 = time.wholeSecond - offset := by
  simp only [under, wholeSecond]
  omega

theorem in_year_iff (time : LocalTime) (year : Int) :
    yearOf time.day = year ↔ yearSecond year ≤ time.wholeSecond ∧ time.wholeSecond < yearSecond (year + 1) := by
  obtain ⟨begun, before⟩ := time.in_year
  constructor
  · rintro rfl
    exact ⟨begun, before⟩
  · rintro ⟨low, high⟩
    rcases Int.lt_trichotomy (yearOf time.day) year with earlier | same | later
    · have years := year_second_mono (yearOf time.day + 1) year earlier
      omega
    · exact same
    · have years := year_second_mono (year + 1) (yearOf time.day) later
      omega

theorem between_iff (time : LocalTime) (first second : ChangeRule) (changes : ∀ year, first.Precedes second year)
    (after before : Int) (begins : -172800 ≤ after) (ends : before ≤ 172800) :
    (∃ year, first.localSecond year + after ≤ time.wholeSecond ∧ time.wholeSecond < second.localSecond year + before) ↔
      first.localSecond (yearOf time.day) + after ≤ time.wholeSecond ∧
        time.wholeSecond < second.localSecond (yearOf time.day) + before := by
  constructor
  · rintro ⟨year, begun, passes⟩
    have inside := (changes year).begins
    have apart := (changes year).ends
    obtain rfl := (time.in_year_iff year).mpr (by omega)
    exact ⟨begun, passes⟩
  · exact fun during => ⟨_, during⟩

end LocalTime

namespace Zone

def Shows (zone : Zone) (time : LocalTime) : Prop := ∃ moment, zone.localTime moment = time

def ShowsUnder (zone : Zone) (time : LocalTime) (offset : Int) : Prop := zone.offsetAt (time.under offset) = offset

theorem shown_iff (zone : Zone) (time : LocalTime) (moment : Moment) :
    zone.localTime moment = time ↔ ∃ offset, moment = time.under offset ∧ zone.ShowsUnder time offset := by
  constructor
  · rintro rfl
    have same : moment = (zone.localTime moment).under (zone.offsetAt moment) :=
      congrArg Moment.mk (show moment.nanos = moment.nanos + _ - _ by omega)
    exact ⟨zone.offsetAt moment, same, congrArg zone.offsetAt same.symm⟩
  · rintro ⟨offset, rfl, shown⟩
    refine congrArg LocalTime.mk ?_
    rw [shown]
    exact Int.sub_add_cancel _ _

theorem shows_iff (zone : Zone) (time : LocalTime) : zone.Shows time ↔ ∃ offset, zone.ShowsUnder time offset := by
  simp only [Shows, shown_iff]
  exact ⟨fun ⟨_, offset, _, shown⟩ => ⟨offset, shown⟩, fun ⟨offset, shown⟩ => ⟨_, offset, rfl, shown⟩⟩

theorem moment_at_iff (time : LocalTime) (offset : Int) (moment : Moment) :
    momentAt? time offset = some moment ↔ moment = time.under offset ∧ (LocalTime.mk moment.nanos).InCalendar := by
  have same : (⟨(time.addSeconds (-offset)).nanos⟩ : Moment) = time.under offset := by
    simp only [LocalTime.under, LocalTime.addSeconds, LocalTime.addNanos, Moment.mk.injEq]
    omega
  rw [momentAt?, same, Option.ite_none_right_eq_some, Option.some.injEq, and_comm, eq_comm]
  refine and_congr_right fun found => ?_
  rw [found, ← same]

theorem listed_under (zone : Zone) (time : LocalTime) (moment : Moment) (found : zone.listed? time = some moment) :
    ∃ offset, (zone.meaning time).offset? = some offset ∧ moment = time.under offset := by
  obtain ⟨offset, looked, nanos⟩ := zone.listed_some time moment found
  exact ⟨offset, looked, congrArg Moment.mk nanos⟩

section

variable {standard summer : Int} {toSummer toStandard : ChangeRule} (time : LocalTime)

theorem shows_under_cases {offset : Int} (shown : (seasonal standard summer toSummer toStandard).ShowsUnder time offset) :
    offset = standard ∨ offset = summer := by
  rw [← show _ = offset from shown]
  exact offset_at_cases

theorem offset_summer_iff (order : standard < summer) (instant : Moment) :
    (seasonal standard summer toSummer toStandard).offsetAt instant = summer ↔
      ¬ (seasonal standard summer toSummer toStandard).offsetAt instant = standard := by
  have either : (seasonal standard summer toSummer toStandard).offsetAt instant = standard ∨ _ := offset_at_cases
  rcases either with same | same
  · exact iff_of_false (by rw [same]; exact Int.ne_of_lt order) (not_not.mpr same)
  · exact iff_of_true same (by rw [same]; exact Int.ne_of_gt order)

-- The standard offset lasts up to the change forward and comes again with the change back. A clock that does not have the
-- offset before the change shows another second then, by the difference of the offsets.
theorem standard_under_iff (seasons : Seasons standard summer toSummer toStandard) (offset : Int)
    (close : offset = standard ∨ offset = summer) :
    (seasonal standard summer toSummer toStandard).offsetAt (time.under offset) = standard ↔
      if toSummer.month < toStandard.month then
        time.wholeSecond < toSummer.localSecond (yearOf time.day) + (offset - standard) ∨
          toStandard.localSecond (yearOf time.day) + (offset - summer) ≤ time.wholeSecond
      else
        toStandard.localSecond (yearOf time.day) + (offset - summer) ≤ time.wholeSecond ∧
          time.wholeSecond < toSummer.localSecond (yearOf time.day) + (offset - standard) := by
  have low := seasons.low
  have order := seasons.order
  have high := seasons.high
  have changes := seasons.changes
  by_cases north : toSummer.month < toStandard.month
  · simp only [if_pos north] at changes ⊢
    have during := time.between_iff toSummer toStandard changes (offset - standard) (offset - summer) (by omega) (by omega)
    have summery : (seasonal standard summer toSummer toStandard).offsetAt (time.under offset) = summer ↔ _ :=
      summer_iff seasons changes
    rw [offset_summer_iff order, time.second_under] at summery
    rw [← not_iff_not, summery, not_or, Int.not_lt, Int.not_le, ← during]
    exact exists_congr fun year => by omega
  · simp only [if_neg north] at changes ⊢
    have during := time.between_iff toStandard toSummer changes (offset - summer) (offset - standard) (by omega) (by omega)
    rw [standard_iff seasons changes, time.second_under, ← during]
    exact exists_congr fun year => by omega

theorem changes_apart (seasons : Seasons standard summer toSummer toStandard) (year : Int) :
    if toSummer.month < toStandard.month then toSummer.localSecond year + 172800 ≤ toStandard.localSecond year
    else toStandard.localSecond year + 172800 ≤ toSummer.localSecond year := by
  have precedes := seasons.changes year
  split_ifs at precedes ⊢
  · exact precedes.apart
  · exact precedes.apart

def RepeatedPiece (standard summer : Int) (toStandard : ChangeRule) (second year : Int) : Prop :=
  toStandard.localSecond year - (summer - standard) ≤ second ∧ second < toStandard.localSecond year

section

-- With a gap of more than a day the change back could repeat times that the change forward leaves out.
variable (seasons : Seasons standard summer toSummer toStandard) (short : summer - standard ≤ 86400)
include seasons short

theorem shows_standard_iff :
    (seasonal standard summer toSummer toStandard).ShowsUnder time standard ↔
      StandardPiece standard summer toSummer toStandard time.wholeSecond (yearOf time.day) ∧
        time.wholeSecond ≠ toSummer.localSecond (yearOf time.day) := by
  refine (standard_under_iff time seasons standard (.inl rfl)).trans ?_
  have apart := changes_apart seasons (yearOf time.day)
  unfold StandardPiece
  split_ifs at apart ⊢
  · omega
  · omega

theorem shows_summer_iff :
    (seasonal standard summer toSummer toStandard).ShowsUnder time summer ↔
      SummerPiece standard summer toSummer toStandard time.wholeSecond (yearOf time.day) ∨
        RepeatedPiece standard summer toStandard time.wholeSecond (yearOf time.day) := by
  have winter := standard_under_iff time seasons summer (.inr rfl)
  refine (offset_summer_iff seasons.order _).trans ((not_congr winter).trans ?_)
  have order := seasons.order
  have apart := changes_apart seasons (yearOf time.day)
  unfold SummerPiece RepeatedPiece
  split_ifs at apart ⊢
  · omega
  · omega

theorem not_shown_iff :
    ¬ (seasonal standard summer toSummer toStandard).Shows time ↔
      SkippedPiece standard summer toSummer time.wholeSecond (yearOf time.day) := by
  have either : (seasonal standard summer toSummer toStandard).Shows time ↔
      (seasonal standard summer toSummer toStandard).ShowsUnder time standard ∨
        (seasonal standard summer toSummer toStandard).ShowsUnder time summer := by
    rw [shows_iff]
    constructor
    · rintro ⟨offset, shown⟩
      rcases shows_under_cases time shown with rfl | rfl
      · exact .inl shown
      · exact .inr shown
    · rintro (shown | shown)
      · exact ⟨_, shown⟩
      · exact ⟨_, shown⟩
  rw [either, shows_standard_iff time seasons short, shows_summer_iff time seasons short]
  have order := seasons.order
  have apart := changes_apart seasons (yearOf time.day)
  unfold StandardPiece SummerPiece RepeatedPiece SkippedPiece
  split_ifs at apart ⊢
  · omega
  · omega

theorem shown_twice_iff :
    (seasonal standard summer toSummer toStandard).ShowsUnder time standard ∧
        (seasonal standard summer toSummer toStandard).ShowsUnder time summer ↔
      RepeatedPiece standard summer toStandard time.wholeSecond (yearOf time.day) := by
  rw [shows_standard_iff time seasons short, shows_summer_iff time seasons short]
  have order := seasons.order
  have apart := changes_apart seasons (yearOf time.day)
  unfold StandardPiece SummerPiece RepeatedPiece
  split_ifs at apart ⊢
  · omega
  · omega

-- A time is looked up under an offset under which the clock shows it. The one exception are the times of the second of
-- the change forward.
theorem looked_shown (offset : Int)
    (looked : ((seasonal standard summer toSummer toStandard).meaning time).offset? = some offset) :
    (seasonal standard summer toSummer toStandard).ShowsUnder time offset ∨
      offset = standard ∧ time.wholeSecond = toSummer.localSecond (yearOf time.day) := by
  rcases looked_cases time offset looked with rfl | rfl
  · by_cases last : time.wholeSecond = toSummer.localSecond (yearOf time.day)
    · exact .inr ⟨rfl, last⟩
    · exact .inl ((shows_standard_iff time seasons short).mpr ⟨standard_piece time seasons looked, last⟩)
  · exact .inl ((shows_summer_iff time seasons short).mpr (.inl (summer_piece time seasons looked)))

theorem last_second_shown (last : time.wholeSecond = toSummer.localSecond (yearOf time.day)) :
    (seasonal standard summer toSummer toStandard).localTime (time.under standard) =
      time.addSeconds (summer - standard) := by
  have unshown : ¬ (seasonal standard summer toSummer toStandard).ShowsUnder time standard := by
    rw [shows_standard_iff time seasons short]
    exact fun shown => shown.2 last
  have summery := (offset_summer_iff seasons.order (time.under standard)).mpr unshown
  rw [localTime, summery]
  simp only [LocalTime.under, LocalTime.addSeconds, LocalTime.addNanos, LocalTime.mk.injEq]
  omega

theorem shown_resolves (inland : time.Inland) (shown : (seasonal standard summer toSummer toStandard).Shows time) :
    ∃ offset, ((seasonal standard summer toSummer toStandard).meaning time).offset? = some offset ∧
      (seasonal standard summer toSummer toStandard).ShowsUnder time offset ∧
        (seasonal standard summer toSummer toStandard).resolve? time = some (time.under offset) := by
  have orderly : (seasonal standard summer toSummer toStandard).Orderly := seasons
  have unskipped : ¬ SkippedPiece standard summer toSummer time.wholeSecond (yearOf time.day) :=
    mt (not_shown_iff time seasons short).mpr (not_not.mpr shown)
  obtain ⟨low, high⟩ := inland
  obtain ⟨moment, listed⟩ := listed_inside _ orderly time (by omega) (by omega) (mt (skipped_piece time seasons) unskipped)
  obtain ⟨offset, looked, rfl⟩ := listed_under _ time moment listed
  refine ⟨offset, looked, ?_, by rw [resolve?, listed]⟩
  rcases looked_shown time seasons short offset looked with shownThen | ⟨-, last⟩
  · exact shownThen
  · have order := seasons.order
    unfold SkippedPiece at unskipped
    omega

end

end
end Zone
end AlarmClock
