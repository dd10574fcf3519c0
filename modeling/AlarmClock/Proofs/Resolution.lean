import AlarmClock.Proofs.Seasons
import Mathlib.Tactic.SplitIfs

set_option autoImplicit false

namespace AlarmClock

open Calendar

namespace LocalTime

def wholeSecond (time : LocalTime) : Int := time.nanos / 1000000000

-- The time is more than a day, and what an hour adds, from the ends of the calendar.
def Inland (time : LocalTime) : Prop := firstDay + 2 ≤ time.day ∧ time.day + 2 ≤ lastDay

instance (time : LocalTime) : Decidable time.Inland := inferInstanceAs (Decidable (_ ∧ _))

theorem in_year (time : LocalTime) :
    yearSecond (yearOf time.day) ≤ time.wholeSecond ∧ time.wholeSecond < yearSecond (yearOf time.day + 1) := by
  have day : time.day = time.wholeSecond / 86400 := by
    simp only [LocalTime.day, dayLength, wholeSecond]
    omega
  rw [day]
  exact year_of_second time.wholeSecond

end LocalTime

def LocalMeaning.offset? : LocalMeaning → Option Int
  | .unique offset | .repeated offset _ => some offset
  | .skipped => none

namespace Zone

def Skips (zone : Zone) (time : LocalTime) : Prop := zone.meaning time = .skipped

instance (zone : Zone) (time : LocalTime) : Decidable (zone.Skips time) := inferInstanceAs (Decidable (_ = _))

-- The clock skips the time, and also the one for which it would stand.
def Lost (zone : Zone) (time : LocalTime) : Prop := zone.Skips time ∧ zone.Skips (time.addSeconds 3600)

instance (zone : Zone) (time : LocalTime) : Decidable (zone.Lost time) := inferInstanceAs (Decidable (_ ∧ _))

theorem skips_iff (zone : Zone) (time : LocalTime) : zone.Skips time ↔ (zone.meaning time).offset? = none := by
  unfold Skips
  cases zone.meaning time with
  | unique offset => simp [LocalMeaning.offset?]
  | skipped => simp [LocalMeaning.offset?]
  | repeated first second => simp [LocalMeaning.offset?]

theorem moment_at_some (time : LocalTime) (offset : Int) (moment : Moment) (found : momentAt? time offset = some moment) :
    moment.nanos = time.nanos - offset * 1000000000 := by
  unfold momentAt? at found
  split at found
  · obtain rfl := Option.some.inj found
    simp only [LocalTime.addSeconds, LocalTime.addNanos]
    omega
  · cases found

theorem listed_some (zone : Zone) (time : LocalTime) (moment : Moment) (found : zone.listed? time = some moment) :
    ∃ offset, (zone.meaning time).offset? = some offset ∧ moment.nanos = time.nanos - offset * 1000000000 := by
  unfold listed? at found
  cases meaning : zone.meaning time with
  | unique offset =>
      rw [meaning] at found
      exact ⟨offset, rfl, moment_at_some time offset moment found⟩
  | skipped =>
      rw [meaning] at found
      cases found
  | repeated first second =>
      rw [meaning] at found
      obtain ⟨earlier, atFirst, rest⟩ := Option.bind_eq_some_iff.mp found
      obtain ⟨later, -, same⟩ := Option.bind_eq_some_iff.mp rest
      obtain rfl := Option.some.inj same
      exact ⟨first, rfl, moment_at_some time first earlier atFirst⟩

section

variable (standard summer : Int) (toSummer toStandard : ChangeRule) (time : LocalTime)

theorem meaning_cases :
    let meaning := (seasonal standard summer toSummer toStandard).meaning time
    meaning = .unique standard ∨ meaning = .unique summer ∨ meaning = .skipped ∨ meaning = .repeated standard summer := by
  unfold meaning
  dsimp only
  split_ifs <;> simp

def StandardPiece (second year : Int) : Prop :=
  if toSummer.month < toStandard.month then
    second ≤ toSummer.localSecond year ∨ toStandard.localSecond year - (summer - standard) ≤ second
  else toStandard.localSecond year - (summer - standard) ≤ second ∧ second < toSummer.localSecond year

def SkippedPiece (second year : Int) : Prop :=
  toSummer.localSecond year ≤ second ∧ second < toSummer.localSecond year + (summer - standard)

def SummerPiece (second year : Int) : Prop :=
  if toSummer.month < toStandard.month then
    toSummer.localSecond year + (summer - standard) ≤ second ∧
      second < toStandard.localSecond year - (summer - standard)
  else
    second < toStandard.localSecond year - (summer - standard) ∨
      toSummer.localSecond year + (summer - standard) ≤ second

variable {standard summer toSummer toStandard}

theorem looked_cases (offset : Int)
    (looked : ((seasonal standard summer toSummer toStandard).meaning time).offset? = some offset) :
    offset = standard ∨ offset = summer := by
  rcases meaning_cases standard summer toSummer toStandard time with same | same | same | same
  · rw [same] at looked
    exact .inl (Option.some.inj looked).symm
  · rw [same] at looked
    exact .inr (Option.some.inj looked).symm
  · rw [same] at looked
    cases looked
  · rw [same] at looked
    exact .inl (Option.some.inj looked).symm

theorem pieces (seasons : Seasons standard summer toSummer toStandard) :
    let offset := ((seasonal standard summer toSummer toStandard).meaning time).offset?
    let year := yearOf time.day
    offset = some standard ∧ StandardPiece standard summer toSummer toStandard time.wholeSecond year ∨
      offset = none ∧ SkippedPiece standard summer toSummer time.wholeSecond year ∨
      offset = some summer ∧ SummerPiece standard summer toSummer toStandard time.wholeSecond year := by
  unfold StandardPiece SkippedPiece SummerPiece meaning LocalTime.wholeSecond
  dsimp only
  by_cases north : toSummer.month < toStandard.month
  · rw [if_pos north, if_pos north, if_pos north]
    split
    · exact .inl ⟨rfl, by omega⟩
    · split
      · exact .inr (.inl ⟨rfl, by omega⟩)
      · split
        · exact .inr (.inr ⟨rfl, by omega⟩)
        · split
          · exact .inl ⟨rfl, by omega⟩
          · exact .inl ⟨rfl, by omega⟩
  · rw [if_neg north, if_neg north, if_neg north]
    -- without the distance of the changes the back one could take away from standard time
    have precedes := seasons.changes (yearOf time.day)
    rw [if_neg north] at precedes
    have apart := precedes.apart
    split
    · exact .inr (.inr ⟨rfl, by omega⟩)
    · split
      · exact .inl ⟨rfl, by omega⟩
      · split
        · exact .inl ⟨rfl, by omega⟩
        · split
          · exact .inr (.inl ⟨rfl, by omega⟩)
          · exact .inr (.inr ⟨rfl, by omega⟩)

theorem standard_piece (seasons : Seasons standard summer toSummer toStandard)
    (looked : ((seasonal standard summer toSummer toStandard).meaning time).offset? = some standard) :
    StandardPiece standard summer toSummer toStandard time.wholeSecond (yearOf time.day) := by
  rcases pieces time seasons with ⟨-, piece⟩ | ⟨offset, -⟩ | ⟨offset, -⟩
  · exact piece
  · exact absurd (offset.symm.trans looked) nofun
  · exact absurd (Option.some.inj (looked.symm.trans offset)) (Int.ne_of_lt seasons.order)

theorem skipped_piece (seasons : Seasons standard summer toSummer toStandard)
    (skipped : (seasonal standard summer toSummer toStandard).Skips time) :
    SkippedPiece standard summer toSummer time.wholeSecond (yearOf time.day) := by
  have unlisted := (skips_iff _ time).mp skipped
  rcases pieces time seasons with ⟨offset, -⟩ | ⟨-, piece⟩ | ⟨offset, -⟩
  · exact absurd (unlisted.symm.trans offset) nofun
  · exact piece
  · exact absurd (unlisted.symm.trans offset) nofun

theorem summer_piece (seasons : Seasons standard summer toSummer toStandard)
    (looked : ((seasonal standard summer toSummer toStandard).meaning time).offset? = some summer) :
    SummerPiece standard summer toSummer toStandard time.wholeSecond (yearOf time.day) := by
  rcases pieces time seasons with ⟨offset, -⟩ | ⟨offset, -⟩ | ⟨-, piece⟩
  · exact absurd (Option.some.inj (offset.symm.trans looked)) (Int.ne_of_lt seasons.order)
  · exact absurd (offset.symm.trans looked) nofun
  · exact piece

theorem summer_lasts (seasons : Seasons standard summer toSummer toStandard) (instant : Moment)
    (looked : ((seasonal standard summer toSummer toStandard).meaning time).offset? = some summer)
    (after : time.wholeSecond - summer ≤ instant.nanos / 1000000000)
    (before : instant.nanos / 1000000000 ≤ time.wholeSecond - standard) :
    (seasonal standard summer toSummer toStandard).offsetAt instant = summer := by
  have piece := summer_piece time seasons looked
  unfold SummerPiece at piece
  by_cases north : toSummer.month < toStandard.month
  · rw [if_pos north] at piece
    exact offset_between seasons north (yearOf time.day) (by omega) (by omega)
  · rw [if_neg north] at piece
    refine offset_outside seasons north fun year => ?_
    obtain ⟨low, order, high, changes⟩ := seasons
    have precedes := changes year
    rw [if_neg north] at precedes
    obtain ⟨begins, apart, ends⟩ := precedes
    obtain ⟨yearBegun, yearEnds⟩ := time.in_year
    rcases Int.lt_trichotomy year (yearOf time.day) with earlier | rfl | later
    · have years := year_second_mono (year + 1) (yearOf time.day) earlier
      exact .inr (by omega)
    · omega
    · have years := year_second_mono (yearOf time.day + 1) year later
      exact .inl (by omega)

-- From standard time to summer the clock is moved forward. The one exception: the last second before summer is the same
-- instant as the first one of it.
theorem gap_between (seasons : Seasons standard summer toSummer toStandard) (other : LocalTime)
    (looked : ((seasonal standard summer toSummer toStandard).meaning time).offset? = some standard)
    (otherLooked : ((seasonal standard summer toSummer toStandard).meaning other).offset? = some summer)
    (order : time.wholeSecond < other.wholeSecond) :
    time.wholeSecond + (summer - standard) < other.wholeSecond ∨
      time.wholeSecond + (summer - standard) = other.wholeSecond ∧
        time.wholeSecond = toSummer.localSecond (yearOf time.day) := by
  have before := standard_piece time seasons looked
  have after := summer_piece other seasons otherLooked
  obtain ⟨yearBegun, yearEnds⟩ := time.in_year
  obtain ⟨otherBegun, otherEnds⟩ := other.in_year
  obtain ⟨low, -, high, changes⟩ := seasons
  unfold StandardPiece at before
  unfold SummerPiece at after
  rcases Int.lt_trichotomy (yearOf time.day) (yearOf other.day) with earlier | same | later
  · have years := year_second_mono (yearOf time.day + 1) (yearOf other.day) earlier
    by_cases north : toSummer.month < toStandard.month
    · have precedes := changes (yearOf other.day)
      rw [if_pos north] at after precedes
      have begins := precedes.begins
      omega
    · have precedes := changes (yearOf time.day)
      rw [if_neg north] at before precedes
      have ends := precedes.ends
      omega
  · rw [← same] at after
    by_cases north : toSummer.month < toStandard.month
    · rw [if_pos north] at before after
      omega
    · rw [if_neg north] at before after
      omega
  · have years := year_second_mono (yearOf other.day + 1) (yearOf time.day) later
    omega

end

theorem listed_stays (zone : Zone) (orderly : zone.Orderly) (time : LocalTime) (moment later : Moment)
    (found : zone.listed? time = some moment) (order : moment.nanos ≤ later.nanos) : time ≤ zone.localTime later := by
  obtain ⟨offset, looked, nanos⟩ := zone.listed_some time moment found
  change time.nanos ≤ later.nanos + zone.offsetAt later * 1000000000
  cases zone with
  | fixed constant =>
      obtain rfl : constant = offset := Option.some.inj looked
      simp only [offsetAt]
      omega
  | seasonal standard summer toSummer toStandard =>
      have standardFirst := Seasons.order orderly
      have atLeast : standard ≤ (seasonal standard summer toSummer toStandard).offsetAt later := by
        rcases offset_at_cases with same | same
        · exact Int.le_of_eq same.symm
        · rw [same]
          exact Int.le_of_lt standardFirst
      rcases looked_cases time offset looked with rfl | rfl
      · omega
      · by_cases shown : time.nanos - standard * 1000000000 ≤ later.nanos
        · omega
        · have summery := summer_lasts time orderly later looked
            (by unfold LocalTime.wholeSecond; omega) (by unfold LocalTime.wholeSecond; omega)
          rw [summery]
          omega

theorem resolve_stays (zone : Zone) (orderly : zone.Orderly) (time : LocalTime) (moment later : Moment)
    (found : zone.resolve? time = some moment) (order : moment.nanos ≤ later.nanos) : time ≤ zone.localTime later := by
  unfold resolve? at found
  cases listed : zone.listed? time with
  | some first =>
      rw [listed] at found
      obtain rfl := Option.some.inj found
      exact zone.listed_stays orderly time first later listed order
  | none =>
      rw [listed] at found
      dsimp only at found
      split at found
      · have stays := zone.listed_stays orderly (time.addSeconds 3600) moment later found order
        refine Int.le_trans ?_ stays
        simp only [LocalTime.addSeconds, LocalTime.addNanos]
        omega
      · cases found

theorem moment_at_inside (time : LocalTime) (offset : Int) (low : firstDay + 1 ≤ time.day) (high : time.day + 1 ≤ lastDay)
    (small : -86400 < offset ∧ offset < 86400) : ∃ moment, momentAt? time offset = some moment := by
  have inside : (time.addSeconds (-offset)).InCalendar := by
    simp only [LocalTime.InCalendar, LocalTime.day, LocalTime.addSeconds, LocalTime.addNanos, LocalTime.dayLength] at *
    omega
  exact ⟨_, if_pos inside⟩

theorem listed_inside (zone : Zone) (orderly : zone.Orderly) (time : LocalTime) (low : firstDay + 1 ≤ time.day)
    (high : time.day + 1 ≤ lastDay) (shown : ¬ zone.Skips time) : ∃ moment, zone.listed? time = some moment := by
  unfold Skips at shown
  unfold listed?
  cases zone with
  | fixed offset => exact moment_at_inside time offset low high orderly
  | seasonal standard summer toSummer toStandard =>
      obtain ⟨above, order, below, -⟩ : Seasons standard summer toSummer toStandard := orderly
      obtain ⟨early, atStandard⟩ := moment_at_inside time standard low high (by omega)
      obtain ⟨late, atSummer⟩ := moment_at_inside time summer low high (by omega)
      rcases meaning_cases standard summer toSummer toStandard time with same | same | same | same
      · exact ⟨early, by simpa only [same] using atStandard⟩
      · exact ⟨late, by simpa only [same] using atSummer⟩
      · exact absurd same shown
      · exact ⟨early, by simp only [same, atStandard, atSummer, Option.bind_eq_bind, Option.bind_some]⟩

end Zone
end AlarmClock
