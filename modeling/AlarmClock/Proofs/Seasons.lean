import AlarmClock.Proofs.Years

set_option autoImplicit false

namespace AlarmClock

namespace Calendar

def yearSecond (year : Int) : Int := yearStart year * 86400

theorem year_second_mono (a b : Int) (order : a ≤ b) : yearSecond a ≤ yearSecond b := by
  have starts := year_start_mono a b order
  unfold yearSecond
  omega

theorem year_second_cycle (year cycles : Int) :
    yearSecond (year + 400 * cycles) = yearSecond year + 12622780800 * cycles := by
  rw [yearSecond, year_start_cycle, yearSecond]
  omega

theorem year_of_second (second : Int) :
    yearSecond (yearOf (second / 86400)) ≤ second ∧ second < yearSecond (yearOf (second / 86400) + 1) := by
  obtain ⟨begun, before⟩ := year_of_bounds (second / 86400)
  unfold yearSecond
  omega

theorem year_of_second_eq (second year : Int) (begun : yearSecond year ≤ second) (before : second < yearSecond (year + 1)) :
    yearOf (second / 86400) = year := by
  unfold yearSecond at begun before
  exact year_of_eq _ year (by omega) (by omega)

end Calendar

namespace ChangeRule

open Calendar

-- Two days are more than any two offsets lie apart.
structure Precedes (first second : ChangeRule) (year : Int) : Prop where
  begins : yearSecond year + 172800 ≤ first.localSecond year
  apart : first.localSecond year + 172800 ≤ second.localSecond year
  ends : second.localSecond year + 172800 ≤ yearSecond (year + 1)

instance (first second : ChangeRule) (year : Int) : Decidable (first.Precedes second year) :=
  decidable_of_iff (yearSecond year + 172800 ≤ first.localSecond year ∧
      first.localSecond year + 172800 ≤ second.localSecond year ∧
        second.localSecond year + 172800 ≤ yearSecond (year + 1))
    ⟨fun ⟨begins, apart, ends⟩ => ⟨begins, apart, ends⟩, fun ⟨begins, apart, ends⟩ => ⟨begins, apart, ends⟩⟩

theorem precedes_of_months (first second : ChangeRule) (year : Int) (firstProper : first.Proper)
    (secondProper : second.Proper) (begins : 2 ≤ first.month) (apart : first.month + 2 ≤ second.month)
    (ends : second.month ≤ 11) : first.Precedes second year := by
  obtain ⟨firstLow, firstHigh⟩ := first.day_in_month year firstProper
  obtain ⟨secondLow, secondHigh⟩ := second.day_in_month year secondProper
  have firstNext := month_start_succ year first.month (by omega) (by omega)
  have secondNext := month_start_succ year second.month (by omega) (by omega)
  have before := month_start_mono year 1 first.month (by decide) (by omega) (by omega)
  have between := month_start_mono year (first.month + 1) second.month (by omega) (by omega) (by omega)
  have after := month_start_mono year (second.month + 1) 12 (by omega) (by omega) (by decide)
  have december := year_start_december year
  obtain ⟨firstSooner, firstLater⟩ := firstProper.seconds
  obtain ⟨secondSooner, secondLater⟩ := secondProper.seconds
  refine ⟨?_, ?_, ?_⟩
  · simp only [yearSecond, localSecond]
    omega
  · simp only [localSecond]
    omega
  · simp only [yearSecond, localSecond]
    omega

theorem precedes_cycle (first second : ChangeRule) (year cycles : Int) (precedes : first.Precedes second year) :
    first.Precedes second (year + 400 * cycles) := by
  obtain ⟨begins, apart, ends⟩ := precedes
  have start : yearSecond (year + 400 * cycles) = yearSecond year + 12622780800 * cycles := year_second_cycle year cycles
  have next : yearSecond (year + 400 * cycles + 1) = yearSecond (year + 1) + 12622780800 * cycles := by
    rw [Int.add_right_comm]
    exact year_second_cycle (year + 1) cycles
  refine ⟨?_, ?_, ?_⟩
  · rw [start, local_second_cycle]
    omega
  · rw [local_second_cycle, local_second_cycle]
    omega
  · rw [next, local_second_cycle]
    omega

-- The calendar repeats after 400 years, so a run through them decides about all.
theorem precedes_of_cycle (first second : ChangeRule)
    (cycle : ∀ offset : Fin 400, first.Precedes second (2000 + offset.val)) (year : Int) : first.Precedes second year := by
  obtain ⟨inside, cycles, rfl, low, high⟩ := year_in_cycle year
  have precedes := cycle ⟨(inside - 2000).toNat, by omega⟩
  rw [Int.toNat_of_nonneg (by omega), show 2000 + (inside - 2000) = inside by omega] at precedes
  exact first.precedes_cycle second inside cycles precedes

end ChangeRule

namespace Zone

open Calendar

structure Seasons (standard summer : Int) (toSummer toStandard : ChangeRule) : Prop where
  low : -86400 < standard
  order : standard < summer
  high : summer < 86400
  changes : ∀ year, if toSummer.month < toStandard.month then toSummer.Precedes toStandard year
    else toStandard.Precedes toSummer year

def Orderly : Zone → Prop
  | .fixed offset => -86400 < offset ∧ offset < 86400
  | .seasonal standard summer toSummer toStandard => Seasons standard summer toSummer toStandard

theorem orderly_of_months (standard summer : Int) (toSummer toStandard : ChangeRule)
    (offsets : -86400 < standard ∧ standard < summer ∧ summer < 86400)
    (proper : toSummer.Proper ∧ toStandard.Proper)
    (inside : 2 ≤ toSummer.month ∧ toSummer.month ≤ 11 ∧ 2 ≤ toStandard.month ∧ toStandard.month ≤ 11)
    (apart : toSummer.month + 2 ≤ toStandard.month ∨ toStandard.month + 2 ≤ toSummer.month) :
    (seasonal standard summer toSummer toStandard).Orderly := by
  obtain ⟨low, order, high⟩ := offsets
  refine ⟨low, order, high, fun year => ?_⟩
  by_cases north : toSummer.month < toStandard.month
  · rw [if_pos north]
    exact toSummer.precedes_of_months toStandard year proper.1 proper.2 inside.1 (by omega) inside.2.2.2
  · rw [if_neg north]
    exact toStandard.precedes_of_months toSummer year proper.2 proper.1 inside.2.2.1 (by omega) inside.2.1

theorem forward_in_year (standard summer : Int) (toSummer toStandard : ChangeRule)
    (seasons : Seasons standard summer toSummer toStandard) (year : Int) :
    yearSecond year + 172800 ≤ toSummer.localSecond year ∧ toSummer.localSecond year + 172800 ≤ yearSecond (year + 1) := by
  have precedes := seasons.changes year
  by_cases north : toSummer.month < toStandard.month
  · rw [if_pos north] at precedes
    obtain ⟨begins, apart, ends⟩ := precedes
    omega
  · rw [if_neg north] at precedes
    obtain ⟨begins, apart, ends⟩ := precedes
    omega

theorem forward_apart (standard summer : Int) (toSummer toStandard : ChangeRule)
    (seasons : Seasons standard summer toSummer toStandard) (year later : Int) (order : year < later) :
    toSummer.localSecond year + 345600 ≤ toSummer.localSecond later := by
  have before := (forward_in_year standard summer toSummer toStandard seasons year).2
  have after := (forward_in_year standard summer toSummer toStandard seasons later).1
  have years := year_second_mono (year + 1) later order
  omega

section

variable {standard summer : Int} {toSummer toStandard : ChangeRule} {instant : Moment}

theorem offset_at_cases :
    (seasonal standard summer toSummer toStandard).offsetAt instant = standard ∨
      (seasonal standard summer toSummer toStandard).offsetAt instant = summer := by
  unfold offsetAt
  dsimp only
  generalize (if toSummer.localSecond _ - standard ≤ toStandard.localSecond _ - summer then _ else _ : Bool) = isSummer
  cases isSummer with
  | true => exact .inr rfl
  | false => exact .inl rfl

theorem summer_iff (seasons : Seasons standard summer toSummer toStandard)
    (north : ∀ year, toSummer.Precedes toStandard year) :
    (seasonal standard summer toSummer toStandard).offsetAt instant = summer ↔
      ∃ year, toSummer.localSecond year - standard ≤ instant.nanos / 1000000000 ∧
        instant.nanos / 1000000000 < toStandard.localSecond year - summer := by
  obtain ⟨low, order, high, -⟩ := seasons
  generalize now : yearOf (instant.nanos / 1000000000 / 86400) = current
  have apart := (north current).apart
  have starts : toSummer.localSecond current - standard ≤ toStandard.localSecond current - summer := by omega
  simp only [offsetAt, now, if_pos starts]
  rw [ite_eq_left_iff, imp_iff_not_or, not_not, or_iff_left (Int.ne_of_lt order), List.any_eq_true]
  simp only [Bool.and_eq_true, decide_eq_true_eq]
  constructor
  · rintro ⟨year, -, during⟩
    exact ⟨year, during⟩
  · rintro ⟨year, begun, before⟩
    obtain ⟨begins, -, ends⟩ := north year
    have same := year_of_second_eq (instant.nanos / 1000000000) year (by omega) (by omega)
    exact ⟨year, by simp [← now, same], begun, before⟩

theorem standard_iff (seasons : Seasons standard summer toSummer toStandard)
    (south : ∀ year, toStandard.Precedes toSummer year) :
    (seasonal standard summer toSummer toStandard).offsetAt instant = standard ↔
      ∃ year, toStandard.localSecond year - summer ≤ instant.nanos / 1000000000 ∧
        instant.nanos / 1000000000 < toSummer.localSecond year - standard := by
  obtain ⟨low, order, high, -⟩ := seasons
  generalize now : yearOf (instant.nanos / 1000000000 / 86400) = current
  have apart := (south current).apart
  have ends : ¬ toSummer.localSecond current - standard ≤ toStandard.localSecond current - summer := by omega
  simp only [offsetAt, now, if_neg ends]
  rw [ite_eq_right_iff, imp_iff_not_or, or_iff_left (Int.ne_of_gt order), Bool.not_eq_true', Bool.not_eq_false,
    List.any_eq_true]
  simp only [Bool.and_eq_true, decide_eq_true_eq]
  constructor
  · rintro ⟨year, -, during⟩
    exact ⟨year, during⟩
  · rintro ⟨year, begun, before⟩
    obtain ⟨begins, -, ends⟩ := south year
    have same := year_of_second_eq (instant.nanos / 1000000000) year (by omega) (by omega)
    exact ⟨year, by simp [← now, same], begun, before⟩

theorem offset_between (seasons : Seasons standard summer toSummer toStandard)
    (north : toSummer.month < toStandard.month) (year : Int)
    (begun : toSummer.localSecond year - standard ≤ instant.nanos / 1000000000)
    (before : instant.nanos / 1000000000 < toStandard.localSecond year - summer) :
    (seasonal standard summer toSummer toStandard).offsetAt instant = summer := by
  have changes := seasons.changes
  simp only [if_pos north] at changes
  exact (summer_iff seasons changes).mpr ⟨year, begun, before⟩

theorem offset_outside (seasons : Seasons standard summer toSummer toStandard)
    (south : ¬ toSummer.month < toStandard.month)
    (outside : ∀ year, instant.nanos / 1000000000 < toStandard.localSecond year - summer ∨
      toSummer.localSecond year - standard ≤ instant.nanos / 1000000000) :
    (seasonal standard summer toSummer toStandard).offsetAt instant = summer := by
  have changes := seasons.changes
  simp only [if_neg south] at changes
  refine offset_at_cases.resolve_left fun winter => ?_
  obtain ⟨year, begun, before⟩ := (standard_iff seasons changes).mp winter
  have outside := outside year
  omega

end

end Zone
end AlarmClock
