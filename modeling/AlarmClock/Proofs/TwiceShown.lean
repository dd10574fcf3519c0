import AlarmClock.Proofs.Showings
import AlarmClock.Proofs.ZonedAlert

set_option autoImplicit false

namespace AlarmClock

open Calendar

namespace Zone

section

variable {standard summer : Int} {toSummer toStandard : ChangeRule} (time : LocalTime)

theorem shown_at_two (order : standard < summer) (early late : Moment)
    (first : (seasonal standard summer toSummer toStandard).localTime early = time)
    (second : (seasonal standard summer toSummer toStandard).localTime late = time) (apart : early.nanos < late.nanos) :
    (early = time.under summer ∧ (seasonal standard summer toSummer toStandard).ShowsUnder time summer) ∧
      late = time.under standard ∧ (seasonal standard summer toSummer toStandard).ShowsUnder time standard := by
  obtain ⟨offset, rfl, shown⟩ := (shown_iff _ time early).mp first
  obtain ⟨other, rfl, otherShown⟩ := (shown_iff _ time late).mp second
  simp only [LocalTime.under] at apart
  rcases shows_under_cases time shown with rfl | rfl
  · rcases shows_under_cases time otherShown with rfl | rfl
    · omega
    · omega
  · rcases shows_under_cases time otherShown with rfl | rfl
    · exact ⟨⟨rfl, shown⟩, rfl, otherShown⟩
    · omega

theorem summer_looked_iff (order : standard < summer) :
    ((seasonal standard summer toSummer toStandard).meaning time).offset? = some summer ↔
      (seasonal standard summer toSummer toStandard).meaning time = .unique summer := by
  rcases meaning_cases standard summer toSummer toStandard time with same | same | same | same
  · simp [same, LocalMeaning.offset?]
  · simp [same, LocalMeaning.offset?]
  · simp [same, LocalMeaning.offset?]
  · simp [same, LocalMeaning.offset?, Int.ne_of_lt order]

-- The time an hour later is never tried at an instant before its own.
theorem resolve_first_iff (order : standard < summer) :
    (seasonal standard summer toSummer toStandard).resolve? time = some (time.under summer) ↔
      (seasonal standard summer toSummer toStandard).meaning time = .unique summer ∧
        (LocalTime.mk (time.under summer).nanos).InCalendar := by
  rw [resolve?]
  constructor
  · intro resolved
    cases listed : (seasonal standard summer toSummer toStandard).listed? time with
    | some moment =>
        rw [listed] at resolved
        obtain rfl := Option.some.inj resolved
        obtain ⟨offset, looked, same⟩ := listed_under _ time _ listed
        have nanos := congrArg Moment.nanos same
        simp only [LocalTime.under] at nanos
        obtain rfl : offset = summer := by omega
        have summery := (summer_looked_iff time order).mp looked
        rw [listed?, summery] at listed
        exact ⟨summery, ((moment_at_iff time offset _).mp listed).2⟩
    | none =>
        rw [listed] at resolved
        dsimp only at resolved
        split at resolved
        · obtain ⟨offset, looked, same⟩ := listed_under _ _ _ resolved
          have nanos := congrArg Moment.nanos same
          simp only [LocalTime.under, LocalTime.addSeconds, LocalTime.addNanos] at nanos
          rcases looked_cases _ offset looked with rfl | rfl
          · omega
          · omega
        · cases resolved
  · rintro ⟨summery, inside⟩
    have listed : (seasonal standard summer toSummer toStandard).listed? time = some (time.under summer) := by
      rw [listed?, summery]
      exact (moment_at_iff time summer _).mpr ⟨rfl, inside⟩
    rw [listed]

theorem repeated_not_summer (order : standard < summer)
    (piece : RepeatedPiece standard summer toStandard time.wholeSecond (yearOf time.day)) :
    (seasonal standard summer toSummer toStandard).meaning time ≠ .unique summer := by
  obtain ⟨begun, before⟩ := piece
  have different : LocalMeaning.unique standard ≠ .unique summer := by
    simpa only [ne_eq, LocalMeaning.unique.injEq] using Int.ne_of_lt order
  intro summery
  simp only [meaning] at summery
  simp only [LocalTime.wholeSecond] at begun before
  split_ifs at summery
  · exact different summery
  · omega
  · exact different summery
  · omega
  · exact different summery
  · omega

theorem repeated_resolves (seasons : Seasons standard summer toSummer toStandard) (short : summer - standard ≤ 86400)
    (inland : time.Inland) (shownFirst : (seasonal standard summer toSummer toStandard).ShowsUnder time summer)
    (shownAgain : (seasonal standard summer toSummer toStandard).ShowsUnder time standard) :
    (seasonal standard summer toSummer toStandard).resolve? time = some (time.under standard) := by
  have piece := (shown_twice_iff time seasons short).mp ⟨shownAgain, shownFirst⟩
  obtain ⟨offset, looked, shown, resolved⟩ :=
    shown_resolves time seasons short inland ((shows_iff _ time).mpr ⟨standard, shownAgain⟩)
  rcases shows_under_cases time shown with rfl | rfl
  · exact resolved
  · exact absurd ((summer_looked_iff time seasons.order).mp looked) (repeated_not_summer time seasons.order piece)

end

theorem until_first_iff (zone : Zone) (time : LocalTime) (early : Moment) :
    (∀ instant : Moment, instant.nanos < early.nanos →
        ((Clock.inZone zone instant).untilTime time : Int) = early.nanos - instant.nanos) ↔
      zone.resolve? time = some early := by
  constructor
  · intro spans
    have last := spans ⟨early.nanos - 1⟩ (Int.sub_one_lt_of_le (Int.le_refl _))
    cases resolved : zone.resolve? time with
    | none =>
        rw [zone.until_unresolved time _ resolved] at last
        dsimp only at last
        omega
    | some moment =>
        rw [zone.until_resolved time _ moment resolved] at last
        dsimp only at last
        exact congrArg (fun nanos => some (Moment.mk nanos)) (show moment.nanos = early.nanos by omega)
  · intro resolved instant before
    rw [zone.until_resolved time instant early resolved]
    omega

theorem repeated_time_is_first_iff (standard summer : Int) (toSummer toStandard : ChangeRule) (order : standard < summer)
    (time : LocalTime) (early late : Moment)
    (first : (seasonal standard summer toSummer toStandard).localTime early = time)
    (second : (seasonal standard summer toSummer toStandard).localTime late = time) (apart : early.nanos < late.nanos) :
    let zone := seasonal standard summer toSummer toStandard
    let back := toStandard.localSecond (yearOf time.day) - summer
    ((∀ instant : Moment, instant.nanos < early.nanos →
          ((Clock.inZone zone instant).untilTime time : Int) = early.nanos - instant.nanos) ↔
        zone.resolve? time = some early) ∧
      (zone.resolve? time = some early ↔
        zone.meaning time = .unique summer ∧ (LocalTime.mk early.nanos).InCalendar) ∧
      (early.nanos / 1000000000 < back ∧ back ≤ late.nanos / 1000000000 → zone.resolve? time ≠ some early) ∧
      (zone.Orderly → summer - standard ≤ 86400 → time.Inland →
        zone.resolve? time = some late ∧
          ∀ instant : Moment, instant.nanos ≤ early.nanos →
            ((Clock.inZone zone instant).untilTime time : Int) =
              early.nanos - instant.nanos + (summer - standard) * 1000000000) := by
  intro zone back
  obtain ⟨⟨rfl, shownFirst⟩, rfl, shownAgain⟩ := shown_at_two time order early late first second apart
  refine ⟨zone.until_first_iff time _, resolve_first_iff time order, ?_, ?_⟩
  · rintro ⟨before, after⟩ resolved
    rw [time.second_under] at before after
    have piece : RepeatedPiece standard summer toStandard time.wholeSecond (yearOf time.day) :=
      ⟨by omega, by omega⟩
    exact repeated_not_summer time order piece ((resolve_first_iff time order).mp resolved).1
  · intro seasons short inland
    have resolved := repeated_resolves time seasons short inland shownFirst shownAgain
    refine ⟨resolved, fun instant before => ?_⟩
    rw [zone.until_resolved time instant _ resolved]
    simp only [LocalTime.under] at before ⊢
    omega

open Controller (oneHourZone one_hour_zone_orderly utcMoment)

theorem repeated_half_past_two_is_late :
    let time := LocalTime.ofParts ⟨2024, 10, 27⟩ 2 30 0 0
    let early := utcMoment ⟨2024, 10, 27⟩ 0 30
    let late := utcMoment ⟨2024, 10, 27⟩ 1 30
    oneHourZone.localTime early = time ∧ oneHourZone.localTime late = time ∧ early.nanos < late.nanos ∧
      oneHourZone.resolve? time = some late ∧
        ∀ instant : Moment, instant.nanos ≤ early.nanos →
          ((Clock.inZone oneHourZone instant).untilTime time : Int) =
            early.nanos - instant.nanos + (7200 - 3600) * 1000000000 := by
  intro time early late
  have first : oneHourZone.localTime early = time := by decide +kernel
  have second : oneHourZone.localTime late = time := by decide +kernel
  have apart : early.nanos < late.nanos := by decide +kernel
  obtain ⟨-, -, -, orderly⟩ := repeated_time_is_first_iff 3600 7200 ⟨3, 5, 0, 7200⟩ ⟨10, 5, 0, 10800⟩ (by decide)
    time early late first second apart
  obtain ⟨resolved, spans⟩ := orderly one_hour_zone_orderly (by decide) (by decide +kernel)
  refine ⟨first, second, apart, resolved, fun instant before => ?_⟩
  have left := spans instant before
  rw [oneHourZone]
  exact left

theorem repeated_time_names_second_showing :
    let time := LocalTime.ofParts ⟨2024, 10, 27⟩ 2 30 0 0
    let early := utcMoment ⟨2024, 10, 27⟩ 0 30
    let late := utcMoment ⟨2024, 10, 27⟩ 1 30
    oneHourZone.localTime early = time ∧ oneHourZone.localTime late = time ∧ early.nanos < late.nanos ∧
      oneHourZone.resolve? time ≠ some early ∧
        (Clock.inZone oneHourZone (utcMoment ⟨2024, 10, 27⟩ 0 0)).untilTime time = Span.ofSeconds 5400 := by
  intro time early late
  exact ⟨by decide +kernel, by decide +kernel, by decide +kernel, by decide +kernel, by decide +kernel⟩

end Zone
end AlarmClock
