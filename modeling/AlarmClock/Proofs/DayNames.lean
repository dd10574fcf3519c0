import AlarmClock.Days.Parser
import AlarmClock.Proofs.DaySets

set_option autoImplicit false

namespace AlarmClock.Weekday

def names (day : Weekday) : List String := [day.shortName, day.name, day.fullName]

def Named (day : Weekday) (text : List Char) : Prop := ∃ name ∈ day.names, sameLetters name.toList text = true

inductive Met (last : Weekday) : Weekday → Weekday → Prop where
  | here (first : Weekday) : Met last first first
  | onward (first day : Weekday) (going : first ≠ last) (later : Met last (first.forward 1) day) : Met last first day

theorem name_letters (day : Weekday) : ∀ name ∈ day.names,
    (name.toList.map Char.toLower).take 2 = day.shortName.toList.map Char.toLower ∧ '-' ∉ name.toList.map Char.toLower := by
  cases day <;> decide

theorem named_begins (day : Weekday) (text : List Char) (named : day.Named text) :
    (text.map Char.toLower).take 2 = day.shortName.toList.map Char.toLower := by
  obtain ⟨name, known, same⟩ := named
  rw [← (same_letters_iff _ _).mp same]
  exact (day.name_letters name known).1

theorem named_undashed (day : Weekday) (text : List Char) (named : day.Named text) : '-' ∉ text := by
  obtain ⟨name, known, same⟩ := named
  intro dash
  have lower : '-' ∈ text.map Char.toLower := List.mem_map.mpr ⟨'-', dash, rfl⟩
  rw [← (same_letters_iff _ _).mp same] at lower
  exact (day.name_letters name known).2 lower

theorem short_name_injective (a b : Weekday)
    (same : a.shortName.toList.map Char.toLower = b.shortName.toList.map Char.toLower) : a = b := by
  revert same
  cases a <;> cases b <;> decide

theorem named_unique (a b : Weekday) (text : List Char) (named : a.Named text) (otherNamed : b.Named text) : a = b :=
  short_name_injective a b ((named_begins a text named).symm.trans (named_begins b text otherNamed))

theorem parse_day_iff (text : List Char) (day : Weekday) : parse? text = some day ↔ day.Named text := by
  have fits : ∀ other : Weekday, other.Named text ↔ (sameLetters other.shortName.toList text ||
      sameLetters other.name.toList text || sameLetters other.fullName.toList text) = true := by
    intro other
    simp [Named, names, or_assoc]
  have named : ∀ other, parse? text = some other → other.Named text := by
    intro other found
    have chosen := List.find?_some found
    exact (fits other).mpr chosen
  refine ⟨named day, fun here => ?_⟩
  obtain ⟨other, found⟩ : ∃ other, parse? text = some other := by
    rw [← Option.isSome_iff_exists, parse?, List.find?_isSome]
    exact ⟨day, List.mem_toFinset.mp day.mem_week, (fits day).mp here⟩
  rw [found, named_unique day other text here (named other found)]

theorem span_self (day : Weekday) : day.span day = [day] := by
  cases day <;> rfl

theorem forward_forward (day : Weekday) (first second : Nat) : (day.forward first).forward second = day.forward (first + second) := by
  apply index_injective
  simp only [index_forward]
  omega

theorem mem_span (first last day : Weekday) :
    day ∈ first.span last ↔ ∃ steps, steps ≤ (last.index + 7 - first.index) % 7 ∧ first.forward steps = day := by
  simp only [span, List.mem_map, List.mem_range, Nat.lt_succ_iff]

theorem met_iff (first last day : Weekday) : Met last first day ↔ day ∈ first.span last := by
  rw [mem_span]
  constructor
  · intro met
    induction met with
    | here first => exact ⟨0, Nat.zero_le _, first.forward_zero⟩
    | onward first day going later ih =>
        obtain ⟨steps, near, rfl⟩ := ih
        refine ⟨1 + steps, ?_, (forward_forward first 1 steps).symm⟩
        have apart : first.index ≠ last.index := fun same => going (index_injective same)
        have lastDay := last.index_lt
        have firstDay := first.index_lt
        rw [index_forward] at near
        omega
  · rintro ⟨steps, near, rfl⟩
    induction steps generalizing first with
    | zero =>
        rw [first.forward_zero]
        exact .here first
    | succ steps ih =>
        have lastDay := last.index_lt
        have firstDay := first.index_lt
        have going : first ≠ last := by
          rintro rfl
          omega
        have apart : first.index ≠ last.index := fun same => going (index_injective same)
        refine .onward first _ going ?_
        rw [Nat.add_comm, ← forward_forward]
        apply ih
        rw [index_forward]
        omega

end AlarmClock.Weekday
