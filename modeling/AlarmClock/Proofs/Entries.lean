import AlarmClock.Proofs.Quoting
import Mathlib.Tactic.IntervalCases

set_option autoImplicit false

namespace AlarmClock.Toml

theorem decimal_begins (n : Nat) (positive : 0 < n) : ∃ first more, Nat.toDigits 10 n = first :: more ∧ first ≠ '0' := by
  induction n using Nat.strongRecOn with
  | ind n ih =>
      by_cases small : n < 10
      · refine ⟨n.digitChar, [], Nat.toDigits_of_lt_base small, ?_⟩
        interval_cases n <;> decide
      · obtain ⟨first, more, begins, notZero⟩ := ih (n / 10) (by omega) (by omega)
        exact ⟨first, more ++ [(n % 10).digitChar], by
          rw [Nat.toDigits_of_base_le (by decide) (by omega), begins]
          rfl, notZero⟩

theorem after_digits (digits rest taken tail : List Char) (x : Char) (decimal : ∀ c ∈ digits, c.isDigit = true)
    (split : digits ++ '\n' :: rest = taken ++ x :: tail) (takesDigits : taken.all Char.isDigit = true) :
    x.isDigit = true ∨ x = '\n' := by
  induction taken generalizing digits with
  | nil =>
      cases digits with
      | nil => exact .inr (List.cons.inj split).1.symm
      | cons d digits => exact .inl ((List.cons.inj split).1 ▸ decimal d List.mem_cons_self)
  | cons t taken ih =>
      rw [List.all_cons, Bool.and_eq_true] at takesDigits
      cases digits with
      | nil =>
          have lineBreak := takesDigits.1
          rw [← (List.cons.inj split).1] at lineBreak
          cases lineBreak
      | cons d digits =>
          exact ih digits (fun c present => decimal c (List.mem_cons_of_mem d present)) (List.cons.inj split).2
            takesDigits.2

theorem more_digits_read (digits rest : List Char) (decimal : ∀ c ∈ digits, c.isDigit = true) :
    moreDigits Char.isDigit (digits ++ '\n' :: rest) = some (digits, '\n' :: rest) := by
  induction digits with
  | nil => simp [moreDigits]
  | cons c digits ih =>
      have first := decimal c List.mem_cons_self
      rw [List.cons_append, moreDigits, if_pos first, ih fun other present => decimal other (List.mem_cons_of_mem c present)]
      · rfl
      · rintro _ _ rfl
        cases first

theorem whole_part_read (n : Nat) (rest : List Char) :
    wholePart (Nat.toDigits 10 n ++ '\n' :: rest) = some (Nat.toDigits 10 n, '\n' :: rest) := by
  by_cases zero : n = 0
  · subst zero
    simp [wholePart]
  · obtain ⟨first, more, begins, notZero⟩ := decimal_begins n (Nat.pos_of_ne_zero zero)
    have decimal := decimal_digits n
    rw [begins] at decimal ⊢
    rw [List.cons_append, wholePart, digits, if_pos (decimal first List.mem_cons_self),
      more_digits_read more rest fun c present => decimal c (List.mem_cons_of_mem first present)]
    · rfl
    · exact fun _ same => notZero (List.cons.inj same).1

theorem not_dated (n : Nat) (rest : List Char) :
    numberOrDate (Nat.toDigits 10 n ++ '\n' :: rest) = number (Nat.toDigits 10 n ++ '\n' :: rest) := by
  have after := fun taken tail x => after_digits (Nat.toDigits 10 n) rest taken tail x (decimal_digits n)
  unfold numberOrDate
  split
  · rename_i a b c d tail split
    by_cases dated : [a, b, c, d].all Char.isDigit = true
    · exact absurd (after [a, b, c, d] tail '-' split dated) (by decide)
    · rw [if_neg dated]
  · rename_i a b tail _ split
    by_cases timed : (a.isDigit && b.isDigit) = true
    · exact absurd (after [a, b] tail ':' split (by simpa using timed)) (by decide)
    · rw [if_neg timed]
  · rfl

theorem not_based (n : Nat) (rest : List Char) :
    number (Nat.toDigits 10 n ++ '\n' :: rest) = unsigned false (Nat.toDigits 10 n ++ '\n' :: rest) := by
  have after := fun taken tail x => after_digits (Nat.toDigits 10 n) rest taken tail x (decimal_digits n)
  unfold number
  split
  · exact absurd (after ['0'] _ 'x' (by assumption) rfl) (by decide)
  · exact absurd (after ['0'] _ 'o' (by assumption) rfl) (by decide)
  · exact absurd (after ['0'] _ 'b' (by assumption) rfl) (by decide)
  · exact absurd (after [] _ '+' (by assumption) rfl) (by decide)
  · exact absurd (after [] _ '-' (by assumption) rfl) (by decide)
  · rfl

theorem number_read (n : Nat) (rest : List Char) (bound : n ≤ 9223372036854775807) :
    numberOrDate (Nat.toDigits 10 n ++ '\n' :: rest) = some (.integer n, '\n' :: rest) := by
  have after := fun taken tail x => after_digits (Nat.toDigits 10 n) rest taken tail x (decimal_digits n)
  have inRange : integer? (n : Int) = some (.integer n) := if_pos ⟨by omega, by omega⟩
  rw [not_dated, not_based]
  unfold unsigned
  split
  · exact absurd (after [] _ 'i' (by assumption) rfl) (by decide)
  · exact absurd (after [] _ 'n' (by assumption) rfl) (by decide)
  · rw [whole_part_read]
    simp [decimal_value, inRange]

theorem value_scalar (depth : Nat) (first : Char) (more : List Char) (single : first ∉ ['[', '\x7b']) :
    value depth (first :: more) = scalar (first :: more) := by
  unfold value
  split
  · simp_all
  · simp_all
  · rfl

theorem scalar_number (first : Char) (more : List Char) (unquoted : first ∉ ['t', 'f', '"', '\'']) :
    scalar (first :: more) = numberOrDate (first :: more) := by
  unfold scalar
  split
  all_goals simp_all

theorem quoted_begins (text : List Char) : ∃ mark more, quoteChars text = mark :: more ∧ (mark = '"' ∨ mark = '\'') := by
  simp only [quoteChars]
  split_ifs
  all_goals first
    | exact ⟨'"', _, rfl, .inl rfl⟩
    | exact ⟨'\'', _, rfl, .inr rfl⟩

theorem quoted_solid (text : List Char) : (quoteChars text).head?.any isSpace = false := by
  obtain ⟨mark, more, same, quotes⟩ := quoted_begins text
  rw [same]
  rcases quotes with rfl | rfl
  · rfl
  · rfl

theorem quoted_value (depth : Nat) (text rest : List Char) :
    value depth (quoteChars text ++ '\n' :: rest) = some (.string (String.ofList text), '\n' :: rest) := by
  have reads := quoted_is_read text rest
  obtain ⟨mark, more, same, quotes⟩ := quoted_begins text
  rw [same, List.cons_append] at reads ⊢
  rcases quotes with rfl | rfl
  · rw [value_scalar depth _ _ (by decide), scalar, reads]
    rfl
  · rw [value_scalar depth _ _ (by decide), scalar, reads]
    rfl

theorem decimal_entry_value (depth n : Nat) (rest : List Char) (bound : n ≤ 9223372036854775807) :
    value depth (Nat.toDigits 10 n ++ '\n' :: rest) = some (.integer n, '\n' :: rest) := by
  obtain ⟨first, more, begins⟩ := List.exists_cons_of_ne_nil (List.append_ne_nil_of_right_ne_nil (Nat.toDigits 10 n)
    (List.cons_ne_nil '\n' rest))
  have decimal := after_digits (Nat.toDigits 10 n) rest [] more first (decimal_digits n) begins rfl
  have plain : first ∉ ['[', '\x7b', 't', 'f', '"', '\''] := by
    simp only [List.mem_cons, List.not_mem_nil, or_false]
    rintro (rfl | rfl | rfl | rfl | rfl | rfl)
    all_goals revert decimal; decide
  have reads := number_read n rest bound
  rw [begins] at reads ⊢
  rw [value_scalar depth first more (by simp_all), scalar_number first more (by simp_all)]
  exact reads

theorem decimal_solid (n : Nat) : (Nat.toDigits 10 n).head?.any isSpace = false := by
  have decimal := decimal_digits n
  cases written : Nat.toDigits 10 n with
  | nil => rfl
  | cons first more =>
      have digit := decimal first (written ▸ List.mem_cons_self)
      by_contra space
      simp only [List.head?_cons, Option.any_some, isSpace, Bool.not_eq_false, Bool.or_eq_true, beq_iff_eq] at space
      rcases space with rfl | rfl
      all_goals cases digit

structure BareKey (name : List Char) : Prop where
  filled : name ≠ []
  bare : name.all isBare = true

theorem BareKey.begins {name : List Char} (key : BareKey name) :
    ∃ first more, name = first :: more ∧ isSpace first = false ∧ first ∉ ['"', '\'', '\n', '\r', '#', '[', '\uFEFF'] := by
  obtain ⟨first, more, rfl⟩ := List.exists_cons_of_ne_nil key.filled
  have bare := List.all_eq_true.mp key.bare first List.mem_cons_self
  refine ⟨first, more, rfl, ?_, fun special => ?_⟩
  · by_contra space
    simp only [isSpace, Bool.not_eq_false, Bool.or_eq_true, beq_iff_eq] at space
    rcases space with rfl | rfl
    all_goals cases bare
  · simp only [List.mem_cons, List.not_mem_nil, or_false] at special
    rcases special with rfl | rfl | rfl | rfl | rfl | rfl | rfl
    all_goals cases bare

theorem simple_key_read (name rest : List Char) (key : BareKey name) :
    simpleKey (name ++ ' ' :: rest) = some (String.ofList name, ' ' :: rest) := by
  have bare := List.all_eq_true.mp key.bare
  have taken : (name ++ ' ' :: rest).takeWhile isBare = name := by
    rw [List.takeWhile_append_of_pos bare]
    simp [isBare]
  have left : (name ++ ' ' :: rest).dropWhile isBare = ' ' :: rest := by
    rw [List.dropWhile_append_of_pos bare]
    simp [isBare]
  obtain ⟨first, more, rfl, -, ordinary⟩ := key.begins
  rw [List.cons_append] at taken left ⊢
  unfold simpleKey
  split
  · rename_i split
    simp [(List.cons.inj split).1] at ordinary
  · rename_i split
    simp [(List.cons.inj split).1] at ordinary
  · rw [taken, left]

theorem key_read (parts : Nat) (name rest : List Char) (bare : BareKey name) :
    key (parts + 1) (name ++ ' ' :: '=' :: rest) = some (([], String.ofList name), '=' :: rest) := by
  have solid : dropSpaces (name ++ ' ' :: '=' :: rest) = name ++ ' ' :: '=' :: rest := by
    obtain ⟨first, more, rfl, notSpace, -⟩ := bare.begins
    simp [dropSpaces, notSpace]
  have left : dropSpaces (' ' :: '=' :: rest) = '=' :: rest := by simp [dropSpaces, isSpace]
  rw [key, solid, simple_key_read name _ bare]
  simp [left]

theorem entry_read (read : Reader Value) (name written rest : List Char) (v : Value) (bare : BareKey name)
    (reads : read (written ++ '\n' :: rest) = some (v, '\n' :: rest)) (solid : written.head?.any isSpace = false) :
    entry read (name ++ ' ' :: '=' :: ' ' :: (written ++ '\n' :: rest)) =
      some (([], String.ofList name, v), '\n' :: rest) := by
  have left : dropSpaces (' ' :: (written ++ '\n' :: rest)) = written ++ '\n' :: rest := by
    have space : isSpace ' ' = true := rfl
    rw [dropSpaces, List.dropWhile_cons_of_pos space]
    cases written with
    | nil => rfl
    | cons c written => exact List.dropWhile_cons_of_neg (by simpa using solid)
  rw [entry, depthLimit, key_read 78 name _ bare]
  simp [left, reads]

def line (name : String) (written rest : List Char) : List Char :=
  name.toList ++ ' ' :: '=' :: ' ' :: (written ++ '\n' :: rest)

theorem line_longer (name : String) (written rest : List Char) : rest.length < (line name written rest).length := by
  simp only [line, List.length_append, List.length_cons]
  omega

theorem line_unmarked (name : String) (written rest : List Char) (bare : BareKey name.toList) :
    dropMark (line name written rest) = line name written rest := by
  obtain ⟨first, more, letters, -, ordinary⟩ := bare.begins
  rw [line, letters, List.cons_append, dropMark]
  rintro _ same
  simp [(List.cons.inj same).1] at ordinary

theorem skip_nothing (c : Char) (rest : List Char) (solid : isSpace c = false) (ordinary : c ∉ ['\n', '\r', '#']) :
    skipLines false (c :: rest) = some (c :: rest) := by
  simp only [List.mem_cons, List.not_mem_nil, or_false, not_or] at ordinary
  obtain ⟨notBreak, notReturn, notComment⟩ := ordinary
  rw [skipLines]
  · simp [solid, notComment]
  · exact notBreak
  · exact fun _ same => absurd same notReturn

theorem statement_is_entry (count : Nat) (root : TableForm × Entries) (c : Char) (rest : List Char)
    (solid : isSpace c = false) (ordinary : c ∉ ['\n', '\r', '#', '[']) :
    statements (count + 1) [] root (c :: rest) = (do
      let ((path, last, v), rest) ← entry (value (depthLimit - 1)) (c :: rest)
      let root ← within .implied (addDotted path last v) [] root
      statements count [] root (← endLine false rest)) := by
  simp only [List.mem_cons, List.not_mem_nil, or_false, not_or] at ordinary
  obtain ⟨notBreak, notReturn, notComment, notHeader⟩ := ordinary
  rw [statements, skip_nothing c rest solid (by simp [notBreak, notReturn, notComment])]
  simp only [Option.bind_eq_bind, Option.bind_some]
  split
  · cases ‹c :: rest = []›
  · rename_i same
    exact absurd (List.cons.inj same).1 notHeader
  · rename_i same
    exact absurd (List.cons.inj same).1 notHeader
  · rfl

theorem statement_read (count : Nat) (entries : Entries) (name : String) (written rest : List Char) (v : Value)
    (bare : BareKey name.toList) (reads : value (depthLimit - 1) (written ++ '\n' :: rest) = some (v, '\n' :: rest))
    (solid : written.head?.any isSpace = false) (fresh : entries.find? name = none) :
    statements (count + 1) [] (.headed, entries) (line name written rest) =
      statements count [] (.headed, entries.put name v) rest := by
  have entryReads := entry_read (value (depthLimit - 1)) name.toList written rest v bare reads solid
  rw [String.ofList_toList] at entryReads
  obtain ⟨first, more, letters, notSpace, ordinary⟩ := bare.begins
  have plain : first ∉ ['\n', '\r', '#', '['] := by
    simp only [List.mem_cons, List.not_mem_nil, or_false, not_or] at ordinary ⊢
    exact ⟨ordinary.2.2.1, ordinary.2.2.2.1, ordinary.2.2.2.2.1, ordinary.2.2.2.2.2.1⟩
  rw [line, letters, List.cons_append, statement_is_entry count _ first _ notSpace plain, ← List.cons_append, ← letters,
    entryReads]
  simp [within, addDotted, addKey, fresh, endLine]

end AlarmClock.Toml
