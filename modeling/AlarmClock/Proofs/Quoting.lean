import AlarmClock.Toml.Document
import AlarmClock.Toml.Quote
import Mathlib.Data.List.Infix

set_option autoImplicit false

namespace AlarmClock.Toml

theorem has_run_iff (c : Char) (count : Nat) (text : List Char) :
    hasRun c count text = true ↔ List.replicate count c <:+: text := by
  induction text with
  | nil => simp [hasRun]
  | cons first rest ih => rw [hasRun, Bool.or_eq_true, List.isPrefixOf_iff_prefix, ih, List.infix_cons_iff]

theorem plain_iff (c : Char) : isPlain c = true ↔ isControl c = false ∧ c ≠ '\n' := by
  have order : c = '\t' ↔ c.toNat = 9 := by rw [← Char.toNat_inj]; rfl
  have lineBreak : c = '\n' ↔ c.toNat = 10 := by rw [← Char.toNat_inj]; rfl
  simp only [isPlain, isControl, Bool.or_eq_true, Bool.or_eq_false_iff, Bool.and_eq_true, Bool.and_eq_false_iff,
    beq_iff_eq, bne_iff_ne, decide_eq_true_eq, decide_eq_false_iff_not, bne_eq_false_iff_eq, beq_eq_false_iff_ne, ne_eq,
    order, lineBreak]
  omega

structure TakesEscapes (read : Reader (List Char)) : Prop where
  plain : ∀ c rest, isPlain c = true → c ≠ '\\' → c ≠ '"' → read (c :: rest) = consChar c (read rest)
  named : ∀ c sign rest, sign ≠ 'u' → sign ≠ 'U' → escaped? sign = some c →
    read ('\\' :: sign :: rest) = consChar c (read rest)
  coded : ∀ c a b d e rest, charOfHex? [a, b, d, e] = some c →
    read ('\\' :: 'u' :: a :: b :: d :: e :: rest) = consChar c (read rest)

theorem basic_string_takes : TakesEscapes basicString where
  plain c rest plain notSlash notQuote := by
    rw [basicString]
    · simp [plain, notSlash]
    all_goals simp_all
  named c sign rest notShort notLong known := by
    rw [basicString]
    · simp [known]
    all_goals simp_all
  coded c a b d e rest known := by
    rw [basicString, known]
    rfl

theorem basic_lines_takes : TakesEscapes (basicLines false) where
  plain c rest plain notSlash notQuote := by
    have notReturn : c ≠ '\r' := by rintro rfl; cases plain
    have notBreak : c ≠ '\n' := by rintro rfl; cases plain
    rw [basicLines]
    · simp [plain, notSlash]
    all_goals simp_all
  named c sign rest notShort notLong known := by
    rw [basicLines]
    · simp [known]
    all_goals simp_all
  coded c a b d e rest known := by
    rw [basicLines, known]
    rfl

theorem code_of_control (n : Nat) (small : n < 128) :
    charOfHex? ['0', '0', hexDigit (n / 16), hexDigit (n % 16)] = some (Char.ofNat n) := by
  revert n
  decide

theorem control_small (c : Char) (control : isControl c = true) : c.toNat < 128 := by
  simp only [isControl, Bool.or_eq_true, Bool.and_eq_true, decide_eq_true_eq, beq_iff_eq] at control
  omega

theorem escape_read (read : Reader (List Char)) (takes : TakesEscapes read) (c : Char) (rest : List Char) (notQuote : c ≠ '"')
    (notBreak : c ≠ '\n') : read (escape c ++ rest) = consChar c (read rest) := by
  unfold escape
  split
  · exact takes.named _ 'b' rest (by decide) (by decide) rfl
  · exact takes.named _ 't' rest (by decide) (by decide) rfl
  · exact takes.named _ 'f' rest (by decide) (by decide) rfl
  · exact takes.named _ 'r' rest (by decide) (by decide) rfl
  · exact takes.named _ '\\' rest (by decide) (by decide) rfl
  · rename_i notSlash
    by_cases control : isControl c = true
    · rw [if_pos control]
      have code := code_of_control c.toNat (control_small c control)
      rw [Char.ofNat_toNat] at code
      exact takes.coded c _ _ _ _ rest code
    · rw [if_neg control]
      have plain := (plain_iff c).mpr ⟨by simpa using control, notBreak⟩
      exact takes.plain c rest plain notSlash notQuote

theorem escape_begins (c : Char) (notQuote : c ≠ '"') (notBreak : c ≠ '\n') :
    ∃ first more, escape c = first :: more ∧ first ≠ '"' ∧ first ≠ '\n' ∧ first ≠ '\r' := by
  unfold escape
  split
  all_goals try exact ⟨_, _, rfl, by decide⟩
  rename_i notReturn _
  by_cases control : isControl c = true
  · rw [if_pos control]
    exact ⟨_, _, rfl, by decide⟩
  · rw [if_neg control]
    exact ⟨c, [], rfl, notQuote, notBreak, notReturn⟩

theorem basic_string_reads (text rest : List Char) : basicString (escapeLine text ++ '"' :: rest) = some (text, rest) := by
  induction text with
  | nil => rw [escapeLine, List.nil_append, basicString]
  | cons c text ih =>
      rw [escapeLine, List.append_assoc]
      by_cases quote : c = '"'
      · rw [if_pos quote, quote]
        have next := basic_string_takes.named '"' '"' (escapeLine text ++ '"' :: rest) (by decide) (by decide) rfl
        rw [ih] at next
        exact next
      · rw [if_neg quote]
        by_cases lineBreak : c = '\n'
        · rw [if_pos lineBreak, lineBreak]
          have next := basic_string_takes.named '\n' 'n' (escapeLine text ++ '"' :: rest) (by decide) (by decide) rfl
          rw [ih] at next
          exact next
        · rw [if_neg lineBreak, escape_read basicString basic_string_takes c _ quote lineBreak, ih]
          rfl

theorem literal_string_reads (text rest : List Char) (plain : ∀ c ∈ text, isPlain c = true ∧ c ≠ '\'') :
    literalString (text ++ '\'' :: rest) = some (text, rest) := by
  induction text with
  | nil => rw [List.nil_append, literalString]
  | cons c text ih =>
      obtain ⟨plainFirst, notQuote⟩ := plain c List.mem_cons_self
      rw [List.cons_append, literalString, if_pos plainFirst, ih fun other present => plain other (List.mem_cons_of_mem c present)]
      · rfl
      · exact notQuote

theorem basic_lines_break (rest : List Char) : basicLines false ('\n' :: rest) = consChar '\n' (basicLines false rest) := by
  rw [basicLines]
  simp

theorem basic_lines_quote (rest : List Char) (single : ∀ more, rest ≠ '"' :: '"' :: more) :
    basicLines false ('"' :: rest) = consChar '"' (basicLines false rest) := by
  rw [basicLines]
  · simp [isPlain]
  all_goals simp_all

theorem escape_lines_begins (run : Nat) (c : Char) (text : List Char) :
    ∃ first more, escapeLines run (c :: text) = first :: more ∧ (c ≠ '"' ∨ run = 2 → first ≠ '"') ∧
      (first = '\n' → c = '\n') ∧ first ≠ '\r' := by
  rw [escapeLines]
  by_cases quote : c = '"'
  · rw [if_pos quote]
    by_cases third : run = 2
    · rw [if_pos third]
      exact ⟨_, _, rfl, fun _ => by decide, nofun, by decide⟩
    · rw [if_neg third]
      exact ⟨_, _, rfl, fun escapes => (escapes.resolve_right third).elim quote, nofun, by decide⟩
  · rw [if_neg quote]
    by_cases lineBreak : c = '\n'
    · rw [if_pos lineBreak]
      exact ⟨_, _, rfl, fun _ => by decide, fun _ => lineBreak, by decide⟩
    · obtain ⟨first, more, same, notQuote, notBreak, notReturn⟩ := escape_begins c quote lineBreak
      rw [if_neg lineBreak, same]
      exact ⟨first, _, rfl, fun _ => notQuote, fun same => absurd same notBreak, notReturn⟩

-- After a quote that is not escaped, two more follow only at the end of the string.
theorem two_quotes_at_end (run : Nat) (text rest more : List Char) (counted : run = 1 ∨ run = 2)
    (two : escapeLines run text ++ basicQuotes ++ '\n' :: rest = '"' :: '"' :: more) :
    text = [] ∨ text = ['"'] ∧ run = 1 := by
  cases text with
  | nil => exact .inl rfl
  | cons c text =>
      by_cases escapes : c ≠ '"' ∨ run = 2
      · obtain ⟨first, others, same, notQuote, -⟩ := escape_lines_begins run c text
        rw [same] at two
        exact absurd (List.cons.inj two).1 (notQuote escapes)
      · obtain ⟨quote, notTwo⟩ := not_or.mp escapes
        obtain rfl : c = '"' := not_not.mp quote
        obtain rfl : run = 1 := counted.resolve_right notTwo
        cases text with
        | nil => exact .inr ⟨rfl, rfl⟩
        | cons d text =>
            obtain ⟨first, others, same, notQuote, -⟩ := escape_lines_begins 2 d text
            have second : escapeLines 1 ('"' :: d :: text) = '"' :: first :: others := by
              rw [escapeLines, if_pos rfl, if_neg (by decide), same]
            rw [second] at two
            exact absurd (List.cons.inj (List.cons.inj two).2).1 (notQuote (.inr rfl))

theorem basic_lines_read (run : Nat) (text rest : List Char) (few : run ≤ 2) :
    basicLines false (escapeLines run text ++ basicQuotes ++ '\n' :: rest) = some (text, '\n' :: rest) := by
  induction text generalizing run with
  | nil => simp [escapeLines, basicQuotes, basicLines]
  | cons c text ih =>
      by_cases quote : c = '"'
      · subst quote
        by_cases third : run = 2
        · have next := basic_lines_takes.named '"' '"' (escapeLines 0 text ++ basicQuotes ++ '\n' :: rest) (by decide)
            (by decide) rfl
          rw [ih 0 (by decide)] at next
          rw [escapeLines, if_pos rfl, if_pos third]
          exact next
        · have counted : run + 1 = 1 ∨ run + 1 = 2 := by omega
          rw [escapeLines, if_pos rfl, if_neg third, List.cons_append, List.cons_append]
          by_cases two : ∃ more, escapeLines (run + 1) text ++ basicQuotes ++ '\n' :: rest = '"' :: '"' :: more
          · obtain ⟨more, two⟩ := two
            rcases two_quotes_at_end (run + 1) text rest more counted two with rfl | ⟨rfl, first⟩
            · simp [escapeLines, basicQuotes, basicLines]
            · simp [escapeLines, basicQuotes, basicLines, first]
          · rw [basic_lines_quote _ fun more same => two ⟨more, same⟩, ih (run + 1) (by omega)]
            rfl
      · rw [escapeLines, if_neg quote]
        by_cases lineBreak : c = '\n'
        · have next := basic_lines_break (escapeLines 0 text ++ basicQuotes ++ '\n' :: rest)
          rw [ih 0 (by decide)] at next
          rw [if_pos lineBreak, lineBreak]
          exact next
        · rw [if_neg lineBreak, List.append_assoc, List.append_assoc, escape_read _ basic_lines_takes c _ quote lineBreak,
            ← List.append_assoc, ih 0 (by decide)]
          rfl

theorem literal_lines_quote (rest : List Char) (single : ∀ more, rest ≠ '\'' :: '\'' :: more) :
    literalLines ('\'' :: rest) = consChar '\'' (literalLines rest) := by
  rw [literalLines]
  · simp [isPlain]
  all_goals simp_all

theorem literal_lines_plain (c : Char) (rest : List Char) (plain : isPlain c = true ∨ c = '\n') (notQuote : c ≠ '\'') :
    literalLines (c :: rest) = consChar c (literalLines rest) := by
  have notReturn : c ≠ '\r' := by rintro rfl; revert plain; decide
  rw [literalLines]
  · simp [plain]
  all_goals simp_all

theorem literal_lines_read (text rest : List Char) (plain : ∀ c ∈ text, isPlain c = true ∨ c = '\n')
    (apart : ¬ List.replicate 3 '\'' <:+: text) :
    literalLines (text ++ literalQuotes ++ '\n' :: rest) = some (text, '\n' :: rest) := by
  induction text with
  | nil => simp [literalQuotes, literalLines]
  | cons c text ih =>
      have later := ih (fun other present => plain other (List.mem_cons_of_mem c present))
        fun run => apart (List.infix_cons run)
      rw [List.cons_append, List.cons_append]
      by_cases quote : c = '\''
      · subst quote
        by_cases two : ∃ more, text ++ literalQuotes ++ '\n' :: rest = '\'' :: '\'' :: more
        · obtain ⟨more, two⟩ := two
          match text with
          | [] => simp [literalQuotes, literalLines]
          | [d] =>
              obtain rfl : d = '\'' := (List.cons.inj two).1
              simp [literalQuotes, literalLines]
          | d :: e :: text =>
              obtain ⟨rfl, second⟩ := List.cons.inj two
              obtain ⟨rfl, -⟩ := List.cons.inj second
              exact absurd ⟨[], text, rfl⟩ apart
        · rw [literal_lines_quote _ fun more same => two ⟨more, same⟩, later]
          rfl
      · rw [literal_lines_plain c _ (plain c List.mem_cons_self) quote, later]
        rfl

theorem string_single (rest : List Char) (single : ∀ more, rest ≠ '"' :: '"' :: more) :
    string? ('"' :: rest) = basicString rest := by
  rw [string?]
  all_goals simp_all

theorem string_single_literal (rest : List Char) (single : ∀ more, rest ≠ '\'' :: '\'' :: more) :
    string? ('\'' :: rest) = literalString rest := by
  rw [string?]
  all_goals simp_all

theorem drop_first_break (text body : List Char) (same : ∀ rest, body = '\n' :: rest → '\n' ∈ text)
    (noReturn : ∀ rest, body ≠ '\r' :: '\n' :: rest) : dropFirstBreak (firstBreak text ++ body) = body := by
  unfold firstBreak
  by_cases broken : '\n' ∈ text
  · rw [if_pos (List.contains_iff_mem.mpr broken)]
    rfl
  · rw [if_neg (mt List.contains_iff_mem.mp broken), List.nil_append, dropFirstBreak]
    · exact fun rest begins => broken (same rest begins)
    · exact fun rest begins => noReturn rest begins

theorem plain_text (text : List Char) (noControl : text.any isControl = false) (c : Char) (present : c ∈ text) :
    isPlain c = true ∨ c = '\n' := by
  by_cases lineBreak : c = '\n'
  · exact .inr lineBreak
  · have quiet := (List.any_eq_false.mp noControl) c present
    exact .inl ((plain_iff c).mpr ⟨by simpa using quiet, lineBreak⟩)

theorem escape_line_begins (c : Char) (text : List Char) :
    ∃ first more, escapeLine (c :: text) = first :: more ∧ first ≠ '"' := by
  rw [escapeLine]
  by_cases quote : c = '"'
  · rw [if_pos quote]
    exact ⟨_, _, rfl, by decide⟩
  · rw [if_neg quote]
    by_cases lineBreak : c = '\n'
    · rw [if_pos lineBreak]
      exact ⟨_, _, rfl, by decide⟩
    · obtain ⟨first, more, same, notQuote, -⟩ := escape_begins c quote lineBreak
      rw [if_neg lineBreak, same]
      exact ⟨first, _, rfl, notQuote⟩

theorem basic_read (text rest : List Char) :
    string? ('"' :: (escapeLine text ++ '"' :: '\n' :: rest)) = some (text, '\n' :: rest) := by
  rw [string_single, basic_string_reads]
  intro more same
  cases text with
  | nil => exact absurd (List.cons.inj (List.cons.inj same).2).1 (by decide)
  | cons c text =>
      obtain ⟨first, others, begins, notQuote⟩ := escape_line_begins c text
      rw [begins] at same
      exact absurd (List.cons.inj same).1 notQuote

theorem literal_read (text rest : List Char) (noControl : text.any isControl = false) (unbroken : '\n' ∉ text)
    (noQuote : '\'' ∉ text) : string? ('\'' :: (text ++ '\'' :: '\n' :: rest)) = some (text, '\n' :: rest) := by
  rw [string_single_literal, literal_string_reads]
  · intro c present
    refine ⟨(plain_text text noControl c present).resolve_right ?_, fun quote => noQuote (quote ▸ present)⟩
    exact fun lineBreak => unbroken (lineBreak ▸ present)
  · intro more same
    cases text with
    | nil => exact absurd (List.cons.inj (List.cons.inj same).2).1 (by decide)
    | cons c text => exact noQuote ((List.cons.inj same).1 ▸ List.mem_cons_self)

theorem basic_lines_quoted (text rest : List Char) :
    string? (basicQuotes ++ firstBreak text ++ escapeLines 0 text ++ basicQuotes ++ '\n' :: rest) =
      some (text, '\n' :: rest) := by
  have body := drop_first_break text (escapeLines 0 text ++ basicQuotes ++ '\n' :: rest) ?_ ?_
  · have split : basicQuotes ++ firstBreak text ++ escapeLines 0 text ++ basicQuotes ++ '\n' :: rest =
        '"' :: '"' :: '"' :: (firstBreak text ++ (escapeLines 0 text ++ basicQuotes ++ '\n' :: rest)) := by
      simp [basicQuotes]
    rw [split, string?, body, basic_lines_read 0 text rest (by decide)]
  · intro others same
    cases text with
    | nil => exact absurd (List.cons.inj same).1 (by decide)
    | cons c text =>
        obtain ⟨first, more, begins, -, notBreak, -⟩ := escape_lines_begins 0 c text
        rw [begins] at same
        exact notBreak (List.cons.inj same).1 ▸ List.mem_cons_self
  · intro others same
    cases text with
    | nil => exact absurd (List.cons.inj same).1 (by decide)
    | cons c text =>
        obtain ⟨first, more, begins, -, -, notReturn⟩ := escape_lines_begins 0 c text
        rw [begins] at same
        exact notReturn (List.cons.inj same).1

theorem literal_lines_quoted (text rest : List Char) (noControl : text.any isControl = false)
    (apart : ¬ List.replicate 3 '\'' <:+: text) :
    string? (literalQuotes ++ firstBreak text ++ text ++ literalQuotes ++ '\n' :: rest) = some (text, '\n' :: rest) := by
  have body := drop_first_break text (text ++ literalQuotes ++ '\n' :: rest) ?_ ?_
  · have split : literalQuotes ++ firstBreak text ++ text ++ literalQuotes ++ '\n' :: rest =
        '\'' :: '\'' :: '\'' :: (firstBreak text ++ (text ++ literalQuotes ++ '\n' :: rest)) := by
      simp [literalQuotes]
    rw [split, string?, body, literal_lines_read text rest (plain_text text noControl) apart]
  · intro others same
    cases text with
    | nil => exact absurd (List.cons.inj same).1 (by decide)
    | cons c text => exact (List.cons.inj same).1 ▸ List.mem_cons_self
  · intro others same
    cases text with
    | nil => exact absurd (List.cons.inj same).1 (by decide)
    | cons c text =>
        obtain rfl : c = '\r' := (List.cons.inj same).1
        exact absurd (plain_text _ noControl '\r' List.mem_cons_self) (by decide)

theorem quoted_is_read (text rest : List Char) : string? (quoteChars text ++ '\n' :: rest) = some (text, '\n' :: rest) := by
  simp only [quoteChars]
  split_ifs with basic literal lines literals broken
  · simpa using basic_read text rest
  · simp only [Bool.and_eq_true, Bool.not_eq_true', List.contains_eq_mem, decide_eq_false_iff_not] at literal
    obtain ⟨⟨noControl, unbroken⟩, noQuote⟩ := literal
    simpa using literal_read text rest noControl unbroken noQuote
  · exact basic_lines_quoted text rest
  · simp only [Bool.and_eq_true, Bool.not_eq_true'] at literals
    obtain ⟨noControl, noRun⟩ := literals
    refine literal_lines_quoted text rest noControl fun run => ?_
    rw [(has_run_iff _ _ _).mpr run] at noRun
    cases noRun
  · exact basic_lines_quoted text rest
  · simpa using basic_read text rest

-- A text with too many equal quotes in a row.
def Overlong (text : String) : Prop := ∃ mark ∈ ['"', '\''], List.replicate quoteLimit mark <:+: text.toList

theorem overlong_iff (text : String) :
    (hasRun '"' quoteLimit text.toList || hasRun '\'' quoteLimit text.toList) = true ↔ Overlong text := by
  simp [Overlong, has_run_iff]

instance (text : String) : Decidable (Overlong text) := decidable_of_iff _ (overlong_iff text)

theorem quote_some_iff (text quoted : String) :
    quote? text = some quoted ↔ ¬ Overlong text ∧ quoted = String.ofList (quoteChars text.toList) := by
  unfold quote?
  by_cases long : Overlong text
  · rw [if_pos ((overlong_iff text).mpr long)]
    simp [long]
  · rw [if_neg (mt (overlong_iff text).mp long)]
    simp [long, eq_comm]

end AlarmClock.Toml
