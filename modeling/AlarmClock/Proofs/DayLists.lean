import AlarmClock.Proofs.DayNames
import Mathlib.Data.List.TakeWhile

set_option autoImplicit false

namespace AlarmClock

theorem pieces_eq_split {α : Type} [DecidableEq α] (isSeparator : α → Bool) (items : List α) :
    pieces isSeparator items = (items.splitOnP isSeparator).filter (· ≠ []) := by
  induction items with
  | nil => rfl
  | cons x rest ih =>
      rw [List.splitOnP_cons_eq_if_modifyHead]
      by_cases separates : isSeparator x = true
      · rw [pieces_separator isSeparator x rest separates, if_pos separates, ih]
        rfl
      · rw [if_neg separates]
        cases rest with
        | nil => simp [pieces, separates]
        | cons y tail =>
            rw [pieces, if_neg separates, ih, List.splitOnP_cons_eq_if_modifyHead]
            by_cases next : isSeparator y = true
            · simp only [if_pos next]
              rfl
            · obtain ⟨first, others, split⟩ := List.exists_cons_of_ne_nil (List.splitOnP_ne_nil isSeparator tail)
              simp [if_neg next, split]

structure Trimmed (text body : List Char) : Prop where
  ends : ∃ front back, text = front ++ body ++ back ∧ (∀ c ∈ front, isBlank c = true) ∧ ∀ c ∈ back, isBlank c = true
  first : ∀ c, body.head? = some c → isBlank c = false
  last : ∀ c, body.getLast? = some c → isBlank c = false

theorem trim_start_spec (text : List Char) :
    ∃ front, text = front ++ trimStart text ∧ (∀ c ∈ front, isBlank c = true) ∧
      ∀ c, (trimStart text).head? = some c → isBlank c = false := by
  refine ⟨text.takeWhile isBlank, List.takeWhile_append_dropWhile.symm, List.all_eq_true.mp List.all_takeWhile, ?_⟩
  intro c begins
  have first := List.head?_dropWhile_not isBlank text
  rw [trimStart] at begins
  rw [begins] at first
  simpa using first

theorem trim_spec (text : List Char) : Trimmed text (trim text) := by
  obtain ⟨front, split, blank, first⟩ := trim_start_spec text
  obtain ⟨back, otherSplit, otherBlank, last⟩ := trim_start_spec (trimStart text).reverse
  have body : trimStart text = trim text ++ back.reverse := by
    rw [trim, ← List.reverse_append, ← otherSplit, List.reverse_reverse]
  refine ⟨⟨front, back.reverse, ?_, blank, fun c present => otherBlank c (List.mem_reverse.mp present)⟩, ?_, ?_⟩
  · rw [List.append_assoc, ← body]
    exact split
  · intro c begins
    apply first c
    rw [body, List.head?_append, begins]
    rfl
  · intro c ends
    apply last c
    rw [trim, List.getLast?_reverse] at ends
    exact ends

theorem map_m_some {α β : Type} (f : α → Option β) (xs : List α) (ys : List β) (found : xs.mapM f = some ys) :
    (∀ x ∈ xs, ∃ y ∈ ys, f x = some y) ∧ ∀ y ∈ ys, ∃ x ∈ xs, f x = some y := by
  induction xs generalizing ys with
  | nil =>
      obtain rfl : [] = ys := by simpa using found
      exact ⟨nofun, nofun⟩
  | cons x rest ih =>
      rw [List.mapM_cons] at found
      obtain ⟨y, here, later⟩ := Option.bind_eq_some_iff.mp found
      obtain ⟨others, tail, whole⟩ := Option.bind_eq_some_iff.mp later
      obtain rfl : y :: others = ys := Option.some.inj whole
      obtain ⟨forward, backward⟩ := ih others tail
      constructor
      · refine List.forall_mem_cons.mpr ⟨⟨y, List.mem_cons_self, here⟩, fun item present => ?_⟩
        obtain ⟨image, member, maps⟩ := forward item present
        exact ⟨image, List.mem_cons_of_mem y member, maps⟩
      · refine List.forall_mem_cons.mpr ⟨⟨x, List.mem_cons_self, here⟩, fun image present => ?_⟩
        obtain ⟨item, member, maps⟩ := backward image present
        exact ⟨item, List.mem_cons_of_mem x member, maps⟩

theorem map_m_total {α β : Type} (f : α → Option β) (xs : List α) (total : ∀ x ∈ xs, ∃ y, f x = some y) :
    ∃ ys, xs.mapM f = some ys := by
  induction xs with
  | nil => exact ⟨[], rfl⟩
  | cons x rest ih =>
      obtain ⟨⟨y, here⟩, later⟩ := List.forall_mem_cons.mp total
      obtain ⟨others, tail⟩ := ih later
      exact ⟨y :: others, by rw [List.mapM_cons, here, tail]; rfl⟩

namespace Days

def cuts (body : List Char) : List (List Char) := (body.splitOnP isSeparator).filter (· ≠ [])

inductive Bounds : List Char → Weekday → Weekday → Prop where
  | day (piece : List Char) (day : Weekday) (named : day.Named piece) : Bounds piece day day
  | range (start stop : List Char) (first last : Weekday) (undashed : '-' ∉ start) (begins : first.Named start)
      (ends : last.Named stop) : Bounds (start ++ '-' :: stop) first last

structure Listed (pieces : List (List Char)) (days : Days) : Prop where
  valid : days.Valid
  each : ∀ piece ∈ pieces, ∃ first last, Bounds piece first last
  union : ∀ day, days.contains day = true ↔
    ∃ piece ∈ pieces, ∃ first last, Bounds piece first last ∧ Weekday.Met last first day

inductive Word (body : List Char) : Days → Prop where
  | once (same : sameLetters body "once".toList = true) : Word body once
  | daily (same : sameLetters body "daily".toList = true) : Word body daily

inductive Means (body : List Char) : Days → Prop where
  | empty (nothing : body = []) : Means body once
  | word (days : Days) (word : Word body days) : Means body days
  | list (days : Days) (listed : Listed (cuts body) days) : Means body days

def Accepted (body : List Char) : Prop :=
  body = [] ∨ sameLetters body "once".toList = true ∨ sameLetters body "daily".toList = true ∨
    ∀ piece ∈ cuts body, ∃ first last, Bounds piece first last

theorem piece_days_plain (piece : List Char) (plain : '-' ∉ piece) :
    pieceDays? piece = (Weekday.parse? piece).map fun day => [day] := by
  have whole : piece.dropWhile (· != '-') = [] := by
    rw [List.dropWhile_eq_nil_iff]
    intro c present
    simpa using fun same : c = '-' => plain (same ▸ present)
  rw [pieceDays?, whole]

theorem piece_days_dashed (start stop : List Char) (undashed : '-' ∉ start) :
    pieceDays? (start ++ '-' :: stop) =
      (Weekday.parse? start).bind fun first => (Weekday.parse? stop).map fun last => first.span last := by
  have before : ∀ c ∈ start, (c != '-') = true := fun c present => by
    simpa using fun same : c = '-' => undashed (same ▸ present)
  have taken : (start ++ '-' :: stop).takeWhile (· != '-') = start := by
    rw [List.takeWhile_append_of_pos before]
    simp
  have rest : (start ++ '-' :: stop).dropWhile (· != '-') = '-' :: stop := by
    rw [List.dropWhile_append_of_pos before]
    simp
  rw [pieceDays?, taken, rest]
  dsimp only
  cases Weekday.parse? start with
  | none => rfl
  | some first =>
      cases Weekday.parse? stop with
      | none => rfl
      | some last => rfl

theorem Bounds.piece_days {piece : List Char} {first last : Weekday} (bounds : Bounds piece first last) :
    pieceDays? piece = some (first.span last) := by
  cases bounds with
  | day _ _ named =>
      rw [piece_days_plain piece (first.named_undashed piece named), (Weekday.parse_day_iff piece first).mpr named,
        first.span_self]
      rfl
  | range start stop _ _ undashed begins ends =>
      rw [piece_days_dashed start stop undashed, (Weekday.parse_day_iff start first).mpr begins,
        (Weekday.parse_day_iff stop last).mpr ends]
      rfl

theorem bounds_of_piece_days (piece : List Char) (days : List Weekday) (read : pieceDays? piece = some days) :
    ∃ first last, Bounds piece first last ∧ days = first.span last := by
  by_cases dash : '-' ∈ piece
  · obtain ⟨start, stop, rfl, undashed⟩ := List.eq_append_cons_of_mem dash
    rw [piece_days_dashed start stop undashed] at read
    obtain ⟨first, begins, rest⟩ := Option.bind_eq_some_iff.mp read
    obtain ⟨last, ends, rfl⟩ := Option.map_eq_some_iff.mp rest
    exact ⟨first, last, .range start stop first last undashed ((Weekday.parse_day_iff start first).mp begins)
      ((Weekday.parse_day_iff stop last).mp ends), rfl⟩
  · rw [piece_days_plain piece dash] at read
    obtain ⟨day, named, rfl⟩ := Option.map_eq_some_iff.mp read
    exact ⟨day, day, .day piece day ((Weekday.parse_day_iff piece day).mp named), day.span_self.symm⟩

theorem listed_of_pieces (pieces : List (List Char)) (lists : List (List Weekday))
    (read : pieces.mapM pieceDays? = some lists) : Listed pieces (ofList lists.flatten) := by
  obtain ⟨forward, backward⟩ := map_m_some pieceDays? pieces lists read
  refine ⟨of_list_valid lists.flatten, fun piece present => ?_, fun day => ?_⟩
  · obtain ⟨days, -, named⟩ := forward piece present
    obtain ⟨first, last, bounds, -⟩ := bounds_of_piece_days piece days named
    exact ⟨first, last, bounds⟩
  · rw [contains_of_list, List.mem_flatten]
    constructor
    · rintro ⟨days, member, inside⟩
      obtain ⟨piece, present, named⟩ := backward days member
      obtain ⟨first, last, bounds, rfl⟩ := bounds_of_piece_days piece days named
      exact ⟨piece, present, first, last, bounds, (Weekday.met_iff first last day).mpr inside⟩
    · rintro ⟨piece, present, first, last, bounds, met⟩
      obtain ⟨days, member, named⟩ := forward piece present
      rw [bounds.piece_days] at named
      obtain rfl := Option.some.inj named
      exact ⟨first.span last, member, (Weekday.met_iff first last day).mp met⟩

theorem pieces_total (pieces : List (List Char)) (each : ∀ piece ∈ pieces, ∃ first last, Bounds piece first last) :
    ∃ lists, pieces.mapM pieceDays? = some lists := by
  apply map_m_total
  intro piece present
  obtain ⟨first, last, bounds⟩ := each piece present
  exact ⟨first.span last, bounds.piece_days⟩

theorem listed_unique (pieces others : List (List Char)) (a b : Days) (same : ∀ piece, piece ∈ pieces ↔ piece ∈ others)
    (listed : Listed pieces a) (otherListed : Listed others b) : a = b := by
  apply members_injective a b listed.valid otherListed.valid
  ext day
  rw [mem_members, mem_members, listed.union, otherListed.union]
  simp only [same]

theorem Word.letters {body : List Char} {days : Days} (word : Word body days) :
    body.map Char.toLower = "once".toList ∨ body.map Char.toLower = "daily".toList := by
  cases word with
  | once same => exact .inl ((same_letters_iff _ _).mp same)
  | daily same => exact .inr ((same_letters_iff _ _).mp same)

theorem Word.unique {body : List Char} {a b : Days} (word : Word body a) (other : Word body b) : a = b := by
  cases word with
  | once same =>
      cases other with
      | once => rfl
      | daily otherSame =>
          rw [same_letters_iff] at same otherSame
          exact absurd (same.symm.trans otherSame) (by decide)
  | daily same =>
      cases other with
      | once otherSame =>
          rw [same_letters_iff] at same otherSame
          exact absurd (same.symm.trans otherSame) (by decide)
      | daily => rfl

theorem Word.unmarked {body : List Char} {days : Days} (word : Word body days) (mark : Char)
    (marks : mark = '-' ∨ mark = ',' ∨ mark = ' ') : mark ∉ body := by
  intro present
  have lower : mark.toLower ∈ body.map Char.toLower := List.mem_map_of_mem present
  revert lower
  rcases word.letters with same | same
  · rw [same]
    rcases marks with rfl | rfl | rfl <;> decide
  · rw [same]
    rcases marks with rfl | rfl | rfl <;> decide

theorem Word.alone {body : List Char} {days : Days} (word : Word body days) : cuts body = [body] := by
  have plain : ∀ c ∈ body, isSeparator c = false := by
    intro c present
    have comma : c ≠ ',' := fun same => word.unmarked ',' (.inr (.inl rfl)) (same ▸ present)
    have space : c ≠ ' ' := fun same => word.unmarked ' ' (.inr (.inr rfl)) (same ▸ present)
    simp [isSeparator, comma, space]
  have filled : body ≠ [] := by
    rintro rfl
    rcases word.letters with same | same
    · cases same
    · cases same
  rw [cuts, List.splitOnP_eq_singleton plain]
  simp [filled]

theorem Word.names_no_day {body : List Char} {days : Days} (word : Word body days) (first last : Weekday) :
    ¬ Bounds body first last := by
  intro bounds
  cases bounds with
  | day _ _ named =>
      have begins := first.named_begins body named
      revert begins
      rcases word.letters with same | same
      · rw [same]
        cases first <;> decide
      · rw [same]
        cases first <;> decide
  | range => exact word.unmarked '-' (.inl rfl) (by simp)

theorem Word.not_listed {body : List Char} {days : Days} (word : Word body days) (pieces : List (List Char)) (others : Days)
    (present : body ∈ pieces) : ¬ Listed pieces others := by
  intro listed
  obtain ⟨first, last, bounds⟩ := listed.each body present
  exact word.names_no_day first last bounds

theorem means_cases (body : List Char) (days : Days) (means : Means body days) : Word body days ∨ Listed (cuts body) days := by
  cases means with
  | empty nothing => exact .inr (nothing ▸ listed_of_pieces [] [] rfl)
  | word _ word => exact .inl word
  | list _ listed => exact .inr listed

theorem means_unique (body other : List Char) (a b : Days) (same : ∀ piece, piece ∈ cuts body ↔ piece ∈ cuts other)
    (means : Means body a) (otherMeans : Means other b) : a = b := by
  rcases means_cases body a means with word | listed
  · rcases means_cases other b otherMeans with otherWord | otherListed
    · rw [word.alone, otherWord.alone] at same
      obtain rfl : body = other := List.mem_singleton.mp ((same body).mp (List.mem_singleton_self body))
      exact word.unique otherWord
    · exact absurd otherListed (word.not_listed (cuts other) b ((same body).mp (word.alone ▸ List.mem_singleton_self body)))
  · rcases means_cases other b otherMeans with otherWord | otherListed
    · exact absurd listed
        (otherWord.not_listed (cuts body) a ((same other).mpr (otherWord.alone ▸ List.mem_singleton_self other)))
    · exact listed_unique (cuts body) (cuts other) a b same listed otherListed

theorem means_of_parse (text : List Char) (days : Days) (read : parse? text = some days) : Means (trim text) days := by
  simp only [parse?] at read
  generalize trim text = body at read ⊢
  by_cases single : body = [] ∨ sameLetters body "once".toList = true
  · rw [if_pos single] at read
    obtain rfl := Option.some.inj read
    exact single.elim .empty fun same => .word _ (.once same)
  · rw [if_neg single] at read
    by_cases every : sameLetters body "daily".toList = true
    · rw [if_pos every] at read
      obtain rfl := Option.some.inj read
      exact .word _ (.daily every)
    · rw [if_neg every, pieces_eq_split] at read
      obtain ⟨lists, found, rfl⟩ := Option.map_eq_some_iff.mp read
      exact .list _ (listed_of_pieces (cuts body) lists found)

theorem parse_accepted (text : List Char) (accepted : Accepted (trim text)) : ∃ days, parse? text = some days := by
  simp only [parse?]
  unfold Accepted at accepted
  generalize trim text = body at accepted ⊢
  by_cases single : body = [] ∨ sameLetters body "once".toList = true
  · exact ⟨once, if_pos single⟩
  · rw [if_neg single]
    by_cases every : sameLetters body "daily".toList = true
    · exact ⟨daily, if_pos every⟩
    · rw [if_neg every, pieces_eq_split]
      obtain ⟨filled, other⟩ := not_or.mp single
      rcases accepted with nothing | same | same | each
      · exact absurd nothing filled
      · exact absurd same other
      · exact absurd same every
      · obtain ⟨lists, found⟩ := pieces_total (cuts body) each
        exact ⟨ofList lists.flatten, Option.map_eq_some_iff.mpr ⟨lists, found, rfl⟩⟩

theorem accepted_of_means (body : List Char) (days : Days) (means : Means body days) : Accepted body := by
  cases means with
  | empty nothing => exact .inl nothing
  | word _ word =>
      cases word with
      | once same => exact .inr (.inl same)
      | daily same => exact .inr (.inr (.inl same))
  | list _ listed => exact .inr (.inr (.inr listed.each))

theorem parse_iff_means (text : List Char) (days : Days) : parse? text = some days ↔ Means (trim text) days := by
  refine ⟨means_of_parse text days, fun means => ?_⟩
  obtain ⟨found, read⟩ := parse_accepted text (accepted_of_means (trim text) days means)
  rw [read, means_unique (trim text) (trim text) found days (fun _ => Iff.rfl) (means_of_parse text found read) means]

theorem parse_ok_iff (text : String) (days : Days) : parse text = .ok days ↔ parse? text.toList = some days := by
  unfold parse
  cases parse? text.toList with
  | none => exact iff_of_false nofun nofun
  | some found => rw [Except.ok.injEq, Option.some_inj]

theorem parse_error_iff (text : String) (fault : ParseError) :
    parse text = .error fault ↔ parse? text.toList = none ∧ fault = ⟨text⟩ := by
  unfold parse
  cases parse? text.toList with
  | none => simp [eq_comm]
  | some found => simp

theorem parse_valid (text : String) (days : Days) (read : parse text = .ok days) : days.Valid := by
  cases means_of_parse text.toList days ((parse_ok_iff text days).mp read) with
  | empty => decide
  | word _ word =>
      cases word with
      | once => decide
      | daily => decide
  | list _ listed => exact listed.valid

theorem parse_accepts_day_lists (text : String) :
    let body := trim text.toList
    Trimmed text.toList body ∧
      ((∃ days, parse text = .ok days) ↔ Accepted body) ∧
      (∀ days, parse text = .ok days ↔ Means body days) ∧
      (∀ fault, parse text = .error fault ↔ ¬ Accepted body ∧ fault = ⟨text⟩) ∧
      ∀ other days otherDays, parse text = .ok days → parse other = .ok otherDays →
        (∀ piece, piece ∈ cuts body ↔ piece ∈ cuts (trim other.toList)) → days = otherDays := by
  intro body
  have value : ∀ (text : String) days, parse text = .ok days ↔ Means (trim text.toList) days := fun text days =>
    (parse_ok_iff text days).trans (parse_iff_means text.toList days)
  have accepts : (∃ days, parse? text.toList = some days) ↔ Accepted body :=
    ⟨fun ⟨days, read⟩ => accepted_of_means body days (means_of_parse text.toList days read), parse_accepted text.toList⟩
  refine ⟨trim_spec text.toList, ?_, value text, fun fault => ?_, fun other days otherDays read otherRead same => ?_⟩
  · simpa only [parse_ok_iff] using accepts
  · rw [parse_error_iff, ← accepts, ← Option.isSome_iff_exists, Option.not_isSome_iff_eq_none]
  · exact means_unique body (trim other.toList) days otherDays same ((value text days).mp read)
      ((value other otherDays).mp otherRead)

theorem wrapped_range_means_same :
    let text := " fr-Mo,,we fr-Mo "
    let other := "we,fr-Mo"
    parse text = .ok ⟨0x6b⟩ ∧ parse other = .ok ⟨0x6b⟩ ∧
      (∀ piece, piece ∈ cuts (trim text.toList) ↔ piece ∈ cuts (trim other.toList)) ∧ Means (trim text.toList) ⟨0x6b⟩ := by
  intro text other
  have pieces : ∀ piece, piece ∈ cuts (trim text.toList) ↔ piece ∈ cuts (trim other.toList) := by
    have first : cuts (trim text.toList) = ["fr-Mo".toList, "we".toList, "fr-Mo".toList] := by decide +kernel
    have second : cuts (trim other.toList) = ["we".toList, "fr-Mo".toList] := by decide +kernel
    intro piece
    rw [first, second]
    simp [or_comm]
  have otherRead : parse other = .ok ⟨0x6b⟩ := by decide +kernel
  obtain ⟨days, read⟩ : ∃ days, parse text = .ok days := ⟨⟨0x6b⟩, by decide +kernel⟩
  obtain ⟨-, -, means, -, same⟩ := parse_accepts_day_lists text
  obtain rfl := same other days ⟨0x6b⟩ read otherRead pieces
  exact ⟨read, otherRead, pieces, (means _).mp read⟩

example : parse " ,, " = .ok once := by decide +kernel

example : parse "once," = .error ⟨"once,"⟩ := by decide +kernel

end Days
end AlarmClock
