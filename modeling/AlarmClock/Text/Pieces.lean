set_option autoImplicit false

namespace AlarmClock

def pieces {α : Type} (isSeparator : α → Bool) : List α → List (List α)
  | [] => []
  | x :: rest =>
      if isSeparator x then pieces isSeparator rest
      else
        match rest with
        | [] => [[x]]
        | y :: _ =>
            if isSeparator y then [x] :: pieces isSeparator rest
            else
              match pieces isSeparator rest with
              | [] => [[x]]
              | piece :: others => (x :: piece) :: others

theorem pieces_separator {α : Type} (isSeparator : α → Bool) (x : α) (rest : List α)
    (separates : isSeparator x = true) :
    pieces isSeparator (x :: rest) = pieces isSeparator rest := by
  cases rest <;> simp [pieces, separates]

theorem pieces_begin {α : Type} (isSeparator : α → Bool) (x : α) (rest : List α) (plain : isSeparator x = false) :
    ∃ piece others, pieces isSeparator (x :: rest) = (x :: piece) :: others := by
  cases rest with
  | nil => exact ⟨[], [], by simp [pieces, plain]⟩
  | cons y tail =>
      rw [pieces, if_neg (Bool.not_eq_true _ ▸ plain)]
      split
      · exact ⟨[], _, rfl⟩
      · split
        · exact ⟨[], [], rfl⟩
        · exact ⟨_, _, rfl⟩

theorem pieces_ne_nil {α : Type} (isSeparator : α → Bool) (x : α) (rest : List α) (plain : isSeparator x = false) :
    pieces isSeparator (x :: rest) ≠ [] := by
  obtain ⟨piece, others, begins⟩ := pieces_begin isSeparator x rest plain
  rw [begins]
  exact List.cons_ne_nil _ _

theorem pieces_append {α : Type} (isSeparator : α → Bool) (x : α) (separates : isSeparator x = true)
    (earlier later : List α) :
    pieces isSeparator (earlier ++ x :: later) = pieces isSeparator earlier ++ pieces isSeparator later := by
  induction earlier with
  | nil => exact pieces_separator isSeparator x later separates
  | cons y rest ih =>
      by_cases parts : isSeparator y = true
      · rw [List.cons_append, pieces_separator isSeparator y _ parts, pieces_separator isSeparator y _ parts]
        exact ih
      · cases rest with
        | nil => simp [pieces, parts, separates]
        | cons z tail =>
            rw [List.cons_append, List.cons_append, pieces, if_neg parts]
            rw [pieces, if_neg parts]
            rw [List.cons_append] at ih
            by_cases next : isSeparator z = true
            · simp only [if_pos next, ih, List.cons_append]
            · simp only [if_neg next, ih]
              cases known : pieces isSeparator (z :: tail) with
              | nil => exact absurd known (pieces_ne_nil isSeparator z tail (Bool.eq_false_iff.mpr next))
              | cons piece others => rfl

theorem pieces_whole {α : Type} (isSeparator : α → Bool) (items : List α) (filled : items ≠ [])
    (plain : ∀ x ∈ items, isSeparator x = false) : pieces isSeparator items = [items] := by
  induction items with
  | nil => exact absurd rfl filled
  | cons x rest ih =>
      obtain ⟨first, later⟩ := List.forall_mem_cons.mp plain
      cases rest with
      | nil => simp [pieces, first]
      | cons y tail =>
          have next := later y List.mem_cons_self
          rw [pieces, ih (List.cons_ne_nil y tail) later]
          simp [first, next]

end AlarmClock
