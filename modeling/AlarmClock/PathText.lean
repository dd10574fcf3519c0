import AlarmClock.Text.Pieces

set_option autoImplicit false

namespace AlarmClock.PathText

def isSlash (c : Char) : Bool := c == '/'

def isAbsolute (path : String) : Bool := path.toList.head?.any isSlash

def join (directory path : String) : String :=
  if isAbsolute path || directory.isEmpty then path
  else if directory.toList.getLast?.any isSlash then directory ++ path
  else directory ++ "/" ++ path

def names (path : String) : List String := (pieces isSlash path.toList).map String.ofList

def withoutDots (names : List String) : List String := names.filter (· != ".")

def endsInSlash (path : String) : Bool := path.toList.getLast?.any isSlash

def endsInDots (path : String) : Bool := (names path).getLast?.any fun name => name == "." || name == ".."

structure Plain (name : String) : Prop where
  filled : name.toList ≠ []
  undivided : ∀ c ∈ name.toList, isSlash c = false
  notSelf : name ≠ "."
  notAbove : name ≠ ".."

theorem plain_iff (name : String) :
    Plain name ↔ name.toList ≠ [] ∧ (∀ c ∈ name.toList, isSlash c = false) ∧ name ≠ "." ∧ name ≠ ".." :=
  ⟨fun plain => ⟨plain.filled, plain.undivided, plain.notSelf, plain.notAbove⟩,
    fun ⟨filled, undivided, notSelf, notAbove⟩ => ⟨filled, undivided, notSelf, notAbove⟩⟩

theorem names_plain (name : String) (plain : Plain name) : names name = [name] := by
  rw [names, pieces_whole isSlash name.toList plain.filled plain.undivided, List.map_singleton, String.ofList_toList]

theorem absolute_plain (name : String) (plain : Plain name) : isAbsolute name = false := by
  obtain ⟨c, rest, letters⟩ := List.exists_cons_of_ne_nil plain.filled
  rw [isAbsolute, letters]
  exact plain.undivided c (letters ▸ List.mem_cons_self)

theorem names_join (directory name : String) (plain : Plain name) :
    names (join directory name) = names directory ++ [name] := by
  have alone := names_plain name plain
  simp only [names] at alone ⊢
  by_cases empty : directory.isEmpty = true
  · obtain rfl := String.isEmpty_iff.mp empty
    rw [join, empty, Bool.or_true, if_pos rfl, alone]
    rfl
  · rw [join, absolute_plain name plain, Bool.false_or, if_neg empty]
    by_cases ends : directory.toList.getLast?.any isSlash = true
    · obtain ⟨c, last, slash⟩ := (Option.any_eq_true _ _).mp ends
      obtain ⟨earlier, split⟩ := List.getLast?_eq_some_iff.mp last
      rw [if_pos ends, String.toList_append, split, List.append_assoc]
      simp only [List.cons_append, List.nil_append]
      rw [pieces_append isSlash c slash, pieces_append isSlash c slash, List.map_append, List.map_append, alone, pieces,
        List.map_nil, List.append_nil]
    · rw [if_neg ends, String.toList_append, String.toList_append, List.append_assoc]
      have slash : isSlash '/' = true := rfl
      have single : "/".toList = ['/'] := rfl
      rw [single, List.singleton_append, pieces_append isSlash '/' slash, List.map_append, alone]

theorem join_begins (directory name : String) (plain : Plain name) : ∃ rest, join directory name = directory ++ rest := by
  by_cases empty : directory.isEmpty = true
  · obtain rfl := String.isEmpty_iff.mp empty
    exact ⟨name, by rw [join, empty, Bool.or_true, if_pos rfl, String.empty_append]⟩
  · rw [join, absolute_plain name plain, Bool.false_or, if_neg empty]
    by_cases ends : directory.toList.getLast?.any isSlash = true
    · rw [if_pos ends]
      exact ⟨name, rfl⟩
    · rw [if_neg ends]
      exact ⟨"/" ++ name, String.append_assoc⟩

theorem absolute_append (directory rest : String) (filled : directory.isEmpty = false) :
    isAbsolute (directory ++ rest) = isAbsolute directory := by
  have some : directory.toList ≠ [] := fun none => by
    rw [String.toList_eq_nil_iff] at none
    subst none
    cases filled
  obtain ⟨c, letters, split⟩ := List.exists_cons_of_ne_nil some
  rw [isAbsolute, isAbsolute, String.toList_append, split]
  rfl

end AlarmClock.PathText
