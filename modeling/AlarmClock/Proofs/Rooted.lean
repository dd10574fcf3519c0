import AlarmClock.Proofs.Regions
import Mathlib.Data.List.Induction

set_option autoImplicit false

namespace AlarmClock

namespace FileTree

def Rooted (tree : FileTree) : Prop :=
  ∀ place name, (tree.find? (place ++ [name])).isSome = true → tree.find? place = some .directory

theorem empty_rooted : empty.Rooted := by
  intro place name there
  simp [find?, empty] at there

variable (tree : FileTree) (rooted : tree.Rooted)
include rooted

theorem nothing_below (place : Place) (free : tree.find? place ≠ some .directory) (below : Place) (inside : below ≠ []) :
    tree.find? (place ++ below) = none := by
  induction below using List.reverseRecOn with
  | nil => exact absurd rfl inside
  | append_singleton earlier name ih =>
      rw [← List.append_assoc, ← Option.not_isSome_iff_eq_none]
      intro there
      have above := rooted (place ++ earlier) name there
      by_cases direct : earlier = []
      · rw [direct, List.append_nil] at above
        exact free above
      · rw [ih direct] at above
        cases above

theorem stride_lands (here above : Place) (name last : String) (there : tree.find? here = some .directory)
    (leads : stride? here name = some (above ++ [last])) : tree.find? above = some .directory := by
  unfold stride? at leads
  by_cases self : name = "."
  · rw [if_pos self] at leads
    rw [Option.some.inj leads] at there
    exact rooted above last (by rw [there]; rfl)
  · rw [if_neg self] at leads
    by_cases up : name = ".."
    · rw [if_pos up] at leads
      have inside : here ≠ [] := fun root => by simp [root] at leads
      have whole := List.dropLast_concat_getLast inside
      rw [Option.some.inj leads] at whole
      have parent := rooted (above ++ [last]) _ (by rw [whole, there]; rfl)
      exact rooted above last (by rw [parent]; rfl)
    · rw [if_neg up] at leads
      by_cases long : nameLimit < name.utf8ByteSize
      · rw [if_pos long] at leads
        cases leads
      · rw [if_neg long] at leads
        rw [← (List.append_inj' (Option.some.inj leads) rfl).1]
        exact there

theorem walk_lands (names : List String) (moves : names ≠ []) (here above : Place) (last : String)
    (led : tree.walk here names = .ok (above ++ [last])) : tree.find? above = some .directory := by
  induction names generalizing here with
  | nil => exact absurd rfl moves
  | cons name rest ih =>
      obtain ⟨there, next, leads, onwards⟩ := (tree.walk_cons here _ name rest).mp led
      by_cases ends : rest = []
      · subst ends
        obtain rfl := Except.ok.inj onwards
        exact tree.stride_lands rooted here above name last there leads
      · exact ih ends next onwards

theorem put_rooted (place : Place) (node : FileNode) (fits : node = .directory ∨ tree.find? place ≠ some .directory)
    (lands : ∀ above last, place = above ++ [last] → tree.find? above = some .directory) :
    (tree.put place node).Rooted := by
  intro above name there
  by_cases same : place = above ++ [name]
  · rw [tree.find?_put_other place above node (by rw [same]; simp)]
    exact lands above name same
  · rw [tree.find?_put_other place _ node same] at there
    have around := rooted above name there
    by_cases inside : place = above
    · subst inside
      rcases fits with rfl | free
      · by_cases root : place = []
        · rw [root]
          rfl
        · exact tree.find?_put place .directory root
      · exact absurd around free
    · rw [tree.find?_put_other place above node inside]
      exact around

theorem remove_rooted (place : Place) (free : tree.find? place ≠ some .directory) : (tree.remove place).Rooted := by
  have inside := tree.not_root place free
  intro above name there
  by_cases same : place = above ++ [name]
  · rw [← same, tree.find?_remove place inside] at there
    cases there
  · rw [tree.find?_remove_other place _ same] at there
    have around := rooted above name there
    rw [tree.find?_remove_other place above fun stood => free (stood ▸ around)]
    exact around

theorem resolve_lands (path : String) (above : Place) (last : String) (led : tree.resolve path = .ok (above ++ [last])) :
    tree.find? above = some .directory := by
  unfold resolve at led
  cases read : namesOf path with
  | error cause => simp [read] at led
  | ok names =>
      obtain ⟨-, filled, -, rfl⟩ := (names_of_iff path names).mp read
      rw [read] at led
      dsimp only at led
      by_cases none : PathText.names path = []
      · have absolute : PathText.isAbsolute path = true := by
          obtain ⟨c, rest, letters⟩ : ∃ c rest, path.toList = c :: rest :=
            List.exists_cons_of_ne_nil fun empty => by simp [String.toList_eq_nil_iff.mp empty] at filled
          rw [PathText.isAbsolute, letters]
          by_contra relative
          exact pieces_ne_nil _ c rest (Bool.eq_false_iff.mpr relative) (letters ▸ List.map_eq_nil_iff.mp none)
        rw [none, startOf, if_pos absolute] at led
        simp [walk] at led
      · exact tree.walk_lands rooted _ none _ above last led

theorem write_rooted (path : String) (bytes : Bytes) (written : FileTree) (writes : tree.write path bytes = .ok written) :
    written.Rooted := by
  obtain ⟨place, led, free, -, rfl⟩ := (tree.write_iff path bytes written).mp writes
  exact tree.put_rooted rooted place _ (.inr free) fun above last same => tree.resolve_lands rooted path above last (same ▸ led)

theorem rename_rooted (source target : String) (renamed : FileTree) (renames : tree.rename source target = .ok renamed) :
    renamed.Rooted := by
  obtain ⟨bytes, start, place, seen, left, led, -, -, free, rfl⟩ := (tree.rename_iff source target renamed).mp renames
  obtain ⟨origin, led', file, -⟩ := (tree.stat_file_iff source bytes).mp seen
  obtain rfl := Except.ok.inj (led'.symm.trans left)
  have startFree : tree.find? origin ≠ some .directory := by simp [file]
  have adds := tree.remove_adds_no_directory origin (tree.not_root origin startFree)
  refine (tree.remove origin).put_rooted (tree.remove_rooted rooted origin startFree) place _
    (.inr fun there => free (adds.directories place there)) fun above last same => ?_
  have around := tree.resolve_lands rooted target above last (same ▸ led)
  exact (tree.remove_within origin startFree).directories above around

theorem remove_file_rooted (path : String) (removed : FileTree) (removes : tree.removeFile path = .ok removed) :
    removed.Rooted := by
  unfold removeFile at removes
  cases seen : tree.stat path with
  | error cause => simp [seen] at removes
  | ok node =>
      cases node with
      | directory => simp [seen] at removes
      | file bytes =>
          obtain ⟨place, led, file, -⟩ := (tree.stat_file_iff path bytes).mp seen
          simp only [seen, led] at removes
          rw [← Except.ok.inj removes]
          exact tree.remove_rooted rooted place (by simp [file])

theorem ensure_rooted (start : Place) (names : List String) (moves : names ≠ []) (made : FileTree)
    (ensures : tree.ensureDir start names = .ok made) : made.Rooted := by
  unfold ensureDir at ensures
  cases makes : tree.makeDir start names with
  | ok other =>
      obtain ⟨place, walked, free, rfl⟩ := tree.made_dir start names other makes
      rw [makes] at ensures
      rw [← Except.ok.inj ensures]
      exact tree.put_rooted rooted place _ (.inl rfl) fun above last same =>
        tree.walk_lands rooted names moves start above last (same ▸ walked)
  | error cause =>
      rw [makes] at ensures
      dsimp only at ensures
      split at ensures
      · rw [← Except.ok.inj ensures]
        exact rooted
      · cases ensures

theorem way_rooted (start : Place) (dot names : List String) : (tree.makeWay start dot names).2.Rooted := by
  induction names generalizing dot with
  | nil => exact rooted
  | cons name above ih =>
      have moves : ∀ dot, (name :: above).reverse ++ dot ≠ [] := by simp
      rw [makeWay]
      cases first : tree.ensureDir start ((name :: above).reverse ++ dot) with
      | ok made => exact tree.ensure_rooted rooted start _ (moves dot) made first
      | error cause =>
          cases cause with
          | notFound =>
              have before := ih []
              generalize tree.makeWay start [] above = way at before ⊢
              obtain ⟨result, made⟩ := way
              cases result with
              | error cause => exact before
              | ok _ =>
                  dsimp only
                  cases last : made.ensureDir start ((name :: above).reverse ++ dot) with
                  | error cause => exact before
                  | ok all => exact made.ensure_rooted before start _ (moves dot) all last
          | _ => exact rooted

theorem dirs_rooted (path : String) : (tree.makeDirs path).2.Rooted := by
  unfold makeDirs
  by_cases empty : path.isEmpty = true
  · rw [if_pos empty]
    exact rooted
  · rw [if_neg empty]
    cases namesOf path with
    | error cause => exact rooted
    | ok names => exact tree.way_rooted rooted _ _ _

theorem place_rooted (path : String) (bytes : Option Bytes) : (tree.place path bytes).Rooted := by
  cases bytes with
  | none =>
      unfold place
      cases removes : tree.removeFile path with
      | error cause => exact rooted
      | ok removed => exact tree.remove_file_rooted rooted path removed removes
  | some bytes =>
      unfold place plant
      have before := tree.way_rooted rooted (tree.startOf path) []
        (PathText.withoutDots (PathText.names path)).reverse.tail
      generalize tree.makeWay (tree.startOf path) [] _ = way at before ⊢
      obtain ⟨result, made⟩ := way
      cases result with
      | error cause => exact before
      | ok _ =>
          dsimp only
          cases writes : made.write path bytes with
          | error cause => exact before
          | ok written => exact made.write_rooted before path bytes written writes

end FileTree

theorem DirStorage.write_rooted (storage : DirStorage) (region : String) (bytes : Bytes) (tree : FileTree)
    (rooted : tree.Rooted) : (storage.write region bytes tree).2.Rooted := by
  unfold write
  have before := tree.dirs_rooted rooted storage.directory
  generalize tree.makeDirs storage.directory = way at before ⊢
  obtain ⟨result, made⟩ := way
  cases result with
  | error cause => exact before
  | ok _ =>
      dsimp only
      cases writes : made.write (storage.partialPath region) bytes with
      | error cause => exact before
      | ok written =>
          have aside := made.write_rooted before _ bytes written writes
          dsimp only
          cases renames : written.rename (storage.partialPath region) (storage.path region) with
          | error cause => exact aside
          | ok renamed => exact written.rename_rooted aside _ _ renamed renames

end AlarmClock
