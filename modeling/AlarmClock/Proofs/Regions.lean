import AlarmClock.Proofs.Directories
import AlarmClock.Storage

set_option autoImplicit false

namespace AlarmClock

namespace FileTree

variable (tree : FileTree)

theorem stat_file_iff (path : String) (bytes : Bytes) :
    tree.stat path = .ok (.file bytes) ↔
      ∃ place, tree.resolve path = .ok place ∧ tree.find? place = some (.file bytes) ∧
        PathText.endsInSlash path = false := by
  unfold stat
  cases tree.resolve path with
  | error cause => simp
  | ok place =>
      simp only [Except.ok.injEq, exists_eq_left']
      cases tree.find? place with
      | none => simp
      | some node =>
          cases node with
          | directory => simp
          | file other =>
              by_cases slash : PathText.endsInSlash path = true
              · simp [slash]
              · simp [slash]

theorem write_iff (path : String) (bytes : Bytes) (written : FileTree) :
    tree.write path bytes = .ok written ↔
      ∃ place, tree.resolve path = .ok place ∧ tree.find? place ≠ some .directory ∧
        PathText.endsInSlash path = false ∧ written = tree.put place (.file bytes) := by
  unfold write
  cases tree.resolve path with
  | error cause => simp
  | ok place =>
      simp only [Except.ok.injEq, exists_eq_left']
      by_cases directory : tree.find? place = some .directory
      · simp [directory]
      · by_cases slash : PathText.endsInSlash path = true
        · simp [slash]
        · simp [slash, directory, eq_comm]

theorem rename_iff (source target : String) (renamed : FileTree) :
    tree.rename source target = .ok renamed ↔
      ∃ bytes start place, tree.stat source = .ok (.file bytes) ∧ tree.resolve source = .ok start ∧
        tree.resolve target = .ok place ∧ PathText.endsInDots target = false ∧
        PathText.endsInSlash target = false ∧ tree.find? place ≠ some .directory ∧
        renamed = (tree.remove start).put place (.file bytes) := by
  unfold rename
  cases tree.stat source with
  | error cause => simp
  | ok node =>
      cases node with
      | directory => simp
      | file bytes =>
          cases tree.resolve source with
          | error cause => simp
          | ok start =>
              cases tree.resolve target with
              | error cause => simp
              | ok place =>
                  by_cases dots : PathText.endsInDots target = true
                  · simp [dots]
                  · by_cases slash : PathText.endsInSlash target = true
                    · simp [dots, slash]
                    · by_cases directory : tree.find? place = some .directory
                      · simp [dots, slash, directory]
                      · simp [dots, slash, directory, eq_comm (a := renamed)]

def replaced (start place : Place) (bytes : Bytes) : FileTree :=
  ((tree.put start (.file bytes)).remove start).put place (.file bytes)

section Replaced

variable (start place : Place) (bytes : Bytes)

theorem replaced_adds_no_directory (startInside : start ≠ []) (placeInside : place ≠ []) :
    (tree.replaced start place bytes).Within tree := by
  have aside := tree.put_file_adds_no_directory start bytes startInside
  have moved := (tree.put start (.file bytes)).remove_adds_no_directory start startInside
  have back := ((tree.put start (.file bytes)).remove start).put_file_adds_no_directory place bytes placeInside
  exact .trans _ _ _ back (.trans _ _ _ moved aside)

theorem replaced_within (startFree : tree.find? start ≠ some .directory)
    (placeFree : tree.find? place ≠ some .directory) :
    tree.Within (tree.replaced start place bytes) := by
  have startInside := tree.not_root start startFree
  have aside := tree.put_within start (.file bytes) startFree
  have asideAdds := tree.put_file_adds_no_directory start bytes startInside
  have movedAdds := (tree.put start (.file bytes)).remove_adds_no_directory start startInside
  have moved := (tree.put start (.file bytes)).remove_within start fun there =>
    startFree (asideAdds.directories start there)
  have back := ((tree.put start (.file bytes)).remove start).put_within place (.file bytes) fun there =>
    placeFree (asideAdds.directories place (movedAdds.directories place there))
  exact .trans _ _ _ aside (.trans _ _ _ moved back)

theorem find?_replaced (inside : place ≠ []) : (tree.replaced start place bytes).find? place = some (.file bytes) :=
  find?_put _ place _ inside

theorem find?_replaced_other (other : Place) (notStart : start ≠ other) (notPlace : place ≠ other) :
    (tree.replaced start place bytes).find? other = tree.find? other := by
  rw [replaced, find?_put_other _ place other _ notPlace, find?_remove_other _ start other notStart,
    find?_put_other _ start other _ notStart]

end Replaced

end FileTree

namespace DirStorage

structure Ready (storage : DirStorage) (region : String) (tree : FileTree) (start place : Place) : Prop where
  made : tree.Made storage.directory
  beside : tree.resolve (storage.partialPath region) = .ok start
  leads : tree.resolve (storage.path region) = .ok place
  startFree : tree.find? start ≠ some .directory
  placeFree : tree.find? place ≠ some .directory
  besideFile : PathText.endsInSlash (storage.partialPath region) = false
  file : PathText.endsInSlash (storage.path region) = false
  named : PathText.endsInDots (storage.path region) = false

variable (storage : DirStorage) (region : String)

theorem read_present (tree : FileTree) (bytes : Bytes) (seen : tree.stat (storage.path region) = .ok (.file bytes)) :
    storage.read region tree = .ok (some bytes) := by
  have whole : tree.read (storage.path region) = .ok bytes := by rw [FileTree.read, seen]
  unfold read
  generalize tree.read (storage.path region) = found at whole ⊢
  subst whole
  rfl

theorem write_once_made (tree : FileTree) (bytes : Bytes) (makes : (tree.makeDirs storage.directory).1 = .ok ()) :
    storage.write region bytes tree = storage.write region bytes (tree.makeDirs storage.directory).2 := by
  have made := tree.dirs_made storage.directory makes
  rw [write, write, FileTree.made_makes_nothing _ _ made]
  generalize tree.makeDirs storage.directory = way at makes ⊢
  obtain ⟨result, all⟩ := way
  obtain rfl := makes
  rfl

theorem write_ready (tree : FileTree) (bytes : Bytes) (works : (storage.write region bytes tree).1 = .ok ()) :
    (tree.makeDirs storage.directory).1 = .ok () ∧
      ∃ start place, storage.Ready region (tree.makeDirs storage.directory).2 start place := by
  have made := tree.dirs_made storage.directory
  unfold write at works
  generalize tree.makeDirs storage.directory = way at works made ⊢
  obtain ⟨result, all⟩ := way
  cases result with
  | error cause => cases works
  | ok _ =>
      dsimp only at works made ⊢
      cases wrote : all.write (storage.partialPath region) bytes with
      | error cause => simp [wrote] at works
      | ok written =>
          rw [wrote] at works
          obtain ⟨start, beside, startFree, besideFile, rfl⟩ := (all.write_iff _ bytes written).mp wrote
          dsimp only at works
          cases moves : (all.put start (.file bytes)).rename (storage.partialPath region) (storage.path region) with
          | error cause => simp [moves] at works
          | ok renamed =>
              obtain ⟨_, _, place, -, -, leads, named, file, placeFree, -⟩ :=
                (FileTree.rename_iff _ _ _ renamed).mp moves
              have aside := all.put_within start (.file bytes) startFree
              have adds := all.put_file_adds_no_directory start bytes (all.not_root start startFree)
              exact ⟨rfl, start, place, made rfl, beside, FileTree.resolve_within _ all adds _ place leads, startFree,
                fun there => placeFree (aside.directories place there), besideFile, file, named⟩

namespace Ready

variable {storage region}
variable {tree : FileTree} {start place : Place} (ready : storage.Ready region tree start place)
include ready

theorem write (bytes : Bytes) : storage.write region bytes tree = (.ok (), tree.replaced start place bytes) := by
  have wrote : tree.write (storage.partialPath region) bytes = .ok (tree.put start (.file bytes)) :=
    (tree.write_iff _ bytes _).mpr ⟨start, ready.beside, ready.startFree, ready.besideFile, rfl⟩
  have inside := tree.not_root start ready.startFree
  have aside := tree.put_within start (.file bytes) ready.startFree
  have adds := tree.put_file_adds_no_directory start bytes inside
  have beside := FileTree.resolve_within tree _ aside _ start ready.beside
  have seen := (FileTree.stat_file_iff _ _ bytes).mpr
    ⟨start, beside, tree.find?_put start (.file bytes) inside, ready.besideFile⟩
  have leads := FileTree.resolve_within tree _ aside _ place ready.leads
  have moved : (tree.put start (.file bytes)).rename (storage.partialPath region) (storage.path region) =
      .ok (tree.replaced start place bytes) :=
    (FileTree.rename_iff _ _ _ _).mpr ⟨bytes, start, place, seen, beside, leads, ready.named, ready.file,
      fun there => ready.placeFree (adds.directories place there), rfl⟩
  simp only [DirStorage.write, tree.made_makes_nothing storage.directory ready.made, wrote, moved]

theorem within (bytes : Bytes) : tree.Within (tree.replaced start place bytes) :=
  tree.replaced_within start place bytes ready.startFree ready.placeFree

theorem adds_no_directory (bytes : Bytes) : (tree.replaced start place bytes).Within tree :=
  tree.replaced_adds_no_directory start place bytes (tree.not_root start ready.startFree)
    (tree.not_root place ready.placeFree)

theorem after_write (bytes : Bytes) : storage.Ready region (tree.replaced start place bytes) start place where
  made := tree.made_within _ (ready.within bytes) _ ready.made
  beside := FileTree.resolve_within tree _ (ready.within bytes) _ start ready.beside
  leads := FileTree.resolve_within tree _ (ready.within bytes) _ place ready.leads
  startFree := fun there => ready.startFree ((ready.adds_no_directory bytes).directories start there)
  placeFree := fun there => ready.placeFree ((ready.adds_no_directory bytes).directories place there)
  besideFile := ready.besideFile
  file := ready.file
  named := ready.named

theorem read_after_write (bytes : Bytes) :
    storage.read region (tree.replaced start place bytes) = .ok (some bytes) := by
  have leads := FileTree.resolve_within tree _ (ready.within bytes) _ place ready.leads
  have found := tree.find?_replaced start place bytes (tree.not_root place ready.placeFree)
  have seen : (tree.replaced start place bytes).stat (storage.path region) = .ok (.file bytes) :=
    (FileTree.stat_file_iff _ _ bytes).mpr ⟨place, leads, found, ready.file⟩
  exact storage.read_present region _ bytes seen

theorem find?_elsewhere (bytes : Bytes) (plain : PathText.Plain region)
    (plainBeside : PathText.Plain (region ++ ".partial")) (other : Place) (notRegion : other.getLast? ≠ some region)
    (notBeside : other.getLast? ≠ some (region ++ ".partial")) :
    (tree.replaced start place bytes).find? other = tree.find? other := by
  have startName := tree.resolve_plain _ _ plainBeside start ready.beside
  have placeName := tree.resolve_plain _ _ plain place ready.leads
  apply tree.find?_replaced_other start place bytes other
  · rintro rfl
    exact notBeside startName
  · rintro rfl
    exact notRegion placeName

end Ready

section Works

variable {storage region}
variable {tree : FileTree} {first : Bytes} (works : (storage.write region first tree).1 = .ok ())
include works

theorem write_places :
    ∃ start place, storage.Ready region (tree.makeDirs storage.directory).2 start place ∧
      ∀ bytes, storage.write region bytes tree =
        (.ok (), (tree.makeDirs storage.directory).2.replaced start place bytes) := by
  obtain ⟨makes, start, place, ready⟩ := storage.write_ready region tree first works
  refine ⟨start, place, ready, fun bytes => ?_⟩
  rw [storage.write_once_made region tree bytes makes]
  exact ready.write bytes

theorem write_works_again (bytes next : Bytes) :
    (storage.write region next (storage.write region bytes tree).2).1 = .ok () := by
  obtain ⟨start, place, ready, writes⟩ := write_places works
  rw [writes bytes, (ready.after_write bytes).write next]

theorem read_written (bytes : Bytes) : storage.read region (storage.write region bytes tree).2 = .ok (some bytes) := by
  obtain ⟨start, place, ready, writes⟩ := write_places works
  rw [writes bytes]
  exact ready.read_after_write bytes

theorem write_within (bytes : Bytes) : tree.Within (storage.write region bytes tree).2 := by
  obtain ⟨start, place, ready, writes⟩ := write_places works
  rw [writes bytes]
  exact .trans _ _ _ (tree.dirs_grow storage.directory).within (ready.within bytes)

variable (plain : PathText.Plain region) (plainBeside : PathText.Plain (region ++ ".partial"))
variable (directory name : String) (plainName : PathText.Plain name) (notRegion : name ≠ region)
  (notBeside : name ≠ region ++ ".partial")
include plain plainBeside plainName notRegion notBeside

theorem write_keeps_others (bytes : Bytes) (node : FileNode) (seen : tree.stat (PathText.join directory name) = .ok node) :
    (storage.write region bytes tree).2.stat (PathText.join directory name) = .ok node := by
  obtain ⟨start, place, ready, writes⟩ := write_places works
  rw [writes bytes]
  have grows := tree.dirs_grow storage.directory
  apply FileTree.stat_within _ _ (ready.within bytes) _ node (FileTree.stat_grows tree _ grows _ node seen)
  intro other led
  have named := FileTree.resolve_plain _ directory name plainName other led
  exact ready.find?_elsewhere bytes plain plainBeside other (by simpa [named] using notRegion)
    (by simpa [named] using notBeside)

theorem write_adds_no_other (made : tree.Made storage.directory) (bytes : Bytes) (node : FileNode)
    (seen : (storage.write region bytes tree).2.stat (PathText.join directory name) = .ok node) :
    tree.stat (PathText.join directory name) = .ok node := by
  obtain ⟨start, place, ready, writes⟩ := write_places works
  rw [tree.made_makes_nothing _ made] at ready writes
  rw [writes bytes] at seen
  apply FileTree.stat_within _ _ (ready.adds_no_directory bytes) _ node seen
  intro other led
  have named := FileTree.resolve_plain _ directory name plainName other led
  exact (ready.find?_elsewhere bytes plain plainBeside other (by simpa [named] using notRegion)
    (by simpa [named] using notBeside)).symm

end Works

end DirStorage
end AlarmClock
