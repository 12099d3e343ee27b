import DryRun.Folder

/-!
# Reading what was written to a folder

A path is followed part by part, and each step looks at the folder. Writing a file puts it at a
place that is no directory, and all that a step of a path has to find is a directory, so the same
path leads to the same place afterwards, and the file is found there.

## Main results

* `Folder.exists_write_iff`: a file can be written where its path leads to no directory.
* `Folder.read_of_write`: what was written is read at the same path.
-/

namespace DryRun.Folder

variable {f : Folder} {place : Place} {bs : List UInt8}

/-! ### Files and directories -/

/-- A file that is put at a place is found there. -/
theorem file?_put_self : (f.put place bs).file? place = some bs := by
  simp [file?, put]

/-- At the other places nothing changes. -/
theorem file?_put_of_ne {other : Place} (h : other ≠ place) :
    (f.put place bs).file? other = f.file? other := by
  have hfind : (f.files.filter (·.1 ≠ place)).find? (·.1 = other) =
      f.files.find? (·.1 = other) := by
    rw [List.find?_filter]
    congr 1
    funext file
    by_cases hfile : file.1 = other <;> simp [hfile, h]
  rw [file?, put, List.find?_cons_of_neg (by simpa using h.symm), hfind, file?]

/-- A directory stays one if a file is put anywhere. -/
theorem isDirectory_put {other : Place} (h : f.isDirectory other) :
    (f.put place bs).isDirectory other := by
  simp only [isDirectory, put, Bool.or_eq_true, List.any_eq_true] at h ⊢
  rcases h with htop | ⟨file, hmem, hfile⟩
  · exact .inl htop
  · right
    by_cases heq : file.1 = place
    · exact ⟨(place, bs), List.mem_cons_self, heq ▸ hfile⟩
    · exact ⟨file, List.mem_cons_of_mem _ (List.mem_filter.mpr ⟨hmem, by simpa using heq⟩), hfile⟩

/-- A directory stays one when a file is written elsewhere. -/
theorem entry?_put_directory {other : Place} (hplace : f.isDirectory place = false)
    (h : f.entry? other = some .directory) :
    Folder.entry? (f.put place bs) other = some .directory := by
  unfold entry? at h
  split at h
  · cases h
  · next hfile =>
      obtain ⟨hdirectory, -⟩ := Option.ite_none_right_eq_some.mp h
      have hne : other ≠ place := by
        rintro rfl
        rw [hplace] at hdirectory
        cases hdirectory
      unfold entry?
      rw [file?_put_of_ne hne, hfile]
      exact if_pos (isDirectory_put hdirectory)

/-! ### Paths -/

/-- Every step of a path that could be made can still be made. -/
theorem enter_put (hplace : f.isDirectory place = false) {origin target : Place} {part : String}
    (h : f.enter origin part = .ok target) :
    (f.put place bs).enter origin part = .ok target := by
  rw [enter] at h
  split at h
  · cases h
  · cases h
  · next hentry =>
      rw [enter, entry?_put_directory hplace hentry]
      exact h

/-- Writing a file does not change where a path leads. -/
theorem foldlM_enter_put (hplace : f.isDirectory place = false) {origin target : Place}
    {parts : List String} (h : parts.foldlM f.enter origin = .ok target) :
    parts.foldlM (f.put place bs).enter origin = .ok target := by
  induction parts generalizing origin with
  | nil => exact h
  | cons part parts ih =>
      rw [List.foldlM_cons] at h ⊢
      cases hstep : f.enter origin part with
      | error fault =>
          rw [hstep] at h
          cases h
      | ok next =>
          rw [hstep] at h
          rw [enter_put hplace hstep]
          exact ih h

/-- A file is written where its path leads, unless to a directory. -/
theorem write_eq_ok_iff {path : String} {saved : Folder} :
    f.write path bs = .ok saved ↔
      ∃ place, f.follow path (Path.parts path) = .ok place ∧ Path.endsInSlash path = false ∧
        f.isDirectory place = false ∧ f.put place bs = saved := by
  cases hslash : Path.endsInSlash path with
  | true =>
      simp only [write, hslash, Bool.true_or, if_true, Bool.true_eq_false, false_and, and_false,
        exists_false, iff_false]
      cases f.follow path (partsToWrite path) <;> nofun
  | false =>
      simp only [write, partsToWrite, hslash, Bool.false_or, Bool.false_eq_true, if_false, true_and]
      cases hfollow : f.follow path (Path.parts path) with
      | error fault => simp
      | ok place => cases hdirectory : f.isDirectory place <;> simp [hdirectory]

/-- Whether a file can be written at a path: nothing is wrong with the path or with one of its
names, it leads on from directories only, and it does not lead to one. -/
def canWrite (f : Folder) (path : String) : Bool :=
  match f.follow path (Path.parts path) with
  | .ok place => !Path.endsInSlash path && !f.isDirectory place
  | .error _ => false

/-- **A file can be written where its path leads to no directory.** -/
theorem exists_write_iff {path : String} :
    (∃ saved, f.write path bs = .ok saved) ↔ f.canWrite path := by
  simp only [write_eq_ok_iff, canWrite]
  cases f.follow path (Path.parts path) with
  | error fault => simp
  | ok place => simp

/-- **What was written is read at the same path.** -/
theorem read_of_write {path : String} {saved : Folder} (h : f.write path bs = .ok saved) :
    saved.read path = .bytes bs := by
  obtain ⟨place, hfollow, -, hplace, rfl⟩ := write_eq_ok_iff.mp h
  have hsaved : (f.put place bs).follow path (Path.parts path) = .ok place := by
    rw [follow] at hfollow ⊢
    split at hfollow
    · cases hfollow
    · exact foldlM_enter_put hplace hfollow
  rw [read, hsaved]
  simp only [file?_put_self, entry?]

end DryRun.Folder
