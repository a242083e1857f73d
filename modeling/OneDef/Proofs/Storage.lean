import OneDef.FileSystem
import Mathlib.Data.List.Basic

/-!
# Saving and reading back

A path that can be written to leads through directories to a place that is none.  Putting a file there
changes that place alone, so every directory on the way is still met, and following the same path again ends
at the new file.  What is read there are the bytes that were written, and every other place has what it had.

This holds as well if a file stood there before, whichever path names it.
-/

namespace OneDef.FileSystem

section Steps

variable {α β : Type} {x : α} {y : β}

theorem bind_eq_ok_iff {result : Except IoError α} {next : α → Except IoError β} :
    result >>= next = .ok y ↔ ∃ x, result = .ok x ∧ next x = .ok y := by
  cases result with
  | error error => simp [bind, Except.bind]
  | ok x => simp [bind, Except.bind]

/-- What is checked before the next step does not hold if the step succeeds. -/
theorem ite_throw_eq_ok_iff {condition : Prop} [Decidable condition] {error : IoError}
    {next : β → Except IoError α} {result : Except IoError α} :
    (if condition then throw error >>= next else result) = .ok x ↔ ¬condition ∧ result = .ok x := by
  split
  · next hcondition =>
    constructor
    · intro h
      cases h
    · intro h
      exact absurd hcondition h.1
  · next hcondition => simp [hcondition]

end Steps

section Places

variable {files : FileSystem} {place other found : Place} {bytes : List UInt8} {names more : List String}

theorem lookup_filter_ne (entries : List (Place × Entry)) (h : other ≠ place) :
    (entries.filter (·.1 ≠ place)).lookup other = entries.lookup other := by
  induction entries with
  | nil => rfl
  | cons entry entries ih =>
    obtain ⟨here, contents⟩ := entry
    by_cases hhere : here = place
    · have hother : (other == here) = false := by simpa [hhere] using h
      simp [hhere, List.lookup_cons, hhere ▸ hother, ← ih]
    · simp [hhere, List.lookup_cons, ← ih]

theorem find?_put_self (hplace : place ≠ []) :
    (files.put place bytes).find? place = some (.file bytes) := by
  simp [find?, put, hplace]

theorem contents?_put_self (hplace : place ≠ []) :
    (files.put place bytes).contents? place = some bytes := by
  rw [contents?, find?_put_self hplace]

theorem find?_put_of_ne (h : other ≠ place) :
    (files.put place bytes).find? other = files.find? other := by
  have hother : (other == place) = false := by simpa using h
  simp only [find?, put, List.lookup_cons, hother, lookup_filter_ne files.entries h]

theorem follow_append (place : Place) (names more : List String) :
    files.follow place (names ++ more) =
      files.follow place names >>= fun found ↦ files.follow found more := by
  induction names generalizing place with
  | nil => rfl
  | cons name names ih =>
    rw [List.cons_append, follow, follow]
    split
    · split
      · rfl
      · split
        · exact ih _
        · rfl
    · rfl

/-- One name is followed from a directory to whatever stands there. -/
theorem follow_cons_eq_ok_iff {name : String} : files.follow place (name :: names) = .ok found ↔
    files.find? place = some .directory ∧ name.utf8ByteSize ≤ nameLimit ∧
      (files.find? (enter place name)).isSome ∧ files.follow (enter place name) names = .ok found := by
  rw [follow]
  split
  · next hplace =>
    split
    · next hsize => simp [hplace, Nat.not_le.2 hsize]
    · next hsize =>
      have hle : name.utf8ByteSize ≤ nameLimit := Nat.not_lt.1 hsize
      split
      · next hentry => simp [hplace, hle, hentry]
      · next hentry => simp [hentry]
  · next hplace =>
    constructor
    · intro h
      cases h
    · intro h
      exact absurd h.1 hplace

/-- A file that is put where no directory is hides nothing on the way. -/
theorem follow_put (hplace : files.find? place ≠ some .directory)
    (h : files.follow other names = .ok found) : (files.put place bytes).follow other names = .ok found := by
  have hne : place ≠ [] := by
    rintro rfl
    exact hplace rfl
  induction names generalizing other with
  | nil => exact h
  | cons name names ih =>
    obtain ⟨hother, hsize, hentry, hnames⟩ := follow_cons_eq_ok_iff.1 h
    refine follow_cons_eq_ok_iff.2 ⟨?_, hsize, ?_, ih hnames⟩
    · have hne' : other ≠ place := by
        rintro rfl
        exact hplace hother
      rw [find?_put_of_ne hne', hother]
    · by_cases hnext : enter other name = place
      · rw [hnext, find?_put_self hne]
        rfl
      · rwa [find?_put_of_ne hnext]

end Places

section Paths

variable {files : FileSystem} {text : String} {place : Place}

/-- A path whose names lead to a directory, and from there with the last one to a place that is none. -/
inductive Aims (files : FileSystem) (text : String) : Place → Prop where
  | file {path : Path} {names : List String} {name : String} {directory : Place}
      (hpath : Path.ofString text = .ok path) (hnames : path.names = names ++ [name])
      (htrailing : path.trailing = false) (hfollow : files.follow (files.start path) names = .ok directory)
      (hdirectory : files.find? directory = some .directory) (hsize : name.utf8ByteSize ≤ nameLimit)
      (hentry : files.find? (enter directory name) ≠ some .directory) :
      Aims files text (enter directory name)

theorem aims_of_target (h : files.target text = .ok place) : Aims files text place := by
  unfold target at h
  obtain ⟨path, hpath, h⟩ := bind_eq_ok_iff.1 h
  split at h
  · cases h
  · next name hname =>
    obtain ⟨directory, hfollow, h⟩ := bind_eq_ok_iff.1 h
    simp only [ite_throw_eq_ok_iff] at h
    obtain ⟨hdirectory, htrailing, hsize, hentry, hplace⟩ := h
    obtain ⟨names, hnames⟩ := List.getLast?_eq_some_iff.1 hname
    rw [hnames, List.dropLast_concat] at hfollow
    rw [← Except.ok.inj hplace]
    exact .file hpath hnames (by simpa using htrailing) hfollow (by simpa using hdirectory)
      (Nat.not_lt.1 hsize) hentry

theorem Aims.not_directory (h : Aims files text place) : files.find? place ≠ some .directory := by
  obtain ⟨-, -, -, -, -, -, hentry⟩ := h
  exact hentry

/-- The top is a directory, so no file is saved there. -/
theorem Aims.ne_nil (h : Aims files text place) : place ≠ [] := by
  rintro rfl
  exact h.not_directory rfl

theorem Aims.read_put (h : Aims files text place) (bytes : List UInt8) :
    (files.put place bytes).read text = .ok bytes := by
  have hself : (files.put place bytes).find? place = some (.file bytes) := find?_put_self h.ne_nil
  have hcontents : (files.put place bytes).contents? place = some bytes := contents?_put_self h.ne_nil
  obtain @⟨path, names, name, directory, hpath, hnames, htrailing, hfollow, hdirectory, hsize, hentry⟩ := h
  have hlast : (files.put (enter directory name) bytes).follow directory [name] =
      .ok (enter directory name) := by
    apply follow_cons_eq_ok_iff.2
    refine ⟨?_, hsize, by rw [hself]; rfl, rfl⟩
    rw [find?_put_of_ne, hdirectory]
    intro heq
    rw [← heq] at hentry
    exact hentry hdirectory
  have hway : (files.put (enter directory name) bytes).follow (files.start path) path.names =
      .ok (enter directory name) := by
    rw [hnames, follow_append, follow_put hentry hfollow]
    exact hlast
  unfold read
  apply bind_eq_ok_iff.2 ⟨path, hpath, ?_⟩
  apply bind_eq_ok_iff.2 ⟨_, hway, ?_⟩
  rw [hcontents, htrailing]
  rfl

/-- A file system in which a path was written to: it is read back there, and only its place has changed. -/
structure Saved (files : FileSystem) (text : String) (place : Place) (bytes : List UInt8)
    (after : FileSystem) : Prop where
  read_eq : after.read text = .ok bytes
  contents?_eq : after.contents? place = some bytes
  find?_eq : ∀ other, other ≠ place → after.find? other = files.find? other

theorem write_of_target (h : files.target text = .ok place) (bytes : List UInt8) :
    files.write text bytes = .ok (files.put place bytes) := by
  rw [write, h]
  rfl

/-- Whatever can be written to holds the bytes that were written. -/
theorem saved_put (h : files.target text = .ok place) (bytes : List UInt8) :
    files.Saved text place bytes (files.put place bytes) where
  read_eq := (aims_of_target h).read_put bytes
  contents?_eq := contents?_put_self (aims_of_target h).ne_nil
  find?_eq _ hother := find?_put_of_ne hother

end Paths

end OneDef.FileSystem
