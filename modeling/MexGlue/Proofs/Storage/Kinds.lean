import MexGlue.Proofs.Storage.Writing

/-!
# What stands where

Whether an operation on a disk works depends on what stands in the places that it comes to: a
directory, a file, a device or nothing. It does not depend on what a file holds. Operations only add
to what stands on a disk, so one that has worked works again where all that it left still stands, and
one that has failed fails again where nothing else has come to stand.
-/

namespace MexGlue

/-- A node without what it holds. -/
def Node.emptied : Node → Node
  | .file _ => .file .empty
  | node => node

@[simp] theorem Node.emptied_eq_directory {node : Node} :
    node.emptied = .directory ↔ node = .directory := by
  cases node <;> simp [emptied]

@[simp] theorem Node.emptied_eq_fullDevice {node : Node} :
    node.emptied = .fullDevice ↔ node = .fullDevice := by
  cases node <;> simp [emptied]

theorem Node.emptied_eq_file {node : Node} :
    node.emptied = .file .empty ↔ ∃ content, node = .file content := by
  cases node <;> simp [emptied]

namespace Disk

variable {disk before after opened : Disk} {here location : Location} {names : List String}
  {path : Path} {file : OpenFile}

/-- What stands in a place, if something does. -/
def kind? (disk : Disk) (location : Location) : Option Node :=
  (disk.find? location).map Node.emptied

@[simp] theorem kind?_eq_none : disk.kind? location = none ↔ disk.find? location = none := by
  simp [kind?]

@[simp] theorem kind?_eq_directory :
    disk.kind? location = some .directory ↔ disk.find? location = some .directory := by
  simp [kind?]

@[simp] theorem kind?_eq_fullDevice :
    disk.kind? location = some .fullDevice ↔ disk.find? location = some .fullDevice := by
  simp [kind?]

@[simp] theorem kind?_eq_file : disk.kind? location = some (.file .empty) ↔
    ∃ content, disk.find? location = some (.file content) := by
  simp only [kind?, Option.map_eq_some_iff, Node.emptied_eq_file]
  exact ⟨fun ⟨_, found, content, same⟩ => ⟨content, same ▸ found⟩,
    fun ⟨content, found⟩ => ⟨_, found, content, rfl⟩⟩

theorem kind?_put (disk : Disk) {location : Location} (node : Node) (other : Location)
    (below : location ≠ []) : (disk.put location node).kind? other =
      if other = location then some node.emptied else disk.kind? other := by
  rw [kind?, find?_put disk node other below]
  split <;> rfl

/-- Whether the same stands in all places of two disks. -/
def SameKinds (disk other : Disk) : Prop := ∀ location, disk.kind? location = other.kind? location

/-- Whether all that stands on a disk also stands on another one. -/
def Grows (before after : Disk) : Prop :=
  ∀ location kind, before.kind? location = some kind → after.kind? location = some kind

namespace Grows

theorem refl (disk : Disk) : disk.Grows disk := fun _ _ found => found

theorem trans {middle : Disk} (h : before.Grows middle) (h' : middle.Grows after) :
    before.Grows after := fun location kind found => h' location kind (h location kind found)

theorem directory (h : before.Grows after) (found : before.find? location = some .directory) :
    after.find? location = some .directory :=
  kind?_eq_directory.mp (h location _ (kind?_eq_directory.mpr found))

end Grows

theorem SameKinds.grows {other : Disk} (h : disk.SameKinds other) : disk.Grows other :=
  fun location _ found => (h location).symm.trans found

theorem SameKinds.symm {other : Disk} (h : disk.SameKinds other) : other.SameKinds disk :=
  fun location => (h location).symm

theorem SameKinds.trans {middle other : Disk} (h : disk.SameKinds middle)
    (h' : middle.SameKinds other) : disk.SameKinds other :=
  fun location => (h location).trans (h' location)

/-! ## Files that are named -/

theorem Grows.walk? (h : before.Grows after) {there : Location}
    (walked : before.walk? here names = some there) : after.walk? here names = some there := by
  induction names generalizing here with
  | nil => exact walked
  | cons name names ih =>
      rw [Disk.walk?] at walked ⊢
      split at walked
      next goesUp => rw [if_pos goesUp, ih walked]
      next goesDown =>
        obtain ⟨isDirectory, rest⟩ := Option.ite_none_right_eq_some.mp walked
        have found := h.directory (eq_of_beq isDirectory)
        rw [if_neg goesDown, if_pos (show after.isDirectory (here ++ [name]) = true from
          beq_iff_eq.mpr found), ih rest]

theorem Grows.place? (h : before.Grows after) (placed : before.place? path = some location) :
    after.place? path = some location := by
  unfold Disk.place? at placed ⊢
  cases last : path.components.getLast? with
  | none => rw [last] at placed; cases placed
  | some name =>
      simp only [last] at placed
      obtain ⟨fits, walked⟩ := Option.ite_none_left_eq_some.mp placed
      obtain ⟨there, reached, rfl⟩ := Option.map_eq_some_iff.mp walked
      simp only [if_neg fits, h.walk? reached, Option.map_some]

theorem SameKinds.place? {other : Disk} (h : disk.SameKinds other) (path : Path) :
    disk.place? path = other.place? path :=
  Option.ext fun _ => ⟨h.grows.place?, h.symm.grows.place?⟩

/-! ## Open files -/

theorem openFile?_of_fullDevice (placed : disk.place? path = some location)
    (found : disk.find? location = some .fullDevice) :
    disk.openFile? path = some (disk, { path, location, sink := .device }) := by
  simp [openFile?, placed, found]

theorem openFile?_of_file {content : ByteArray} (placed : disk.place? path = some location)
    (found : disk.find? location = some (.file content)) :
    disk.openFile? path =
      some (disk.put location (.file .empty), { path, location, sink := .file 0 }) := by
  simp [openFile?, placed, found]

/-- A file cannot be opened exactly if there is no place for it or a directory stands there. -/
theorem openFile?_eq_none_iff : disk.openFile? path = none ↔
    ∀ location, disk.place? path = some location → disk.find? location = some .directory := by
  unfold openFile?
  cases placed : disk.place? path with
  | none => simp
  | some location =>
      cases found : disk.find? location with
      | none => simp [found]
      | some node => cases node <;> simp [found]

/-- Writing to a file changes nothing but what it holds. -/
theorem sameKinds_writeAt (disk : Disk) (location : Location) (offset : Nat) (bytes : ByteArray) :
    (disk.writeAt location offset bytes).SameKinds disk := by
  intro other
  unfold writeAt
  split
  · rename_i content found
    rw [kind?_put disk _ other (below_of_file found)]
    split
    next same => rw [same, kind?, found]; rfl
    next => rfl
  · rfl

end Disk

namespace OpenFile

variable {disk after : Disk} {file next : OpenFile} {text : String}

theorem sameKinds_send? (h : file.send? text disk = some (after, next)) : after.SameKinds disk := by
  rcases send?_eq_some h with ⟨-, rfl, -⟩ | ⟨sent, -, -, rfl, -⟩
  · exact fun _ => rfl
  · exact disk.sameKinds_writeAt _ _ _

theorem sameKinds_append? (h : file.append? text disk = some (after, next)) :
    after.SameKinds disk :=
  sameKinds_send? ((append?_eq file text disk).symm.trans h)

/-- Closing a file changes nothing but what it holds. -/
theorem sameKinds_close (file : OpenFile) (disk : Disk) : (file.close disk).1.SameKinds disk := by
  rcases close_cases file disk with ⟨after, next, sends, closed⟩ | ⟨-, -, closed⟩
  · rw [closed]
    exact sameKinds_send? sends
  · rw [closed]
    exact fun _ => rfl

end OpenFile

namespace Disk

variable {disk before after opened : Disk} {here : Location} {names : List String} {path : Path}
  {file : OpenFile}

/-! ## What operations add -/

theorem grows_makeDirectories (disk : Disk) (path : Path) :
    disk.Grows (disk.makeDirectories path).1 := by
  intro location kind found
  obtain ⟨node, there, rfl⟩ := Option.map_eq_some_iff.mp found
  rw [kind?, find?_makeDirectories_of_some there, Option.map_some]

theorem grows_openFile? (h : disk.openFile? path = some (opened, file)) : disk.Grows opened := by
  obtain ⟨isAt, -, ⟨-, rfl, -⟩ | ⟨noDirectory, rfl, -⟩⟩ := openFile?_eq_some h
  · exact Grows.refl opened
  · intro location kind found
    rw [kind?_put disk _ location isAt.belowRoot]
    split
    next same =>
      rw [same] at found
      rcases noDirectory with nothing | ⟨content, isThere⟩
      · rw [kind?_eq_none.mpr nothing] at found
        cases found
      · rw [kind?_eq_file.mpr ⟨content, isThere⟩] at found
        exact found
    next => exact found

/-- What comes behind the opening of a file that is written changes only what it holds. -/
theorem grows_writeFile_of_openFile? (h : disk.openFile? path = some (opened, file))
    (text : String) : opened.Grows (disk.writeFile path text).1 := by
  simp only [writeFile, h]
  cases appending : file.append? text opened with
  | none => exact (file.sameKinds_close opened).symm.grows
  | some result =>
      obtain ⟨appended, complete⟩ := result
      have filled := (OpenFile.sameKinds_append? appending).symm.grows
      exact filled.trans (complete.sameKinds_close appended).symm.grows

theorem grows_writeFile (disk : Disk) (path : Path) (text : String) :
    disk.Grows (disk.writeFile path text).1 := by
  cases opening : disk.openFile? path with
  | none => simpa [writeFile, opening] using Grows.refl disk
  | some result =>
      obtain ⟨opened, file⟩ := result
      exact (grows_openFile? opening).trans (grows_writeFile_of_openFile? opening text)

end Disk

end MexGlue
