import MexGlue.Proofs.Storage.Writing

/-!
# What changes on a disk

A change of a disk is told by the directories that are made and the texts that are written, in the
order of writing, with some places set aside where files are open meanwhile. Afterwards the directories
are there, every file written holds the last text that went to it, directories are still directories,
and all else is as it was. Changes can be put behind each other.
-/

namespace MexGlue

structure Disk.Changes (aside : List Location) (before after : Disk) (directories : List Location)
    (writes : List (Location × String)) : Prop where
  kept : ∀ location node, location ∉ aside → before.find? location = some node →
    (∀ write ∈ writes, write.1 ≠ location) → after.find? location = some node
  directory : ∀ location, before.find? location = some .directory →
    after.find? location = some .directory
  made : ∀ location ∈ directories, after.find? location = some .directory
  written : ∀ front location text back, location ∉ aside →
    writes = front ++ (location, text) :: back → (∀ later ∈ back, later.1 ≠ location) →
    after.find? location = some (.file text.toUTF8)
  elsewhere : ∀ location, location ∉ aside → location ∉ directories →
    (∀ write ∈ writes, write.1 ≠ location) → after.find? location = before.find? location

namespace Disk.Changes

variable {aside : List Location} {before middle after : Disk} {path : Path} {text : String}
  {file next : OpenFile}

theorem refl (aside : List Location) (disk : Disk) : disk.Changes aside disk [] [] where
  kept _ _ _ found _ := found
  directory _ found := found
  made _ member := absurd member List.not_mem_nil
  written front location text back _ same := absurd same (by simp)
  elsewhere _ _ _ _ := rfl

theorem trans {directories directories' : List Location} {writes writes' : List (Location × String)}
    (h : before.Changes aside middle directories writes)
    (h' : middle.Changes aside after directories' writes') :
    before.Changes aside after (directories ++ directories') (writes ++ writes') where
  kept location node inSight found apart :=
    h'.kept location node inSight
      (h.kept location node inSight found fun write member =>
        apart write (List.mem_append_left _ member))
      fun write member => apart write (List.mem_append_right _ member)
  directory location found := h'.directory location (h.directory location found)
  made location member := by
    rcases List.mem_append.mp member with first | second
    · exact h'.directory location (h.made location first)
    · exact h'.made location second
  written front location text back inSight split apart := by
    rcases List.append_eq_append_iff.mp split with ⟨middle', front_eq, tail_eq⟩ | ⟨rest, w_eq, b_eq⟩
    · exact h'.written middle' location text back inSight tail_eq apart
    · cases rest with
      | nil =>
          exact h'.written [] location text back inSight b_eq.symm apart
      | cons first rest =>
          -- The write is among the earlier ones, and none of the later ones is to its place.
          rw [List.cons_append] at b_eq
          cases b_eq
          have found := h.written front location text rest inSight w_eq fun later member =>
            apart later (List.mem_append_left _ member)
          exact h'.kept location _ inSight found fun write member =>
            apart write (List.mem_append_right _ member)
  elsewhere location inSight absent apart := by
    rw [List.mem_append, not_or] at absent
    rw [h'.elsewhere location inSight absent.2 fun write member =>
        apart write (List.mem_append_right _ member),
      h.elsewhere location inSight absent.1 fun write member =>
        apart write (List.mem_append_left _ member)]

theorem of_makeDirectories (aside : List Location)
    (made : (before.makeDirectories path).2 = true) :
    before.Changes aside (before.makeDirectories path).1 path.trail [] where
  kept _ _ _ found _ := find?_makeDirectories_of_some found
  directory _ found := find?_makeDirectories_of_some found
  made _ member := find?_makeDirectories_of_mem made member
  written front location text back _ same := absurd same (by simp)
  elsewhere _ _ absent _ := find?_makeDirectories_of_not_mem absent

theorem of_writeFile (aside : List Location) (nonempty : text ≠ "")
    (h : before.writeFile path text = (after, true)) :
    before.Changes aside after [] [(path.location, text)] := by
  obtain ⟨notDirectory, put⟩ := writeFile_eq_true nonempty h
  have apart {other : Location}
      (unwritten : ∀ write ∈ [(path.location, text)], write.1 ≠ other) : other ≠ path.location :=
    fun same => unwritten _ (List.mem_singleton_self _) same.symm
  refine ⟨fun other node _ found unwritten => ?_, fun other found => ?_,
    fun _ member => absurd member List.not_mem_nil, fun front place content back _ same _ => ?_,
    fun other _ _ unwritten => ?_⟩
  · rw [put, if_neg (apart unwritten), found]
  · have different : other ≠ path.location := fun same => notDirectory (same ▸ found)
    rw [put, if_neg different, found]
  · have member : (place, content) ∈ [(path.location, text)] := by simp [same]
    cases List.mem_singleton.mp member
    rw [put, if_pos rfl]
  · rw [put, if_neg (apart unwritten)]

/-- What happens in a place that is set aside, where no directory is, does not count. -/
theorem of_aside {location : Location} (isAside : location ∈ aside)
    (notDirectory : before.find? location = some .directory →
      after.find? location = some .directory)
    (same : ∀ other, other ≠ location → after.find? other = before.find? other) :
    before.Changes aside after [] [] := by
  have inSight {other : Location} (h : other ∉ aside) : other ≠ location := fun isThis =>
    h (isThis ▸ isAside)
  refine ⟨fun other node seen found _ => ?_, fun other found => ?_,
    fun _ member => absurd member List.not_mem_nil, fun _ _ _ _ _ split => absurd split (by simp),
    fun other seen _ _ => same other (inSight seen)⟩
  · rw [same other (inSight seen), found]
  · by_cases here : other = location
    · subst here
      exact notDirectory found
    · rw [same other here, found]

theorem of_openFile? (isAside : path.location ∈ aside)
    (h : before.openFile? path = some (after, file)) : before.Changes aside after [] [] :=
  of_aside isAside (fun found => absurd found (find?_ne_directory_of_openFile? h))
    fun _ apart => find?_openFile? h apart

theorem of_send? (isAside : file.location ∈ aside)
    (h : file.send? text before = some (after, next)) : before.Changes aside after [] [] := by
  refine of_aside isAside (fun found => ?_) fun _ apart => OpenFile.find?_send? h apart
  rcases OpenFile.send?_eq_some h with ⟨-, rfl, -⟩ | ⟨sent, -, -, rfl, -⟩
  · exact found
  · rw [writeAt, found]
    exact found

theorem of_append? (isAside : file.location ∈ aside)
    (h : file.append? text before = some (after, next)) : before.Changes aside after [] [] := by
  rw [OpenFile.append?_eq] at h
  refine of_send? ?_ h
  exact isAside

theorem of_close (isAside : file.location ∈ aside) :
    before.Changes aside (file.close before).1 [] [] := by
  rcases OpenFile.close_cases file before with ⟨after, next, sends, closed⟩ | ⟨-, -, closed⟩
  · rw [closed]
    exact of_send? isAside sends
  · rw [closed]
    exact refl aside before

end Disk.Changes

end MexGlue
