import MexGlue.Storage.Disk

/-!
# Where a path leads

A path leads from the root to a place, which only depends on its components: every name goes down
and every `..` goes up. Walking on a disk ends at that place or nowhere, and making directories puts
a directory at every place on the way, changes no node that is there, and touches no other place.
-/

namespace MexGlue

/-- Where a component leads from a place. -/
def enter (here : Location) (name : String) : Location :=
  if name = Path.up then here.dropLast else here ++ [name]

namespace Path

/-- The place that a path leads to. -/
def location (path : Path) : Location := path.components.foldl enter []

/-- The places on the way of a path, from the root on. -/
def trail (path : Path) : List Location := path.components.scanl enter []

end Path

namespace Disk

variable {disk : Disk} {here : Location} {names : List String}

theorem walk?_eq_some {there : Location} (h : disk.walk? here names = some there) :
    there = names.foldl enter here := by
  induction names generalizing here with
  | nil => exact (Option.some.inj h).symm
  | cons name names ih =>
      rw [List.foldl_cons, enter]
      by_cases goesUp : name = Path.up
      · rw [walk?, if_pos goesUp] at h
        rw [if_pos goesUp, ih h]
      · rw [walk?, if_neg goesUp, Option.ite_none_right_eq_some] at h
        rw [if_neg goesUp, ih h.2]

/-- A file that is named has the place that its path leads to. -/
theorem place?_eq_some {path : Path} {location : Location} (h : disk.place? path = some location) :
    location = path.location ∧ location ≠ [] := by
  unfold place? at h
  cases last : path.components.getLast? with
  | none => rw [last] at h; cases h
  | some name =>
      simp only [last, Option.ite_none_left_eq_some, Bool.or_eq_true, not_or,
        Option.map_eq_some_iff] at h
      obtain ⟨⟨⟨notUp, -⟩, -⟩, there, walked, rfl⟩ := h
      obtain ⟨front, whole⟩ := List.getLast?_eq_some_iff.mp last
      have goesDown : name ≠ Path.up := by simpa using notUp
      rw [whole, List.dropLast_concat] at walked
      rw [Path.location, whole, List.foldl_append, ← walk?_eq_some walked]
      simp [enter, goesDown]

/-! ## Making directories -/

/-- The disk with the directory made that a name leads to, if it is not there yet. -/
def enterMaking? (disk : Disk) (here : Location) (name : String) : Option Disk :=
  if name = Path.up then some disk
  else
    match disk.find? (here ++ [name]) with
    | some .directory => some disk
    | some _ => none
    | none => if nameFits name then some (disk.put (here ++ [name]) .directory) else none

theorem makeAlong_cons (name : String) :
    disk.makeAlong here (name :: names) =
      match disk.enterMaking? here name with
      | some next => next.makeAlong (enter here name) names
      | none => (disk, false) := by
  by_cases goesUp : name = Path.up
  · simp [makeAlong, enterMaking?, enter, goesUp]
  · simp only [makeAlong, enterMaking?, enter, if_neg goesUp]
    cases disk.find? (here ++ [name]) with
    | none => by_cases fits : nameFits name = true <;> simp [fits]
    | some node => cases node <;> rfl

/-- A name leads up, or to a place where nothing but a directory is and then a directory is. -/
theorem enterMaking?_eq_some {name : String} {next : Disk}
    (h : disk.enterMaking? here name = some next) :
    (enter here name = here.dropLast ∧ next = disk) ∨
      (enter here name = here ++ [name] ∧
        (∀ node, disk.find? (enter here name) = some node → node = .directory) ∧
        ∀ other, next.find? other =
          if other = enter here name then some .directory else disk.find? other) := by
  unfold enterMaking? at h
  by_cases goesUp : name = Path.up
  · rw [if_pos goesUp] at h
    exact .inl ⟨if_pos goesUp, (Option.some.inj h).symm⟩
  · rw [if_neg goesUp] at h
    have goesDown : enter here name = here ++ [name] := if_neg goesUp
    refine .inr ⟨goesDown, ?_⟩
    rw [goesDown]
    cases found : disk.find? (here ++ [name]) with
    | none =>
        rw [found] at h
        obtain ⟨-, made⟩ := Option.ite_none_right_eq_some.mp h
        refine ⟨fun node => nofun, fun other => ?_⟩
        rw [← Option.some.inj made, find?_put disk _ other (by simp)]
    | some node =>
        rw [found] at h
        cases node with
        | directory =>
            refine ⟨fun node same => (Option.some.inj same).symm, fun other => ?_⟩
            by_cases same : other = here ++ [name]
            · rw [if_pos same, ← Option.some.inj h, same, found]
            · rw [if_neg same, ← Option.some.inj h]
        | file content => cases h
        | fullDevice => cases h

/-- Nothing that is there is changed. -/
theorem find?_makeAlong_of_some {other : Location} {node : Node}
    (h : disk.find? other = some node) :
    (disk.makeAlong here names).1.find? other = some node := by
  induction names generalizing disk here with
  | nil => exact h
  | cons name names ih =>
      rw [makeAlong_cons]
      cases entered : disk.enterMaking? here name with
      | none => exact h
      | some next =>
          apply ih
          rcases enterMaking?_eq_some entered with ⟨-, same⟩ | ⟨-, only, made⟩
          · rwa [same]
          · rw [made]
            split
            next here_other =>
              rw [here_other] at h
              rw [only node h]
            next => exact h

/-- Only places on the way are changed. -/
theorem find?_makeAlong_of_not_mem {other : Location} (h : other ∉ names.scanl enter here) :
    (disk.makeAlong here names).1.find? other = disk.find? other := by
  induction names generalizing disk here with
  | nil => rfl
  | cons name names ih =>
      rw [List.scanl_cons, List.mem_cons, not_or] at h
      rw [makeAlong_cons]
      cases entered : disk.enterMaking? here name with
      | none => rfl
      | some next =>
          dsimp only
          rw [ih h.2]
          rcases enterMaking?_eq_some entered with ⟨-, same⟩ | ⟨-, -, made⟩
          · rw [same]
          · have apart : other ≠ enter here name := by
              intro same
              cases names <;> simp [same, List.scanl_cons] at h
            rw [made, if_neg apart]

/-- Whether a place and all places above it are directories. -/
def Reaches (disk : Disk) (here : Location) : Prop :=
  ∀ above, above <+: here → disk.find? above = some .directory

theorem reaches_nil (disk : Disk) : disk.Reaches [] := by
  intro above isPrefix
  rw [List.prefix_nil.mp isPrefix]
  rfl

theorem Reaches.of_enterMaking? {name : String} {next : Disk} (h : disk.Reaches here)
    (entered : disk.enterMaking? here name = some next) : next.Reaches (enter here name) := by
  intro above isPrefix
  rcases enterMaking?_eq_some entered with ⟨goesUp, same⟩ | ⟨goesDown, -, made⟩
  · rw [goesUp] at isPrefix
    rw [same]
    exact h above (isPrefix.trans here.dropLast_prefix)
  · rw [made]
    split
    next => rfl
    next apart =>
      rw [goesDown] at isPrefix apart
      exact h above ((List.prefix_concat_iff.mp isPrefix).resolve_left apart)

/-- If all works, every place on the way is a directory. -/
theorem find?_makeAlong_of_mem (reached : disk.Reaches here)
    (made : (disk.makeAlong here names).2 = true) {place : Location}
    (h : place ∈ names.scanl enter here) :
    (disk.makeAlong here names).1.find? place = some .directory := by
  induction names generalizing disk here with
  | nil =>
      rw [List.scanl_nil, List.mem_singleton] at h
      exact h ▸ reached here (List.prefix_refl here)
  | cons name names ih =>
      rw [List.scanl_cons, List.mem_cons] at h
      rcases h with rfl | behind
      · exact find?_makeAlong_of_some (reached _ (List.prefix_refl _))
      · rw [makeAlong_cons] at made ⊢
        cases entered : disk.enterMaking? here name with
        | none =>
            rw [entered] at made
            cases made
        | some next =>
            rw [entered] at made
            exact ih (reached.of_enterMaking? entered) made behind

section MakeDirectories

variable {path : Path}

theorem find?_makeDirectories_of_some {other : Location} {node : Node}
    (h : disk.find? other = some node) :
    (disk.makeDirectories path).1.find? other = some node := by
  unfold makeDirectories
  split
  · exact find?_makeAlong_of_some h
  · exact h

theorem find?_makeDirectories_of_not_mem {other : Location} (h : other ∉ path.trail) :
    (disk.makeDirectories path).1.find? other = disk.find? other := by
  unfold makeDirectories
  split
  · exact find?_makeAlong_of_not_mem h
  · rfl

theorem find?_makeDirectories_of_mem (made : (disk.makeDirectories path).2 = true)
    {place : Location} (h : place ∈ path.trail) :
    (disk.makeDirectories path).1.find? place = some .directory := by
  unfold makeDirectories at made ⊢
  split at made
  next fits =>
    rw [if_pos fits]
    exact find?_makeAlong_of_mem disk.reaches_nil made h
  next => cases made

end MakeDirectories

end Disk

end MexGlue
