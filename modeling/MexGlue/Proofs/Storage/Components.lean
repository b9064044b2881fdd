import MexGlue.Proofs.Storage.Directories

/-!
# Names as components of paths

A text without a slash that is no dot and not empty is one component, and if it does not go up
either, a path with it at the end leads to the place of that name below.
-/

namespace MexGlue

theorem segments_of_not_mem {s : List Char} (h : '/' ∉ s) : segments s = [s] := by
  induction s with
  | nil => rfl
  | cons c s ih =>
      rw [List.mem_cons, not_or] at h
      rw [segments, if_neg (Ne.symm h.1), ih h.2]

/-- What stands behind the last slash of a text is the end of its last part. -/
theorem segments_append {s tail : List Char} (h : '/' ∉ tail) :
    ∃ front last, segments (s ++ tail) = front ++ [last ++ tail] := by
  induction s with
  | nil => exact ⟨[], [], by simpa using segments_of_not_mem h⟩
  | cons c s ih =>
      obtain ⟨front, last, same⟩ := ih
      rw [List.cons_append, segments, same]
      by_cases slash : c = '/'
      · exact ⟨[] :: front, last, by simp [slash]⟩
      · rw [if_neg slash]
        cases front with
        | nil => exact ⟨[], c :: last, rfl⟩
        | cons first front => exact ⟨(c :: first) :: front, last, rfl⟩

/-- What stands in front of the first slash of a text is its first part. -/
theorem segments_append_slash {first : List Char} (h : '/' ∉ first) (rest : List Char) :
    segments (first ++ '/' :: rest) = first :: segments rest := by
  induction first with
  | nil => rfl
  | cons c first ih =>
      rw [List.mem_cons, not_or] at h
      rw [List.cons_append, segments, if_neg (Ne.symm h.1), ih h.2]

/-- Whether a name is a single component that goes down. -/
structure IsComponent (name : String) : Prop where
  noSlash : '/' ∉ name.toList
  isComponent : Path.isComponent name.toList = true
  goesDown : name ≠ Path.up

theorem IsComponent.of_head {name : String} {c : Char} {rest : List Char}
    (spelled : name.toList = c :: rest) (notDot : c ≠ '.') (noSlash : '/' ∉ name.toList) :
    IsComponent name := by
  refine ⟨noSlash, ?_, fun same => ?_⟩
  · simp [Path.isComponent, spelled, notDot]
  · rw [same] at spelled
    exact notDot (List.cons.inj spelled).1.symm

namespace Path

variable {path : Path} {name : String}

/-- The path with more components behind its own. -/
def below (path : Path) (place : List String) : Path :=
  { path with components := path.components ++ place }

@[simp] theorem below_nil (path : Path) : path.below [] = path := by
  simp [below]

@[simp] theorem below_below (path : Path) (first second : List String) :
    (path.below first).below second = path.below (first ++ second) := by
  simp [below]

theorem root_ofText {s : List Char} (h : s.head? ≠ some '/') : Root.ofText s = .here := by
  cases s with
  | nil => rfl
  | cons c rest =>
      have notSlash : c ≠ '/' := by simpa using h
      simp [Root.ofText, notSlash]

theorem ofText_of_isComponent (h : IsComponent name) : ofText name = ⟨.here, [name]⟩ := by
  have relative : name.toList.head? ≠ some '/' := fun same =>
    h.noSlash (List.mem_of_mem_head? (Option.mem_def.mpr same))
  simp [ofText, segments_of_not_mem h.noSlash, h.isComponent, root_ofText relative]

theorem join_of_isComponent (h : IsComponent name) : path.join name = path.below [name] := by
  simp [join, ofText_of_isComponent h, below]

theorem segments_intercalate {place : List String} (h : ∀ name ∈ place, '/' ∉ name.toList)
    (nonempty : place ≠ []) :
    segments ("/".intercalate place).toList = place.map String.toList := by
  induction place with
  | nil => contradiction
  | cons name place ih =>
      obtain ⟨here, behind⟩ := List.forall_mem_cons.mp h
      cases place with
      | nil => rw [String.intercalate_singleton, segments_of_not_mem here]; rfl
      | cons next place =>
          have joined : ("/".intercalate (name :: next :: place)).toList =
              name.toList ++ '/' :: ("/".intercalate (next :: place)).toList := by
            simp [String.intercalate_cons_cons]
          rw [joined, segments_append_slash here, ih behind (List.cons_ne_nil _ _)]
          rfl

/-- Components with slashes between them lead below, one after the other. -/
theorem join_intercalate {place : List String} (h : ∀ name ∈ place, IsComponent name)
    (nonempty : place ≠ []) : path.join ("/".intercalate place) = path.below place := by
  have parts := segments_intercalate (fun name member => (h name member).noSlash) nonempty
  have kept : (place.map String.toList).filter isComponent = place.map String.toList :=
    List.filter_eq_self.mpr (List.forall_mem_map.mpr fun name member => (h name member).isComponent)
  have names : (place.map String.toList).map String.ofList = place := by simp
  have relative : ("/".intercalate place).toList.head? ≠ some '/' := by
    intro slash
    obtain ⟨rest, spelled⟩ := List.head?_eq_some_iff.mp slash
    have start : [] ∈ place.map String.toList := by
      rw [← parts, spelled, segments, if_pos rfl]
      exact List.mem_cons_self
    exact absurd (List.mem_filter.mp (kept.symm ▸ start)).2 (by decide)
  rw [join, ofText, parts, kept, names, root_ofText relative]
  simp only [if_true, below]

theorem foldl_enter {place : List String} (h : ∀ name ∈ place, name ≠ up) (here : Location) :
    place.foldl enter here = here ++ place := by
  induction place generalizing here with
  | nil => simp
  | cons name place ih =>
      obtain ⟨goesDown, rest⟩ := List.forall_mem_cons.mp h
      rw [List.foldl_cons, ih rest, enter, if_neg goesDown, List.append_assoc]
      rfl

theorem location_below {place : List String} (h : ∀ name ∈ place, name ≠ up) :
    (path.below place).location = path.location ++ place := by
  rw [location, below, List.foldl_append]
  exact foldl_enter h path.location

theorem trail_below_singleton (h : name ≠ up) :
    (path.below [name]).trail = path.trail ++ [path.location ++ [name]] := by
  rw [trail, below, List.scanl_append]
  simp [trail, location, enter, h]

end Path

end MexGlue
