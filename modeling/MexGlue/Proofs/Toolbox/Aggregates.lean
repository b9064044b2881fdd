import MexGlue.Proofs.Storage.Components
import MexGlue.Toolbox.Generate

/-!
# The two aggregate files

The make script and the Makefile collect texts about all classes and are open while a toolbox is made.
Whatever the module is called, the two are never in one place.
-/

namespace MexGlue

inductive Aggregate where
  | script
  | makefile
  deriving DecidableEq, Repr

namespace Toolbox

def aggregatePath (toolbox : Toolbox) : Aggregate → Path
  | .script => toolbox.scriptPath
  | .makefile => toolbox.makefilePath

/-- The places where files are open while a toolbox is made. -/
def openPlaces (toolbox : Toolbox) : List Location :=
  [toolbox.scriptPath.location, toolbox.makefilePath.location]

variable (toolbox : Toolbox)

theorem aggregatePath_mem_openPlaces (which : Aggregate) :
    (toolbox.aggregatePath which).location ∈ toolbox.openPlaces := by
  cases which <;> simp [aggregatePath, openPlaces]

theorem makefilePath_location :
    toolbox.makefilePath.location = toolbox.directory.location ++ ["Makefile"] := by
  have component : IsComponent "Makefile" := ⟨by decide, by decide, by decide⟩
  rw [makefilePath, Path.join_of_isComponent component, Path.location_below (by decide)]

/-- Whatever a module is named, its make script ends like one. -/
theorem exists_scriptPath_location :
    ∃ above stem, toolbox.scriptPath.location = above ++ [String.ofList (stem ++ ['.', 'm'])] := by
  have noSlash : '/' ∉ ['.', 'm'] := by decide
  obtain ⟨front, stem, parts⟩ := segments_append
    (s := "make_".toList ++ toolbox.interface.name.toList) noSlash
  have kept : Path.isComponent (stem ++ ['.', 'm']) = true := by
    cases stem <;> simp [Path.isComponent]
  have goesDown : String.ofList (stem ++ ['.', 'm']) ≠ Path.up := by
    intro same
    have last := congrArg (fun s => s.toList.getLast?) same
    simp [Path.up] at last
  have script : Path.ofText ("make_" ++ toolbox.interface.name ++ ".m") =
      ⟨.here, (front.filter Path.isComponent).map String.ofList ++
        [String.ofList (stem ++ ['.', 'm'])]⟩ := by
    have text : ("make_" ++ toolbox.interface.name ++ ".m").toList =
        "make_".toList ++ toolbox.interface.name.toList ++ ['.', 'm'] := by simp
    have relative : ("make_" ++ toolbox.interface.name ++ ".m").toList.head? ≠ some '/' := by
      simp [text]
    rw [Path.ofText, Path.root_ofText relative, text, parts]
    simp [kept]
  refine ⟨(toolbox.directory.components ++
    (front.filter Path.isComponent).map String.ofList).foldl enter [], stem, ?_⟩
  rw [scriptPath, Path.join, script, Path.location]
  simp only [if_true]
  rw [← List.append_assoc, List.foldl_append, List.foldl_cons, List.foldl_nil, enter,
    if_neg goesDown]

theorem scriptPath_location_ne : toolbox.scriptPath.location ≠ toolbox.makefilePath.location := by
  obtain ⟨above, stem, script⟩ := exists_scriptPath_location toolbox
  rw [script, makefilePath_location]
  intro same
  obtain ⟨-, names⟩ := List.append_inj' same rfl
  have last := congrArg (fun s => s.toList.getLast?) (List.singleton_inj.mp names)
  simp at last

theorem aggregatePath_location_ne {which other : Aggregate} (different : which ≠ other) :
    (toolbox.aggregatePath which).location ≠ (toolbox.aggregatePath other).location := by
  cases which <;> cases other
  · exact absurd rfl different
  · exact scriptPath_location_ne toolbox
  · exact (scriptPath_location_ne toolbox).symm
  · exact absurd rfl different

end Toolbox

end MexGlue
