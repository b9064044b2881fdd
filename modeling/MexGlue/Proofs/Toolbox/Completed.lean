import MexGlue.Proofs.Toolbox.FinalDisk
import MexGlue.Proofs.Toolbox.Functions
import MexGlue.Proofs.Toolbox.Sequence

/-!
# What a completed run has written

A run performs its operations up to the first that fails, and the files that it has written as a
whole are those of the operations performed. A run without a failure has performed them all, so it
has written the files of all classes, class by class. The Makefile then holds what was appended to it,
and so does the make script unless another file went to its place.
-/

namespace MexGlue

/-- The file that an operation writes as a whole, by its place. -/
def Operation.writes : Operation → List (Location × String)
  | .step planned => planned.writes
  | _ => []

namespace Toolbox

/-- The operations that a run performs from a state on, up to the first that fails. -/
def performed (toolbox : Toolbox) (state : RunState) : List Operation → List Operation
  | [] => []
  | op :: ops =>
      match toolbox.perform state op with
      | (reached, none) => op :: toolbox.performed reached ops
      | (_, some _) => []

/-- The files that a run on this disk writes as a whole, by their places, in the order of writing. -/
def written (toolbox : Toolbox) (disk : Disk) : List (Location × String) :=
  (toolbox.performed (.initial disk) toolbox.operations).flatMap Operation.writes

variable {toolbox : Toolbox} {disk : Disk} {state final : RunState} {ops : List Operation}

theorem performed_of_performAll (h : toolbox.performAll state ops = (final, none)) :
    toolbox.performed state ops = ops := by
  induction ops generalizing state with
  | nil => rfl
  | cons op ops ih =>
      rw [performAll] at h
      rw [performed]
      rcases done : toolbox.perform state op with ⟨next, _ | failure⟩
      · rw [done] at h
        exact congrArg (op :: ·) (ih h)
      · rw [done] at h
        cases h

/-! ## Operations and the steps of the plan -/

theorem flatMap_writes_map_step (steps : List Step) :
    (steps.map Operation.step).flatMap Operation.writes = steps.flatMap Step.writes :=
  List.flatMap_map Operation.step Operation.writes steps

theorem flatMap_writes_verifySteps (known : List String) (cls : Class) :
    (verifySteps known cls).flatMap Step.writes = [] := by
  unfold verifySteps
  cases cls.verify known <;> rfl

theorem flatMap_writes_classOperations (toolbox : Toolbox) (cls : Class) :
    (toolbox.classOperations cls).flatMap Operation.writes =
      (toolbox.classSteps cls).flatMap Step.writes := by
  simp only [classOperations, classSteps_eq, List.flatMap_append, List.flatMap_cons,
    flatMap_writes_map_step, flatMap_writes_verifySteps, Operation.writes, List.nil_append]

/-- The operations of a run write what the steps of its plan write. -/
theorem flatMap_writes_operations (toolbox : Toolbox) :
    toolbox.operations.flatMap Operation.writes = toolbox.plan.flatMap Step.writes := by
  simp only [operations, openingOperations, openOperations, plan, List.flatMap_append,
    List.flatMap_assoc, flatMap_writes_map_step, flatMap_writes_classOperations]
  simp [Operation.writes]

/-- The steps of a plan write the files of all classes, whatever their checks say. -/
theorem flatMap_writes_plan (wellFormed : toolbox.interface.WellFormed) :
    toolbox.plan.flatMap Step.writes =
      (toolbox.interface.classes.flatMap
        (Class.artifacts toolbox.options.libraryNamespace)).map
          (Artifact.write toolbox.directory) := by
  have each : ∀ cls ∈ toolbox.interface.classes, (toolbox.classSteps cls).flatMap Step.writes =
      (cls.artifacts toolbox.options.libraryNamespace).map (Artifact.write toolbox.directory) := by
    intro cls member
    obtain ⟨layout, found, builds⟩ := makes_uncheckedSteps toolbox (wellFormed cls member)
    have writes := builds.writes
    rw [List.flatMap_append, (wellFormed cls member).namesConstructorTypes.artifacts_of_layout?
      found] at writes
    rw [classSteps_eq, List.flatMap_append, List.flatMap_append,
      flatMap_writes_verifySteps, List.nil_append, writes]
  have opening : toolbox.openingSteps.flatMap Step.writes = [] := rfl
  have closing : toolbox.closingSteps.flatMap Step.writes = [] := rfl
  rw [plan, List.flatMap_append, List.flatMap_append, opening, closing, List.nil_append,
    List.append_nil, List.flatMap_assoc, List.map_flatMap]
  exact List.flatMap_congr each

/-! ## Completed runs -/

/-- What is known of a run without a failure. -/
structure Completes (toolbox : Toolbox) (disk : Disk) (start reached : Progress) : Prop where
  begins : toolbox.start? disk = some start
  taken : Step.takeAll toolbox.interface.verbose start toolbox.plan = (reached, none)
  closes : reached.Closes
  outcome : toolbox.generate disk = reached.finish none

theorem exists_completes (h : (toolbox.generate disk).failure = none) :
    ∃ start reached, toolbox.Completes disk start reached := by
  obtain ⟨start, reached, begins, taken, closes⟩ := exists_start?_of_failure_eq_none h
  exact ⟨start, reached, begins, taken, closes, by rw [generate_of_start? begins, taken]⟩

section Completes

variable {start reached : Progress}

/-- The steps of a run that goes through build a whole toolbox. -/
theorem Completes.exists_layout (h : toolbox.Completes disk start reached)
    (wellFormed : toolbox.interface.WellFormed) :
    ∃ layout, toolbox.layout? = some layout ∧
      Step.Builds toolbox.directory toolbox.plan layout :=
  makes_plan wellFormed fun _ member =>
    verify_of_goOn_plan wellFormed (Step.goOn_of_takeAll h.taken) member

/-- A completed run has made and written all that its plan says. -/
theorem Completes.changes (h : toolbox.Completes disk start reached)
    (wellFormed : toolbox.interface.WellFormed) :
    disk.Changes toolbox.openPlaces (toolbox.generate disk).disk
      (toolbox.directory.trail ++ toolbox.plan.flatMap Step.directories)
      (toolbox.plan.flatMap Step.writes) := by
  obtain ⟨layout, -, builds⟩ := h.exists_layout wellFormed
  rw [h.outcome]
  exact changes_of_takeAll h.begins builds.texts h.taken none

/-- Behind a completed run an aggregate file holds all that was appended to it, if no other file was
written in its place. -/
theorem Completes.find?_aggregate (h : toolbox.Completes disk start reached)
    (wellFormed : toolbox.interface.WellFormed) (which : Aggregate)
    (apart : ∀ step ∈ toolbox.plan, ∀ write ∈ step.writes,
      write.1 ≠ (toolbox.aggregatePath which).location) :
    (toolbox.generate disk).disk.find? (toolbox.aggregatePath which).location =
      some (.file (String.join (toolbox.plan.map (Step.textFor which))).toUTF8) := by
  obtain ⟨layout, found, builds⟩ := h.exists_layout wellFormed
  have texts := nonempty_of_concat? found
  have nonempty : String.join (toolbox.plan.map (Step.textFor which)) ≠ "" := by
    cases which with
    | script => exact builds.script ▸ texts.1
    | makefile => exact builds.makefile ▸ texts.2
  rw [h.outcome]
  exact find?_finish_of_takeAll which h.begins h.taken apart nonempty h.closes none

/-- A file of a class is called like a stub or like a C++ file. -/
theorem exists_place_eq {cls : Class} {libraryNamespace : String} {artifact : Artifact}
    (member : artifact ∈ cls.artifacts libraryNamespace) :
    ∃ above name ending, artifact.place = above ++ [name ++ ending] ∧
      (ending = ".m" ∨ ending = ".cpp") := by
  rcases List.mem_cons.mp member with rfl | inFunctions
  · exact ⟨[cls.directory], cls.matlabName, _, rfl, .inl rfl⟩
  · obtain ⟨function, -, own⟩ := List.mem_flatMap.mp inFunctions
    simp only [GlueFunction.artifacts, List.mem_cons, List.not_mem_nil, or_false] at own
    rcases own with rfl | rfl
    · exact ⟨function.inside, function.name, _, rfl, .inl rfl⟩
    · exact ⟨function.inside, function.name, _, rfl, .inr rfl⟩

/-- No file of a class is called like the Makefile. -/
theorem makefile_apart (wellFormed : toolbox.interface.WellFormed) :
    ∀ step ∈ toolbox.plan, ∀ write ∈ step.writes,
      write.1 ≠ (toolbox.aggregatePath .makefile).location := by
  intro step member write inWrites same
  have planned := List.mem_flatMap.mpr ⟨step, member, inWrites⟩
  rw [flatMap_writes_plan wellFormed, List.mem_map] at planned
  obtain ⟨artifact, inClasses, rfl⟩ := planned
  obtain ⟨cls, -, inClass⟩ := List.mem_flatMap.mp inClasses
  obtain ⟨above, name, ending, place, isEnding⟩ := exists_place_eq inClass
  rw [Artifact.write_fst, aggregatePath, makefilePath_location, place, ← List.append_assoc] at same
  have names := List.singleton_inj.mp (List.append_inj' same rfl).2
  have last := congrArg (fun s => s.toList.getLast?) names
  rcases isEnding with rfl | rfl <;> simp at last

/-- A completed run has made the directory of every class. -/
theorem Completes.find?_classDirectory (h : toolbox.Completes disk start reached)
    (wellFormed : toolbox.interface.WellFormed) {cls : Class}
    (member : cls ∈ toolbox.interface.classes) :
    (toolbox.generate disk).disk.find? (toolbox.directory.location ++ [cls.directory]) =
      some .directory := by
  have isComponent := (wellFormed cls member).isComponent_directory
  have inPlan : .makeDirectory (toolbox.classDirectory cls) ∈ toolbox.plan := by
    refine List.mem_append_left _ (List.mem_append_right _ ?_)
    exact List.mem_flatMap.mpr ⟨cls, member, by simp [classSteps, glueSteps]⟩
  have inTrail : toolbox.directory.location ++ [cls.directory] ∈
      (toolbox.classDirectory cls).trail := by
    rw [classDirectory_eq (wellFormed cls member),
      Path.trail_below_singleton isComponent.goesDown]
    simp
  exact (h.changes wellFormed).made _
    (List.mem_append_right _ (List.mem_flatMap.mpr ⟨_, inPlan, inTrail⟩))

theorem proxyPath_location (toolbox : Toolbox) {cls : Class} (h : cls.WellFormed) :
    (toolbox.proxyPath cls).location = toolbox.directory.location ++ cls.proxyArtifact.place := by
  have file : IsComponent (cls.matlabName ++ ".m") :=
    h.isStem_matlabName.isComponent (by decide)
  rw [proxyPath_eq h, Path.location_below (by simp [h.isComponent_directory.goesDown, file.goesDown])]
  rfl

/-- A completed run has written the files of all classes, class by class. -/
theorem written_of_completes (h : (toolbox.generate disk).failure = none)
    (wellFormed : toolbox.interface.WellFormed) :
    toolbox.written disk =
      (toolbox.interface.classes.flatMap
        (Class.artifacts toolbox.options.libraryNamespace)).map
          (Artifact.write toolbox.directory) := by
  rw [generate_eq_operations] at h
  rw [written, performed_of_performAll (Prod.ext rfl h), flatMap_writes_operations,
    flatMap_writes_plan wellFormed]

end Completes

end Toolbox

/-! ## C++ files -/

/-- Whether a name is that of a C++ file. -/
def isSourceName (name : String) : Bool := ".cpp".toList.isSuffixOf name.toList

/-- Whether a place is that of a C++ file. -/
def isSource (location : Location) : Bool := location.getLast?.any isSourceName

theorem isSourceName_cpp (name : String) : isSourceName (name ++ ".cpp") = true := by
  simp [isSourceName, List.isSuffixOf_iff_suffix]

theorem isSource_cpp (above : Location) (name : String) :
    isSource (above ++ [name ++ ".cpp"]) = true := by
  rw [isSource, List.getLast?_concat, Option.any_some, isSourceName_cpp]

theorem isSource_m (above : Location) (name : String) :
    isSource (above ++ [name ++ ".m"]) = false := by
  have notSuffix : ¬ ".cpp".toList <:+ (name ++ ".m").toList := by
    rintro ⟨front, same⟩
    have last := congrArg List.getLast? same
    simp at last
  rw [isSource, List.getLast?_concat, Option.any_some, Bool.eq_false_iff]
  exact fun suffix => notSuffix (List.isSuffixOf_iff_suffix.mp suffix)

namespace Toolbox

/-- The C++ files that a run on this disk writes, in the order of writing. -/
def writtenSources (toolbox : Toolbox) (disk : Disk) : List Location :=
  ((toolbox.written disk).map Prod.fst).filter isSource

variable {toolbox : Toolbox} {disk : Disk}

theorem filter_isSource_artifacts (directory : Path) (libraryNamespace : String) (cls : Class) :
    (((cls.artifacts libraryNamespace).map (Artifact.write directory)).map Prod.fst).filter
        isSource =
      (cls.functions libraryNamespace).map fun function =>
        directory.location ++ function.sourcePlace := by
  have proxy : isSource (directory.location ++ cls.proxyArtifact.place) = false := by
    have place : directory.location ++ cls.proxyArtifact.place =
        (directory.location ++ [cls.directory]) ++ [cls.matlabName ++ ".m"] := by
      simp [Class.proxyArtifact]
    rw [place, isSource_m]
  rw [Class.artifacts]
  simp only [List.map_cons, Artifact.write, List.filter_cons, proxy, Bool.false_eq_true, if_false]
  induction cls.functions libraryNamespace with
  | nil => rfl
  | cons function functions ih =>
      simp only [List.flatMap_cons, GlueFunction.artifacts, List.map_append, List.map_cons,
        List.map_nil, Artifact.write, List.filter_append, List.filter_cons, List.filter_nil,
        GlueFunction.stubPlace, GlueFunction.sourcePlace, ← List.append_assoc, isSource_m,
        isSource_cpp, Bool.false_eq_true, if_false, if_true, List.singleton_append, List.cons.injEq,
        true_and]
      simpa only [Artifact.write, GlueFunction.sourcePlace, ← List.append_assoc] using ih

/-- A completed run has written one C++ file for each function, class by class. -/
theorem writtenSources_of_completes (h : (toolbox.generate disk).failure = none)
    (wellFormed : toolbox.interface.WellFormed) :
    toolbox.writtenSources disk =
      toolbox.interface.classes.flatMap fun cls =>
        (cls.functions toolbox.options.libraryNamespace).map fun function =>
          toolbox.directory.location ++ function.sourcePlace := by
  rw [writtenSources, written_of_completes h wellFormed]
  simp only [List.map_flatMap, List.filter_flatMap, filter_isSource_artifacts]

end Toolbox

end MexGlue
