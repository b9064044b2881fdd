import MexGlue.Proofs.Toolbox.Apart
import MexGlue.Proofs.Toolbox.Completed

/-!
# Files that are not overwritten

A run opens the make script and the Makefile and then the files of its classes, up to where it fails,
so if the names in an interface are apart it opens no place twice. All that a completed run has
written is then still there: the proxy of each class, and both files of each of its members.
-/

namespace MexGlue

/-! ## Places that a run writes -/

/-- The places of the files that an operation opens to write. -/
def Operation.outputs (toolbox : Toolbox) : Operation → List Location
  | .openScript => [toolbox.scriptPath.location]
  | .openMakefile => [toolbox.makefilePath.location]
  | op => op.writes.map Prod.fst

namespace Toolbox

/-- The operations that a run tries from a state on, with the one that fails. -/
def tried (toolbox : Toolbox) (state : RunState) : List Operation → List Operation
  | [] => []
  | op :: ops =>
      op ::
        match toolbox.perform state op with
        | (reached, none) => toolbox.tried reached ops
        | (_, some _) => []

/-- The places of all files that a run on this disk opens to write, in the order of opening. -/
def outputs (toolbox : Toolbox) (disk : Disk) : List Location :=
  (toolbox.tried (.initial disk) toolbox.operations).flatMap (Operation.outputs toolbox)

variable {toolbox : Toolbox} {disk : Disk}

theorem tried_prefix (toolbox : Toolbox) (state : RunState) (ops : List Operation) :
    toolbox.tried state ops <+: ops := by
  induction ops generalizing state with
  | nil => exact List.prefix_refl []
  | cons op ops ih =>
      rw [tried]
      refine (List.prefix_cons_inj op).mpr ?_
      rcases toolbox.perform state op with ⟨next, _ | failure⟩
      · exact ih next
      · exact List.nil_prefix

theorem outputs_sublist (toolbox : Toolbox) (disk : Disk) :
    (toolbox.outputs disk).Sublist (toolbox.operations.flatMap (Operation.outputs toolbox)) := by
  obtain ⟨rest, whole⟩ := tried_prefix toolbox (.initial disk) toolbox.operations
  have split := congrArg (List.flatMap (Operation.outputs toolbox)) whole
  rw [List.flatMap_append] at split
  rw [outputs, ← split]
  exact List.sublist_append_left _ _

theorem outputs_of_mem_openOperations {op : Operation} (member : op ∈ toolbox.openOperations) :
    op.outputs toolbox = op.writes.map Prod.fst := by
  cases op with
  | openScript => simp [openOperations, classOperations] at member
  | openMakefile => simp [openOperations, classOperations] at member
  | createToolbox => rfl
  | step planned => rfl
  | check cls => rfl
  | closeMakefile => rfl
  | closeScript => rfl

theorem flatMap_outputs_operations (toolbox : Toolbox) :
    toolbox.operations.flatMap (Operation.outputs toolbox) =
      toolbox.scriptPath.location :: toolbox.makefilePath.location ::
        (toolbox.plan.flatMap Step.writes).map Prod.fst := by
  have steps : toolbox.openOperations.flatMap (Operation.outputs toolbox) =
      (toolbox.plan.flatMap Step.writes).map Prod.fst := by
    have writes : toolbox.openOperations.flatMap Operation.writes =
        toolbox.plan.flatMap Step.writes := by
      rw [← flatMap_writes_operations, operations, List.flatMap_append, List.flatMap_append]
      simp [openingOperations, Operation.writes]
    rw [← writes, List.map_flatMap]
    exact List.flatMap_congr fun op member => outputs_of_mem_openOperations member
  rw [operations, List.flatMap_append, List.flatMap_append, steps]
  simp [openingOperations, Operation.outputs, Operation.writes]

theorem scriptPath_location (noSlash : '/' ∉ toolbox.interface.name.toList) :
    toolbox.scriptPath.location =
      toolbox.directory.location ++ ["make_" ++ toolbox.interface.name ++ ".m"] := by
  have spelled : ("make_" ++ toolbox.interface.name ++ ".m").toList =
      'm' :: ("ake_" ++ toolbox.interface.name ++ ".m").toList := by simp
  have component : IsComponent ("make_" ++ toolbox.interface.name ++ ".m") :=
    .of_head spelled (by decide) (by simp [noSlash])
  rw [scriptPath, Path.join_of_isComponent component,
    Path.location_below (by simp [component.goesDown])]

/-- The operations of a run, performed or not, open different places to write. -/
theorem nodup_outputs_operations (apart : toolbox.interface.NamesApart)
    (wellFormed : toolbox.interface.WellFormed) :
    (toolbox.operations.flatMap (Operation.outputs toolbox)).Nodup := by
  have places : toolbox.operations.flatMap (Operation.outputs toolbox) =
      (["make_" ++ toolbox.interface.name ++ ".m"] :: ["Makefile"] ::
        toolbox.interface.classes.flatMap
          (Class.places toolbox.options.libraryNamespace)).map
            (toolbox.directory.location ++ ·) := by
    rw [flatMap_outputs_operations, scriptPath_location apart.moduleName, makefilePath_location,
      flatMap_writes_plan wellFormed, List.map_cons, List.map_cons, List.map_map, List.map_flatMap,
      List.map_flatMap]
    simp only [← Class.map_place_artifacts, List.map_map, Function.comp_def, Artifact.write]
  rw [places]
  exact (apart.nodup_places wellFormed toolbox.options.libraryNamespace).map
    fun _ _ same => List.append_cancel_left same

/-! ## Members on the disk -/

/-- Whether all that is rendered for a class is on the disk, each in its place. -/
structure HoldsMembers (toolbox : Toolbox) (disk : Disk) (cls : Class) : Prop where
  proxy : ∃ text, cls.proxy? = some text ∧
    disk.find? (toolbox.proxyPath cls).location = some (.file text.toUTF8)
  constructors : ∀ ctor ∈ cls.constructors, ∃ name stub source,
    cls.constructorName? ctor = some name ∧ cls.constructorStub? ctor = some stub ∧
    cls.constructorFile? toolbox.options.libraryNamespace ctor = some source ∧
    disk.find? (stubPath toolbox.directory name).location = some (.file stub.toUTF8) ∧
    disk.find? (cppPath toolbox.directory name).location = some (.file source.toUTF8)
  staticMethods : ∀ method ∈ cls.staticMethods,
    disk.find? (stubPath toolbox.directory (cls.staticMethodName method)).location =
      some (.file (cls.staticMethodStub method).toUTF8) ∧
    disk.find? (cppPath toolbox.directory (cls.staticMethodName method)).location =
      some (.file (cls.staticMethodFile toolbox.options.libraryNamespace method).toUTF8)
  methods : ∀ method ∈ cls.methods,
    disk.find? (stubPath (toolbox.classDirectory cls) method.name).location =
      some (.file method.stub.toUTF8) ∧
    disk.find? (cppPath (toolbox.classDirectory cls) method.name).location =
      some (.file (cls.methodFile toolbox.options.libraryNamespace method).toUTF8)

section HoldsMembers

variable {cls : Class} {function : GlueFunction}

/-- Where the two files of a function are, given the directory that it is in. -/
theorem location_function (toolbox : Toolbox) (stem : IsStem function.name)
    (goesDown : ∀ part ∈ function.inside, part ≠ Path.up) :
    (stubPath (toolbox.directory.below function.inside) function.name).location =
        toolbox.directory.location ++ function.stubPlace ∧
      (cppPath (toolbox.directory.below function.inside) function.name).location =
        toolbox.directory.location ++ function.sourcePlace := by
  have down {ending : String} (noSlash : '/' ∉ ending.toList) :
      ∀ part ∈ function.inside ++ [function.name ++ ending], part ≠ Path.up :=
    List.forall_mem_append.mpr ⟨goesDown,
      List.forall_mem_singleton.mpr (stem.isComponent noSlash).goesDown⟩
  rw [stubPath_eq stem, cppPath_eq stem, Path.below_below, Path.below_below,
    Path.location_below (down (by decide)), Path.location_below (down (by decide))]
  exact ⟨rfl, rfl⟩

theorem holdsMembers_of_artifacts (h : cls.WellFormed)
    (holds : ∀ artifact ∈ cls.artifacts toolbox.options.libraryNamespace,
      disk.find? (toolbox.directory.location ++ artifact.place) =
        some (.file artifact.text.toUTF8)) : toolbox.HoldsMembers disk cls := by
  have function {function : GlueFunction}
      (member : function ∈ cls.functions toolbox.options.libraryNamespace) :
      disk.find? (stubPath (toolbox.directory.below function.inside) function.name).location =
          some (.file function.stub.toUTF8) ∧
        disk.find? (cppPath (toolbox.directory.below function.inside) function.name).location =
          some (.file function.source.toUTF8) := by
    obtain ⟨stem, inside⟩ := h.function_spec _ member
    have goesDown : ∀ part ∈ function.inside, part ≠ Path.up := by
      rcases inside with none | one
      · simp [none]
      · simp [one, h.isComponent_directory.goesDown]
    obtain ⟨stubAt, sourceAt⟩ := location_function toolbox stem goesDown
    have own {artifact : Artifact} (inFunction : artifact ∈ function.artifacts) :=
      holds artifact (List.mem_cons_of_mem _ (List.mem_flatMap.mpr ⟨function, member, inFunction⟩))
    rw [stubAt, sourceAt]
    exact ⟨own List.mem_cons_self, own (List.mem_cons_of_mem _ List.mem_cons_self)⟩
  refine ⟨?_, fun ctor member => ?_, fun method member => ?_, fun method member => ?_⟩
  · refine ⟨_, h.namesConstructorTypes.proxy?, ?_⟩
    have file := holds cls.proxyArtifact List.mem_cons_self
    rwa [Class.proxyArtifact_text, ← proxyPath_location toolbox h] at file
  · have name := h.namesConstructorTypes.constructorName? member
    have files := function (List.mem_append_left _ (List.mem_append_left _
      (List.mem_map_of_mem member)))
    rw [Class.constructorFunction, Path.below_nil] at files
    refine ⟨_, _, _, name, ?_, ?_, files⟩
    · rw [Class.constructorStub?, name, Option.map_some]
    · rw [Class.constructorFile?, name, Option.map_some]
  · have files := function (List.mem_append_left _ (List.mem_append_right _
      (List.mem_map_of_mem member)))
    rwa [Class.staticMethodFunction, Path.below_nil] at files
  · have files := function (List.mem_append_right _ (List.mem_map_of_mem member))
    rwa [Class.methodFunction, ← classDirectory_eq h] at files

end HoldsMembers

/-- If files have different places, each is there. -/
theorem HasLeft.find?_of_nodup {layout : Layout} {before after : Disk}
    (h : toolbox.HasLeft layout before after)
    (apart : (layout.artifacts.map Artifact.place).Nodup) {artifact : Artifact}
    (member : artifact ∈ layout.artifacts) :
    after.find? (toolbox.directory.location ++ artifact.place) =
      some (.file artifact.text.toUTF8) := by
  obtain ⟨earlier, later, split⟩ := List.append_of_mem member
  refine h.artifacts earlier artifact later split fun other inLater same => ?_
  rw [split, List.map_append, List.map_cons] at apart
  have behind := (List.nodup_cons.mp (List.nodup_append'.mp apart).2.1).1
  exact behind (same ▸ List.mem_map_of_mem inLater)

/-- If the names in an interface are apart, the files of a layout are apart from each other and from
the make script and the Makefile. -/
theorem apart_of_layout? (apart : toolbox.interface.NamesApart)
    (wellFormed : toolbox.interface.WellFormed) {layout : Layout}
    (found : toolbox.layout? = some layout) :
    toolbox.ArtifactsApart layout ∧ (layout.artifacts.map Artifact.place).Nodup := by
  have files : layout.artifacts.map Artifact.place = toolbox.interface.classes.flatMap
      (Class.places toolbox.options.libraryNamespace) := by
    rw [artifacts_of_layout? (fun cls member => (wellFormed cls member).namesConstructorTypes) found,
      List.map_flatMap]
    exact List.flatMap_congr fun cls _ => Class.map_place_artifacts _ cls
  have places := apart.nodup_places wellFormed toolbox.options.libraryNamespace
  rw [← files] at places
  obtain ⟨notScript, later⟩ := List.nodup_cons.mp places
  obtain ⟨notMakefile, nodup⟩ := List.nodup_cons.mp later
  refine ⟨fun artifact member => ?_, nodup⟩
  have inPlaces := List.mem_map_of_mem (f := Artifact.place) member
  rw [scriptPath_location apart.moduleName, makefilePath_location]
  refine ⟨fun same => notScript ?_, fun same => notMakefile ?_⟩
  · rw [← List.append_cancel_left same]
    exact List.mem_cons_of_mem _ inPlaces
  · rwa [← List.append_cancel_left same]

/-- If the names in an interface are apart, a run opens no place twice to write, however it ends, and
a completed one has left all that is rendered for every member. -/
theorem generate_outputsApart {name text : String} {verbose : Bool}
    (read : Interface.ofText name verbose text = .ok toolbox.interface)
    (apart : toolbox.interface.NamesApart) :
    (toolbox.outputs disk).Nodup ∧
      ((toolbox.generate disk).failure = none →
        ∀ cls ∈ toolbox.interface.classes,
          toolbox.HoldsMembers (toolbox.generate disk).disk cls) := by
  have wellFormed := Interface.wellFormed_of_ofText read
  refine ⟨(outputs_sublist toolbox disk).nodup (nodup_outputs_operations apart wellFormed),
    fun completes cls member => ?_⟩
  obtain ⟨start, reached, completed⟩ := exists_completes completes
  obtain ⟨layout, found, builds⟩ := completed.exists_layout wellFormed
  obtain ⟨artifactsApart, nodup⟩ := apart_of_layout? apart wellFormed found
  have left := hasLeft_of_takeAll completed.begins builds artifactsApart completed.taken
    (nonempty_of_concat? found) completed.closes none
  rw [← completed.outcome] at left
  refine holdsMembers_of_artifacts (wellFormed cls member) fun artifact inClass => ?_
  refine left.find?_of_nodup nodup ?_
  rw [artifacts_of_layout? (fun cls member => (wellFormed cls member).namesConstructorTypes) found]
  exact List.mem_flatMap.mpr ⟨cls, member, inClass⟩

/-- Members that have the mark in their names, and two classes of one name. -/
theorem generate_outputsApart_namespaces : ∃ (toolbox : Toolbox) (disk : Disk),
    Interface.ofText "m" false
        "class A { A(); A(double x); void f(); void f_g(); static void F(); static void F_f(); }; namespace a { class A { A(int x); static void F(); }; }///\\namespace" =
      .ok toolbox.interface ∧
    toolbox.interface.NamesApart ∧ (toolbox.generate disk).failure = none ∧
    (toolbox.outputs disk).Nodup ∧
      ((toolbox.generate disk).failure = none →
        ∀ cls ∈ toolbox.interface.classes,
          toolbox.HoldsMembers (toolbox.generate disk).disk cls) := by
  refine ⟨{
    directory := .ofText "out"
    interface := {
      name := "m"
      classes := [
        { name := "A"
          constructors := [⟨"A", []⟩, ⟨"A", [{ type := "double", name := "x" }]⟩]
          methods := [{ name := "f" }, { name := "f_g" }]
          staticMethods := [{ name := "F" }, { name := "F_f" }] },
        { name := "A"
          namespaces := ["a"]
          constructors := [⟨"A", [{ type := "int", name := "x" }]⟩]
          staticMethods := [{ name := "F" }] }] } },
    {}, ?read, ?apart, ?completes, generate_outputsApart ?read ?apart⟩
  all_goals decide +kernel

end Toolbox

end MexGlue
