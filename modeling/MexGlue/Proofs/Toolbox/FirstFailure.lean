import MexGlue.Proofs.Toolbox.OpenFiles

/-!
# The first failure

A run reports the first of its operations that fails, under the path that the operation works on, and
goes no further. The make script and the Makefile are closed all the same, and what goes wrong in that
is not told. Nothing is written to the toolbox but the make script unless both are open.
-/

namespace MexGlue

/-- The path that an operation works on, if it works on one. -/
def Operation.path? (toolbox : Toolbox) : Operation → Option Path
  | .createToolbox => some toolbox.directory
  | .openScript => some toolbox.scriptPath
  | .openMakefile => some toolbox.makefilePath
  | .step (.makeDirectory path) => some path
  | .step (.writeFile path _) => some path
  | .step (.appendToScript _) => some toolbox.scriptPath
  | .step (.appendToMakefile _) => some toolbox.makefilePath
  | .step (.stop _) => none
  | .check _ => none
  | .closeMakefile => some toolbox.makefilePath
  | .closeScript => some toolbox.scriptPath

/-- Why an operation fails if it does. -/
def Operation.failure? (toolbox : Toolbox) : Operation → Option Failure
  | .step (.stop failure) => some failure
  | .check cls => Failure.ofCheck (cls.verify toolbox.interface.knownTypes)
  | op => (op.path? toolbox).map .cannotOpen

namespace Toolbox

variable {toolbox : Toolbox} {disk : Disk} {state : RunState} {op : Operation} {failure : Failure}

/-! ## How an operation fails -/

/-- A step that ends the run is a stop or cannot open the path that it works on. -/
theorem failure?_take {verbose : Bool} {progress : Progress} {step : Step}
    (script : progress.script.path = toolbox.scriptPath)
    (makefile : progress.makefile.path = toolbox.makefilePath)
    (fails : (step.take verbose progress).2 = some failure) :
    (Operation.step step).failure? toolbox = some failure := by
  cases step with
  | makeDirectory path =>
      simp only [Step.take] at fails
      split at fails <;> cases fails
      rfl
  | writeFile path text =>
      simp only [Step.take] at fails
      split at fails <;> cases fails
      rfl
  | appendToScript text =>
      simp only [Step.take] at fails
      split at fails <;> cases fails
      rw [script]
      rfl
  | appendToMakefile text =>
      simp only [Step.take] at fails
      split at fails <;> cases fails
      rw [makefile]
      rfl
  | stop stopped => exact fails

theorem closingFailure_eq_some {file : OpenFile} {arrived : Bool}
    (fails : closingFailure file arrived = some failure) : failure = .cannotOpen file.path := by
  unfold closingFailure at fails
  split at fails <;> cases fails
  rfl

theorem failure?_perform (own : state.OpensOwn toolbox)
    (fails : (toolbox.perform state op).2 = some failure) :
    op.failure? toolbox = some failure := by
  cases op with
  | createToolbox =>
      simp only [perform] at fails
      split at fails <;> cases fails
      rfl
  | openScript =>
      simp only [perform] at fails
      split at fails <;> cases fails
      rfl
  | openMakefile =>
      simp only [perform] at fails
      split at fails <;> cases fails
      rfl
  | step step =>
      simp only [perform] at fails
      split at fails
      · rename_i script makefile atScript atMakefile
        exact failure?_take (own.script script atScript).named
          (own.makefile makefile atMakefile).named fails
      · cases fails
  | check cls => exact fails
  | closeMakefile =>
      simp only [perform] at fails
      split at fails
      · cases fails
      · rename_i file opened
        rw [closingFailure_eq_some fails, (own.makefile file opened).named]
        rfl
  | closeScript =>
      simp only [perform] at fails
      split at fails
      · cases fails
      · rename_i file opened
        rw [closingFailure_eq_some fails, (own.script file opened).named]
        rfl

theorem stop_not_mem_map {steps : List Step} (goesOn : Step.GoOn steps) (failure : Failure) :
    Operation.step (.stop failure) ∉ steps.map .step := by
  intro member
  obtain ⟨step, inSteps, same⟩ := List.mem_map.mp member
  cases same
  cases goesOn _ inSteps

/-- The plan of an interface that was read stops nowhere but at a check. -/
theorem stop_not_mem_operations (h : toolbox.interface.WellFormed) (failure : Failure) :
    Operation.step (.stop failure) ∉ toolbox.operations := by
  simp only [operations, openingOperations, openOperations, classOperations, List.mem_append,
    List.mem_flatMap, List.mem_cons, List.not_mem_nil, reduceCtorEq, false_or, or_false, not_or,
    not_exists, not_and]
  refine ⟨⟨stop_not_mem_map (goOn_openingSteps toolbox) failure, fun cls member => ?_⟩,
    stop_not_mem_map (goOn_closingSteps toolbox) failure⟩
  have names := (h cls member).namesConstructorTypes
  exact ⟨stop_not_mem_map (goOn_startSteps names) failure,
    stop_not_mem_map (goOn_memberSteps names) failure⟩

/-- An operation fails at its path, or it is a check that its class does not pass. -/
theorem path_of_failure? (h : toolbox.interface.WellFormed) (member : op ∈ toolbox.operations)
    (fails : op.failure? toolbox = some failure) :
    (∃ path, op.path? toolbox = some path ∧ failure = .cannotOpen path) ∨
      ∃ cls use, op = .check cls ∧ cls.verify toolbox.interface.knownTypes = .error use ∧
        failure = .missingDependency use := by
  cases op with
  | check cls =>
      rw [Operation.failure?] at fails
      cases checked : cls.verify toolbox.interface.knownTypes with
      | ok _ => rw [checked] at fails; cases fails
      | error use =>
          rw [checked] at fails
          cases fails
          exact .inr ⟨cls, use, rfl, checked, rfl⟩
  | step step =>
      cases step with
      | stop failure => exact absurd member (stop_not_mem_operations h failure)
      | _ => exact .inl ⟨_, rfl, (Option.some.inj fails).symm⟩
  | _ => exact .inl ⟨_, rfl, (Option.some.inj fails).symm⟩

/-! ## A run that does not begin -/

/-- A run that cannot open both files makes directories and the make script and nothing else. -/
theorem find?_generate_of_start?_eq_none (h : toolbox.start? disk = none) {location : Location}
    (notTrail : location ∉ toolbox.directory.trail)
    (notScript : location ≠ toolbox.scriptPath.location) :
    (toolbox.generate disk).disk.find? location = disk.find? location := by
  have inTrail := @Disk.find?_makeDirectories_of_not_mem disk toolbox.directory location notTrail
  by_cases made : (disk.makeDirectories toolbox.directory).2 = true
  · simp only [start?, made, if_true] at h
    simp only [generate, made, if_true, generateInside]
    cases scriptOpened : (disk.makeDirectories toolbox.directory).1.openFile? toolbox.scriptPath with
    | none => exact inTrail
    | some result =>
        obtain ⟨scriptDisk, script⟩ := result
        have isAt := (Disk.openFile?_eq_some scriptOpened).1
        cases makefileOpened : scriptDisk.openFile? toolbox.makefilePath with
        | none =>
            simp only [makefileOpened]
            rw [script.find?_close _ (by rwa [isAt.placed]),
              Disk.find?_openFile? scriptOpened notScript, inTrail]
        | some result => simp [scriptOpened, makefileOpened] at h
  · simp only [generate, if_neg made]
    exact inTrail

end Toolbox

/-- Whether a run on this disk comes to the operation in this state, with all operations in front of
it done. -/
def Toolbox.Reaches (toolbox : Toolbox) (disk : Disk) (op : Operation) (state : RunState) : Prop :=
  ∃ before later, toolbox.operations = before ++ op :: later ∧
    toolbox.performAll (.initial disk) before = (state, none)

theorem Toolbox.Reaches.opensOwn {toolbox : Toolbox} {disk : Disk} {op : Operation}
    {state : RunState} (h : toolbox.Reaches disk op state) : state.OpensOwn toolbox := by
  obtain ⟨before, later, -, ran⟩ := h
  have own := opensOwn_performAll before (opensOwn_initial toolbox disk)
  rwa [ran] at own

/-- What it is for a run to end at its first failure. -/
structure Toolbox.EndsAtFirstFailure (toolbox : Toolbox) (disk : Disk) : Prop where
  /-- The failure of a run is that of the first operation that fails. -/
  failure_iff : ∀ failure, (toolbox.generate disk).failure = some failure ↔
    ∃ op state, toolbox.Reaches disk op state ∧ (toolbox.perform state op).2 = some failure
  /-- It names the path of this operation, or it is what a class's check reports. -/
  named : ∀ op state failure, toolbox.Reaches disk op state →
    (toolbox.perform state op).2 = some failure →
    (∃ path, op.path? toolbox = some path ∧ failure = .cannotOpen path) ∨
      ∃ cls use, op = .check cls ∧ cls.verify toolbox.interface.knownTypes = .error use ∧
        failure = .missingDependency use
  /-- Behind the failure the files that are open are closed, whether that works or not. -/
  closes : ∀ op state failure, toolbox.Reaches disk op state →
    (toolbox.perform state op).2 = some failure →
    toolbox.generate disk = (toolbox.exit (toolbox.perform state op).1).outcome (some failure) ∧
    (toolbox.exit (toolbox.perform state op).1).script = none ∧
    (toolbox.exit (toolbox.perform state op).1).makefile = none
  /-- All that was appended to such a file then arrives, if it has room and nothing else was written
  in its place. -/
  arrives : ∀ before op later state failure, toolbox.operations = before ++ op :: later →
    toolbox.performAll (.initial disk) before = (state, none) →
    (toolbox.perform state op).2 = some failure →
    ∀ which, (∀ tried ∈ before ++ [op], ∀ write ∈ tried.writes,
        write.1 ≠ (toolbox.aggregatePath which).location) →
      ∀ file ∈ (toolbox.perform state op).1.file? which, file.sink ≠ .device →
        (toolbox.generate disk).disk.find? (toolbox.aggregatePath which).location =
          some (.file (String.join (before.map (Operation.textFor which))).toUTF8)
  /-- A run without a failure has done every operation, closing the files among them. -/
  completes : (toolbox.generate disk).failure = none → ∀ before op later,
    toolbox.operations = before ++ op :: later → ∃ state,
      toolbox.performAll (.initial disk) before = (state, none) ∧
      (toolbox.perform state op).2 = none
  /-- Steps are taken while both files are open. -/
  open_of_step : ∀ step state, toolbox.Reaches disk (.step step) state → state.BothOpen
  /-- Only a run that has opened both files changes more than the toolbox directory, those above it
  and the make script. -/
  opened_of_changed : ∀ location,
    (toolbox.generate disk).disk.find? location ≠ disk.find? location →
    location ∈ toolbox.directory.trail ∨ location = toolbox.scriptPath.location ∨
      ∃ state, toolbox.performAll (.initial disk) openingOperations = (state, none) ∧
        state.BothOpen

end MexGlue
