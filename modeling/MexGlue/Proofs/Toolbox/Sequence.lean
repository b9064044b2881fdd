import MexGlue.Proofs.Toolbox.Stops

/-!
# A run as one sequence of operations

All that a run does is one sequence of operations, from making the toolbox directory to closing the
make script. They are performed until one fails, and then the files that are still open are closed;
what goes wrong in that is not told any more. Closing is an operation like others only behind all
others, so its failures count there and nowhere else.
-/

namespace MexGlue

inductive Operation where
  | createToolbox
  | openScript
  | openMakefile
  | step (step : Step)
  | check (cls : Class)
  | closeMakefile
  | closeScript
  deriving DecidableEq, Repr

/-- Where a run stands. The two files are there while they are open. -/
structure RunState where
  disk : Disk
  script : Option OpenFile := none
  makefile : Option OpenFile := none
  report : Report := []
  deriving DecidableEq

def Progress.runState (progress : Progress) : RunState :=
  ⟨progress.disk, some progress.script, some progress.makefile, progress.report⟩

/-- Where a run on this disk begins. -/
def RunState.initial (disk : Disk) : RunState := { disk := disk }

def RunState.outcome (state : RunState) (failure : Option Failure) : Outcome :=
  ⟨failure, state.disk, state.report⟩

namespace Toolbox

variable (toolbox : Toolbox)

/-- Performs one operation, and tells how it fails if it does. Steps are for open files. -/
def perform (state : RunState) : Operation → RunState × Option Failure
  | .createToolbox =>
      let made := state.disk.makeDirectories toolbox.directory
      ({ state with disk := made.1 },
        if made.2 then none else some (.cannotOpen toolbox.directory))
  | .openScript =>
      let report := state.report ++
        reportLine toolbox.interface.verbose ("Generating: " ++ toolbox.scriptPath.text)
      match state.disk.openFile? toolbox.scriptPath with
      | none => ({ state with report := report }, some (.cannotOpen toolbox.scriptPath))
      | some (disk, file) =>
          ({ state with disk := disk, script := some file, report := report }, none)
  | .openMakefile =>
      let report := state.report ++
        reportLine toolbox.interface.verbose ("Generating: " ++ toolbox.makefilePath.text)
      match state.disk.openFile? toolbox.makefilePath with
      | none => ({ state with report := report }, some (.cannotOpen toolbox.makefilePath))
      | some (disk, file) =>
          ({ state with disk := disk, makefile := some file, report := report }, none)
  | .step step =>
      match state.script, state.makefile with
      | some script, some makefile =>
          let taken := step.take toolbox.interface.verbose
            ⟨state.disk, script, makefile, state.report⟩
          (taken.1.runState, taken.2)
      | _, _ => (state, none)
  | .check cls => (state, Failure.ofCheck (cls.verify toolbox.interface.knownTypes))
  | .closeMakefile =>
      match state.makefile with
      | none => (state, none)
      | some file =>
          let closed := file.close state.disk
          ({ state with disk := closed.1, makefile := none }, closingFailure file closed.2)
  | .closeScript =>
      match state.script with
      | none => (state, none)
      | some file =>
          let closed := file.close state.disk
          ({ state with disk := closed.1, script := none }, closingFailure file closed.2)

/-- Performs operations until one fails. -/
def performAll (state : RunState) : List Operation → RunState × Option Failure
  | [] => (state, none)
  | op :: ops =>
      match toolbox.perform state op with
      | (reached, none) => performAll reached ops
      | (reached, some failure) => (reached, some failure)

/-- Closes what is still open, the Makefile first, whether that works or not. -/
def exit (state : RunState) : RunState :=
  (toolbox.perform (toolbox.perform state .closeMakefile).1 .closeScript).1

def classOperations (cls : Class) : List Operation :=
  (toolbox.startSteps cls).map .step ++ .check cls :: (toolbox.memberSteps cls).map .step

/-- What is done before anything is written. -/
def openingOperations : List Operation := [.createToolbox, .openScript, .openMakefile]

/-- What is done while both files are open. -/
def openOperations : List Operation :=
  toolbox.openingSteps.map .step ++ toolbox.interface.classes.flatMap toolbox.classOperations ++
    toolbox.closingSteps.map .step

/-- All operations of a run, in order. -/
def operations : List Operation :=
  openingOperations ++ toolbox.openOperations ++ [.closeMakefile, .closeScript]

/-! ## Performing operations -/

variable {toolbox} {state reached : RunState} {op : Operation} {before later : List Operation}
  {failure : Failure}

theorem performAll_append (first second : List Operation) :
    toolbox.performAll state (first ++ second) =
      match toolbox.performAll state first with
      | (reached, none) => toolbox.performAll reached second
      | (reached, some failure) => (reached, some failure) := by
  induction first generalizing state with
  | nil => rfl
  | cons op first ih =>
      rw [List.cons_append, performAll, performAll]
      rcases toolbox.perform state op with ⟨next, _ | failure⟩
      · exact ih
      · rfl

/-- What every operation keeps is kept by a run, be it by one that ends with a failure. -/
theorem performAll_keeps {keeps : RunState → Prop} {ops : List Operation}
    (step : ∀ state, ∀ op ∈ ops, keeps state → keeps (toolbox.perform state op).1)
    (first : keeps state) : keeps (toolbox.performAll state ops).1 := by
  induction ops generalizing state with
  | nil => exact first
  | cons op ops ih =>
      have next := step state op List.mem_cons_self first
      rw [performAll]
      rcases performed : toolbox.perform state op with ⟨middle, _ | failure⟩
      · rw [performed] at next
        exact ih (fun state op member => step state op (List.mem_cons_of_mem _ member)) next
      · rw [performed] at next
        exact next

/-- A run ends with the first operation that fails. -/
theorem performAll_of_fails (ran : toolbox.performAll state before = (reached, none))
    (fails : (toolbox.perform reached op).2 = some failure) (later : List Operation) :
    toolbox.performAll state (before ++ op :: later) =
      ((toolbox.perform reached op).1, some failure) := by
  rw [performAll_append, ran]
  simp only [performAll]
  rcases performed : toolbox.perform reached op with ⟨next, _ | found⟩
  · rw [performed] at fails
    cases fails
  · rw [performed] at fails
    cases fails
    rfl

/-- A run that ends with a failure comes to an operation that fails so. -/
theorem exists_fails_of_performAll {ops : List Operation}
    (h : (toolbox.performAll state ops).2 = some failure) :
    ∃ before op later reached, ops = before ++ op :: later ∧
      toolbox.performAll state before = (reached, none) ∧
      (toolbox.perform reached op).2 = some failure := by
  induction ops generalizing state with
  | nil => cases h
  | cons op ops ih =>
      rw [performAll] at h
      rcases performed : toolbox.perform state op with ⟨next, _ | found⟩
      · rw [performed] at h
        obtain ⟨before, failing, later, reached, split, ran, fails⟩ := ih h
        refine ⟨op :: before, failing, later, reached, by rw [split, List.cons_append], ?_, fails⟩
        rw [performAll, performed]
        exact ran
      · rw [performed] at h
        cases h
        exact ⟨[], op, ops, state, rfl, rfl, congrArg Prod.snd performed⟩

/-- A run without a failure has come to each of its operations, and none has failed. -/
theorem exists_of_performAll_eq_none {final : RunState}
    (h : toolbox.performAll state (before ++ op :: later) = (final, none)) :
    ∃ reached, toolbox.performAll state before = (reached, none) ∧
      (toolbox.perform reached op).2 = none := by
  rw [performAll_append] at h
  rcases ran : toolbox.performAll state before with ⟨reached, _ | failure⟩
  · rw [ran] at h
    refine ⟨reached, rfl, ?_⟩
    simp only [performAll] at h
    rcases performed : toolbox.perform reached op with ⟨next, _ | failure⟩
    · rfl
    · rw [performed] at h
      cases h
  · rw [ran] at h
    cases h

/-! ## Operations and steps of the plan -/

variable (toolbox) in
/-- Whether these operations do what these steps do. -/
def Does (ops : List Operation) (steps : List Step) : Prop :=
  ∀ progress : Progress, toolbox.performAll progress.runState ops =
    ((Step.takeAll toolbox.interface.verbose progress steps).1.runState,
      (Step.takeAll toolbox.interface.verbose progress steps).2)

theorem Does.append {ops more : List Operation} {steps moreSteps : List Step}
    (h : toolbox.Does ops steps) (h' : toolbox.Does more moreSteps) :
    toolbox.Does (ops ++ more) (steps ++ moreSteps) := by
  intro progress
  rw [performAll_append, Step.takeAll_append, h progress]
  rcases Step.takeAll toolbox.interface.verbose progress steps with ⟨next, _ | failure⟩
  · exact h' next
  · rfl

theorem does_map_step (toolbox : Toolbox) (steps : List Step) :
    toolbox.Does (steps.map .step) steps := by
  induction steps with
  | nil => exact fun _ => rfl
  | cons step steps ih =>
      intro progress
      rw [List.map_cons, performAll, Step.takeAll]
      simp only [perform, Progress.runState]
      rcases step.take toolbox.interface.verbose progress with ⟨next, _ | failure⟩
      · exact ih next
      · rfl

theorem does_check (toolbox : Toolbox) (cls : Class) :
    toolbox.Does [.check cls] (verifySteps toolbox.interface.knownTypes cls) := by
  intro progress
  simp only [performAll, perform, verifySteps]
  cases cls.verify toolbox.interface.knownTypes <;> rfl

theorem does_classOperations (toolbox : Toolbox) (cls : Class) :
    toolbox.Does (toolbox.classOperations cls) (toolbox.classSteps cls) := by
  rw [classSteps_eq, classOperations, List.append_cons]
  have first := (does_map_step toolbox (toolbox.startSteps cls)).append (does_check toolbox cls)
  rw [← List.append_assoc (toolbox.startSteps cls)]
  exact first.append (does_map_step toolbox (toolbox.memberSteps cls))

theorem does_flatMap {α : Type} {items : List α} {ops : α → List Operation}
    {steps : α → List Step} (h : ∀ item, toolbox.Does (ops item) (steps item)) :
    toolbox.Does (items.flatMap ops) (items.flatMap steps) := by
  induction items with
  | nil => exact fun _ => rfl
  | cons item items ih => exact (h item).append ih

/-- While both files are open the plan is carried out. -/
theorem does_plan (toolbox : Toolbox) : toolbox.Does toolbox.openOperations toolbox.plan :=
  ((does_map_step toolbox _).append (does_flatMap (does_classOperations toolbox))).append
    (does_map_step toolbox _)

/-! ## Whole runs -/

/-- Behind a failure the two files are closed, and what goes wrong in that does not count. -/
theorem finish_some (toolbox : Toolbox) (progress : Progress) (failure : Failure) :
    progress.finish (some failure) =
      (toolbox.exit progress.runState).outcome (some failure) := rfl

/-- Behind a plan that was carried out the two files are closed as operations of their own. -/
theorem finish_none (toolbox : Toolbox) (progress : Progress) :
    progress.finish none =
      (toolbox.exit (toolbox.performAll progress.runState [.closeMakefile, .closeScript]).1).outcome
        (toolbox.performAll progress.runState [.closeMakefile, .closeScript]).2 := by
  simp only [performAll, perform, Progress.runState, Progress.finish, Option.none_or]
  rcases makefileClosed : progress.makefile.close progress.disk with ⟨middle, _ | _⟩
  · simp only [closingFailure, Bool.false_eq_true, if_false, Option.some_or]
    rfl
  · simp only [closingFailure, if_true, Option.none_or]
    rcases scriptClosed : progress.script.close middle with ⟨last, _ | _⟩ <;> rfl

variable {disk : Disk} {start : Progress}

theorem performAll_openingOperations (h : toolbox.start? disk = some start) :
    toolbox.performAll (.initial disk) openingOperations = (start.runState, none) := by
  obtain ⟨made, _, _, scriptOpened, _, _, makefileOpened, rfl⟩ := start?_eq_some_iff.mp h
  simp [openingOperations, performAll, perform, RunState.initial, made, scriptOpened,
    makefileOpened, Progress.runState]

/-- A run that does not begin closes what it has opened. -/
theorem performAll_openingOperations_of_none (h : toolbox.start? disk = none) :
    ∃ state failure,
      toolbox.performAll (.initial disk) openingOperations = (state, some failure) ∧
      toolbox.generate disk = (toolbox.exit state).outcome (some failure) := by
  by_cases made : (disk.makeDirectories toolbox.directory).2 = true
  · simp only [start?, made, if_true] at h
    simp only [generate, made, if_true, generateInside, openingOperations, performAll, perform,
      RunState.initial]
    cases scriptOpened : (disk.makeDirectories toolbox.directory).1.openFile? toolbox.scriptPath with
    | none => exact ⟨_, _, rfl, rfl⟩
    | some result =>
        obtain ⟨scriptDisk, script⟩ := result
        cases makefileOpened : scriptDisk.openFile? toolbox.makefilePath with
        | none =>
            simp only [makefileOpened]
            exact ⟨_, _, rfl, rfl⟩
        | some result => simp [scriptOpened, makefileOpened] at h
  · simp only [generate, if_neg made, openingOperations, performAll, perform, RunState.initial]
    exact ⟨_, _, rfl, rfl⟩

/-- A run is its operations, performed until one fails, with all files closed behind them. -/
theorem generate_eq_operations (toolbox : Toolbox) (disk : Disk) :
    toolbox.generate disk =
      (toolbox.exit (toolbox.performAll (.initial disk) toolbox.operations).1).outcome
        (toolbox.performAll (.initial disk) toolbox.operations).2 := by
  rw [operations, List.append_assoc, performAll_append]
  cases begun : toolbox.start? disk with
  | none =>
      obtain ⟨state, failure, performed, same⟩ := performAll_openingOperations_of_none begun
      rw [performed]
      exact same
  | some start =>
      rw [performAll_openingOperations begun, generate_of_start? begun]
      simp only
      rw [performAll_append, does_plan toolbox start]
      rcases Step.takeAll toolbox.interface.verbose start toolbox.plan with ⟨reached, _ | failure⟩
      · exact finish_none toolbox reached
      · exact finish_some toolbox reached failure

end Toolbox

end MexGlue
