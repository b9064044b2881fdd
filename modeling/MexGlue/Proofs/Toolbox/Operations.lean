import MexGlue.Proofs.Toolbox.Steps

/-!
# Runs in which every operation works

A run begins by making the toolbox directory and opening two files, goes on with the steps of the
plan, and ends by closing the files. If every operation works that it comes to, the only way for it
to fail is a stop in the plan, and the first one is the failure that is reported.
-/

namespace MexGlue

namespace Step

/-- Whether the operation of a step works where the run has come to. A stop has none. -/
def Works (progress : Progress) : Step → Prop
  | .makeDirectory path => (progress.disk.makeDirectories path).2 = true
  | .writeFile path text => (progress.disk.writeFile path text).2 = true
  | .appendToScript text => (progress.script.append? text progress.disk).isSome = true
  | .appendToMakefile text => (progress.makefile.append? text progress.disk).isSome = true
  | .stop _ => True

/-- Whether the operations of all steps work that the run comes to. -/
def AllWork (verbose : Bool) (progress : Progress) : List Step → Prop
  | [] => True
  | step :: steps => step.Works progress ∧
      match step.take verbose progress with
      | (reached, none) => AllWork verbose reached steps
      | (_, some _) => True

instance (progress : Progress) (step : Step) : Decidable (step.Works progress) :=
  match step with
  | .makeDirectory path =>
      inferInstanceAs (Decidable ((progress.disk.makeDirectories path).2 = true))
  | .writeFile path text =>
      inferInstanceAs (Decidable ((progress.disk.writeFile path text).2 = true))
  | .appendToScript text =>
      inferInstanceAs (Decidable ((progress.script.append? text progress.disk).isSome = true))
  | .appendToMakefile text =>
      inferInstanceAs (Decidable ((progress.makefile.append? text progress.disk).isSome = true))
  | .stop _ => inferInstanceAs (Decidable True)

instance AllWork.decidable (verbose : Bool) (progress : Progress) :
    (steps : List Step) → Decidable (AllWork verbose progress steps)
  | [] => inferInstanceAs (Decidable True)
  | step :: steps =>
      match taken : step.take verbose progress with
      | (reached, none) =>
          have := AllWork.decidable verbose reached steps
          decidable_of_iff (step.Works progress ∧ AllWork verbose reached steps)
            (by rw [AllWork, taken])
      | (reached, some failure) =>
          decidable_of_iff (step.Works progress ∧ True) (by rw [AllWork, taken])

variable {verbose : Bool} {progress : Progress} {step : Step} {steps : List Step}

variable (verbose) in
/-- A step whose operation works ends the run only if it is a stop. -/
theorem take_of_works (h : step.Works progress) : (step.take verbose progress).2 = step.failure? := by
  cases step with
  | makeDirectory path => exact if_pos h
  | writeFile path text =>
      simp only [take]
      rw [if_pos (show (progress.disk.writeFile path text).2 = true from h)]
      rfl
  | appendToScript text =>
      obtain ⟨script, appended⟩ := Option.isSome_iff_exists.mp h
      simp only [take, appended]
      rfl
  | appendToMakefile text =>
      obtain ⟨makefile, appended⟩ := Option.isSome_iff_exists.mp h
      simp only [take, appended]
      rfl
  | stop failure => rfl

/-- If all operations work, the first stop is what ends the run. -/
theorem takeAll_of_allWork (h : AllWork verbose progress steps) :
    (takeAll verbose progress steps).2 = steps.findSome? failure? := by
  induction steps generalizing progress with
  | nil => rfl
  | cons step steps ih =>
      rw [AllWork] at h
      have ending := take_of_works verbose h.1
      rw [takeAll, List.findSome?_cons]
      rcases taken : step.take verbose progress with ⟨reached, _ | failure⟩
      · rw [taken] at ending h
        rw [← ending]
        exact ih h.2
      · rw [taken] at ending
        rw [← ending]

theorem AllWork.append {first second : List Step}
    (h : AllWork verbose progress (first ++ second)) : AllWork verbose progress first := by
  induction first generalizing progress with
  | nil => trivial
  | cons step first ih =>
      rw [List.cons_append, AllWork] at h
      rw [AllWork]
      refine ⟨h.1, ?_⟩
      rcases taken : step.take verbose progress with ⟨reached, _ | failure⟩
      · rw [taken] at h
        exact ih h.2
      · trivial

/-- A run whose operations all work comes to the first stop. -/
theorem takeAll_of_stop {first second : List Step} {failure : Failure}
    (h : AllWork verbose progress (first ++ .stop failure :: second))
    (goesOn : ∀ step ∈ first, step.failure? = none) :
    ∃ reached, takeAll verbose progress first = (reached, none) ∧
      takeAll verbose progress (first ++ .stop failure :: second) = (reached, some failure) := by
  have ending := takeAll_of_allWork h.append
  rw [List.findSome?_eq_none_iff.mpr goesOn] at ending
  have taken : takeAll verbose progress first = ((takeAll verbose progress first).1, none) :=
    Prod.ext rfl ending
  refine ⟨_, taken, ?_⟩
  rw [takeAll_append, taken]
  rfl

end Step

/-- Whether all that was appended to the two open files arrives when they are closed. -/
structure Progress.Closes (progress : Progress) : Prop where
  makefile : (progress.makefile.close progress.disk).2 = true
  script : (progress.script.close (progress.makefile.close progress.disk).1).2 = true

instance (progress : Progress) : Decidable progress.Closes :=
  decidable_of_iff
    ((progress.makefile.close progress.disk).2 = true ∧
      (progress.script.close (progress.makefile.close progress.disk).1).2 = true)
    ⟨fun h => ⟨h.1, h.2⟩, fun h => ⟨h.makefile, h.script⟩⟩

theorem Progress.finish_failure_of_closes {progress : Progress} (h : progress.Closes)
    (failure : Option Failure) : (progress.finish failure).failure = failure := by
  simp [finish, closingFailure, h.makefile, h.script]

/-- A run that does not fail has closed both files. -/
theorem Progress.closes_of_finish {progress : Progress} {failure : Option Failure}
    (h : (progress.finish failure).failure = none) : failure = none ∧ progress.Closes := by
  simp only [finish, closingFailure, Option.or_eq_none_iff, ite_eq_left_iff, reduceCtorEq,
    imp_false, Bool.not_eq_true, Bool.not_eq_false] at h
  exact ⟨h.1.1, h.1.2, h.2⟩

namespace Toolbox

/-- What a run begins with: the toolbox directory is there and both files are open. -/
def start? (toolbox : Toolbox) (disk : Disk) : Option Progress :=
  let verbose := toolbox.interface.verbose
  let made := disk.makeDirectories toolbox.directory
  if made.2 then
    (made.1.openFile? toolbox.scriptPath).bind fun (scriptDisk, script) =>
      (scriptDisk.openFile? toolbox.makefilePath).map fun (openDisk, makefile) =>
        { disk := openDisk, script := script, makefile := makefile
          report := reportLine verbose ("Generating: " ++ toolbox.scriptPath.text) ++
            reportLine verbose ("Generating: " ++ toolbox.makefilePath.text) }
  else none

variable {toolbox : Toolbox} {disk : Disk} {start : Progress}

theorem start?_eq_some_iff : toolbox.start? disk = some start ↔
    (disk.makeDirectories toolbox.directory).2 = true ∧
      ∃ scriptDisk script, (disk.makeDirectories toolbox.directory).1.openFile?
          toolbox.scriptPath = some (scriptDisk, script) ∧
        ∃ openDisk makefile,
          scriptDisk.openFile? toolbox.makefilePath = some (openDisk, makefile) ∧
          { disk := openDisk, script := script, makefile := makefile
            report :=
              reportLine toolbox.interface.verbose ("Generating: " ++ toolbox.scriptPath.text) ++
              reportLine toolbox.interface.verbose ("Generating: " ++ toolbox.makefilePath.text) } =
            start := by
  simp only [start?, Option.ite_none_right_eq_some, Option.bind_eq_some_iff,
    Option.map_eq_some_iff, Prod.exists]

theorem opened_of_start? (h : toolbox.start? disk = some start) : start.Opened toolbox := by
  obtain ⟨-, _, _, scriptOpened, _, _, makefileOpened, rfl⟩ := start?_eq_some_iff.mp h
  exact ⟨(Disk.openFile?_eq_some scriptOpened).1, (Disk.openFile?_eq_some makefileOpened).1⟩

/-- Nothing was appended to the open files so far. -/
theorem fills_of_start? (h : toolbox.start? disk = some start) (which : Aggregate) :
    (start.file which).Fills start.disk "" := by
  obtain ⟨-, _, _, scriptOpened, _, _, makefileOpened, rfl⟩ := start?_eq_some_iff.mp h
  cases which with
  | makefile => exact Disk.fills_of_openFile? makefileOpened
  | script =>
      refine (Disk.fills_of_openFile? scriptOpened).of_find?_eq
        (Disk.find?_openFile? makefileOpened ?_)
      rw [(Disk.openFile?_eq_some scriptOpened).1.placed]
      exact scriptPath_location_ne toolbox

/-- The steps of the plan are taken between opening the two files and closing them. -/
theorem generate_of_start? (h : toolbox.start? disk = some start) :
    toolbox.generate disk =
      (Step.takeAll toolbox.interface.verbose start toolbox.plan).1.finish
        (Step.takeAll toolbox.interface.verbose start toolbox.plan).2 := by
  obtain ⟨made, scriptDisk, script, scriptOpened, openDisk, makefile, makefileOpened, rfl⟩ :=
    start?_eq_some_iff.mp h
  simp only [generate, generateInside, made, if_true, scriptOpened, makefileOpened]

/-- A run that does not begin cannot open one of its paths. -/
theorem generate_of_start?_eq_none (h : toolbox.start? disk = none) :
    ∃ path, (toolbox.generate disk).failure = some (.cannotOpen path) := by
  by_cases made : (disk.makeDirectories toolbox.directory).2 = true
  · simp only [start?, made, if_true] at h
    simp only [generate, made, if_true, generateInside]
    cases scriptOpened : (disk.makeDirectories toolbox.directory).1.openFile? toolbox.scriptPath with
    | none => exact ⟨_, rfl⟩
    | some result =>
        obtain ⟨scriptDisk, script⟩ := result
        cases makefileOpened : scriptDisk.openFile? toolbox.makefilePath with
        | none => exact ⟨toolbox.makefilePath, by simp only [makefileOpened]⟩
        | some result => simp [scriptOpened, makefileOpened] at h
  · exact ⟨toolbox.directory, by simp only [generate, if_neg made]⟩

/-- Whether every operation works that a run comes to: the directories, the files that are opened,
written and closed. -/
def OperationsSucceed (toolbox : Toolbox) (disk : Disk) : Prop :=
  match toolbox.start? disk with
  | none => False
  | some start => Step.AllWork toolbox.interface.verbose start toolbox.plan ∧
      (Step.takeAll toolbox.interface.verbose start toolbox.plan).1.Closes

instance (toolbox : Toolbox) (disk : Disk) : Decidable (toolbox.OperationsSucceed disk) :=
  match begun : toolbox.start? disk with
  | none => isFalse (by simp [OperationsSucceed, begun])
  | some start =>
      decidable_of_iff (Step.AllWork toolbox.interface.verbose start toolbox.plan ∧
        (Step.takeAll toolbox.interface.verbose start toolbox.plan).1.Closes)
        (by rw [OperationsSucceed, begun])

theorem OperationsSucceed.exists_start? (h : toolbox.OperationsSucceed disk) :
    ∃ start, toolbox.start? disk = some start ∧
      Step.AllWork toolbox.interface.verbose start toolbox.plan ∧
      (Step.takeAll toolbox.interface.verbose start toolbox.plan).1.Closes := by
  unfold OperationsSucceed at h
  cases begun : toolbox.start? disk with
  | none => rw [begun] at h; exact h.elim
  | some start =>
      rw [begun] at h
      exact ⟨start, rfl, h⟩

/-- If every operation works, the failure of a run is the first stop of its plan. -/
theorem OperationsSucceed.failure (h : toolbox.OperationsSucceed disk) :
    (toolbox.generate disk).failure = toolbox.plan.findSome? Step.failure? := by
  obtain ⟨start, begun, works, closes⟩ := h.exists_start?
  rw [generate_of_start? begun, Progress.finish_failure_of_closes closes,
    Step.takeAll_of_allWork works]

/-- A run that does not fail has taken all steps and has closed both files. -/
theorem exists_start?_of_failure_eq_none (h : (toolbox.generate disk).failure = none) :
    ∃ start reached, toolbox.start? disk = some start ∧
      Step.takeAll toolbox.interface.verbose start toolbox.plan = (reached, none) ∧
      reached.Closes := by
  cases begun : toolbox.start? disk with
  | none =>
      obtain ⟨path, failed⟩ := generate_of_start?_eq_none begun
      rw [failed] at h
      cases h
  | some start =>
      rw [generate_of_start? begun] at h
      rcases taken : Step.takeAll toolbox.interface.verbose start toolbox.plan with ⟨reached, failure⟩
      rw [taken] at h
      obtain ⟨rfl, closes⟩ := Progress.closes_of_finish h
      exact ⟨start, reached, rfl, taken, closes⟩

end Toolbox

end MexGlue
