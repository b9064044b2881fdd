import MexGlue.Proofs.Storage.Following
import MexGlue.Proofs.Toolbox.Sequence

/-!
# Making a toolbox again

A run adds to what stands on a disk and takes nothing away, whether it completes or not. So a second
run on the disk that the first one left works and fails as the first did, operation by operation, and
its open files and its report are the same all the time. It ends with the same failure, the same
report and the same disk.
-/

namespace MexGlue

namespace RunState

/-- The places of the files that are open. -/
def places (state : RunState) : List Location :=
  (state.script.toList ++ state.makefile.toList).map OpenFile.location

/-- Whether a run that started on the final disk follows another one that ends there. -/
structure Follows (again first : RunState) (final : Disk) : Prop where
  disk : again.disk.Follows first.places first.disk final
  script : again.script = first.script
  makefile : again.makefile = first.makefile
  report : again.report = first.report

variable {state : RunState} {file : OpenFile}

theorem location_mem_places_of_script (isOpen : state.script = some file) :
    file.location ∈ state.places := by
  simp [places, isOpen]

theorem location_mem_places_of_makefile (isOpen : state.makefile = some file) :
    file.location ∈ state.places := by
  simp [places, isOpen]

end RunState

/-- Whether a run with this result ends on the final disk. Behind a failure nothing else comes to
stand. -/
structure LeadsTo (result : RunState × Option Failure) (final : Disk) : Prop where
  grows : result.1.disk.Grows final
  ended : result.2 ≠ none → result.1.disk.SameKinds final

namespace Step

/-- A step takes nothing away, whether it works or not. -/
theorem grows_take {verbose : Bool} {progress : Progress} (step : Step) :
    progress.disk.Grows (step.take verbose progress).1.disk := by
  cases step with
  | makeDirectory path => exact Disk.grows_makeDirectories progress.disk path
  | writeFile path text =>
      have grows := Disk.grows_writeFile progress.disk path text
      simp only [take]
      split <;> exact grows
  | appendToScript text =>
      simp only [take]
      split
      · rename_i appended
        exact (OpenFile.sameKinds_append? appended).symm.grows
      · exact .refl _
  | appendToMakefile text =>
      simp only [take]
      split
      · rename_i appended
        exact (OpenFile.sameKinds_append? appended).symm.grows
      · exact .refl _
  | stop failure => exact .refl _

end Step

namespace Toolbox

variable {toolbox : Toolbox} {state again first : RunState} {op : Operation}
  {ops : List Operation} {final disk : Disk}

/-! ## What operations add -/

/-- Closing a file that may be open changes nothing but what it holds. -/
theorem sameKinds_perform_close (toolbox : Toolbox) (state : RunState)
    (closes : op = .closeMakefile ∨ op = .closeScript) :
    (toolbox.perform state op).1.disk.SameKinds state.disk := by
  rcases closes with rfl | rfl
  · simp only [perform]
    split
    · exact fun _ => rfl
    · exact OpenFile.sameKinds_close _ _
  · simp only [perform]
    split
    · exact fun _ => rfl
    · exact OpenFile.sameKinds_close _ _

theorem grows_perform (toolbox : Toolbox) (state : RunState) (op : Operation) :
    state.disk.Grows (toolbox.perform state op).1.disk := by
  cases op with
  | createToolbox => exact Disk.grows_makeDirectories state.disk toolbox.directory
  | openScript =>
      simp only [perform]
      split
      · exact .refl _
      · rename_i opening
        exact Disk.grows_openFile? opening
  | openMakefile =>
      simp only [perform]
      split
      · exact .refl _
      · rename_i opening
        exact Disk.grows_openFile? opening
  | step step =>
      simp only [perform]
      split
      · rename_i script makefile _ _
        exact @Step.grows_take toolbox.interface.verbose
          ⟨state.disk, script, makefile, state.report⟩ step
      · exact .refl _
  | check cls => exact .refl _
  | closeMakefile => exact (sameKinds_perform_close toolbox state (.inl rfl)).symm.grows
  | closeScript => exact (sameKinds_perform_close toolbox state (.inr rfl)).symm.grows

theorem grows_performAll (toolbox : Toolbox) (state : RunState) (ops : List Operation) :
    state.disk.Grows (toolbox.performAll state ops).1.disk :=
  @performAll_keeps toolbox state (fun reached => state.disk.Grows reached.disk) ops
    (fun reached op _ before => before.trans (grows_perform toolbox reached op)) (.refl _)

/-! ## Operations of a second run -/

/-- A step of the second run does what it did in the first. -/
theorem take_follows {verbose : Bool} {progress : Progress} (step : Step)
    (follows : disk.Follows progress.runState.places progress.disk final)
    (leads : LeadsTo ((step.take verbose progress).1.runState, (step.take verbose progress).2)
      final) :
    (step.take verbose { progress with disk := disk }).2 = (step.take verbose progress).2 ∧
      (step.take verbose { progress with disk := disk }).1.runState.Follows
        (step.take verbose progress).1.runState final := by
  obtain ⟨grows, ended⟩ := leads
  cases step with
  | makeDirectory path =>
      have again := Disk.makeDirectories_again (grows.trans follows.sameKinds.symm.grows)
        fun failed => (ended (by simp [Step.take, failed])).trans follows.sameKinds.symm
      simp only [Step.take, again]
      exact ⟨trivial, follows.makeDirectories grows, rfl, rfl, rfl⟩
  | writeFile path text =>
      have write := @Disk.Follows.writeFile path _ disk progress.disk final follows text
      rcases written : progress.disk.writeFile path text with ⟨after, _ | _⟩
      · simp only [Step.take, written] at grows ended write ⊢
        obtain ⟨fails, afterwards⟩ := write grows fun _ => ended (by simp)
        simp only [fails]
        exact ⟨rfl, afterwards, rfl, rfl, rfl⟩
      · simp only [Step.take, written] at grows write ⊢
        obtain ⟨works, afterwards⟩ := write grows fun failed => Bool.noConfusion failed
        simp only [works]
        exact ⟨rfl, afterwards, rfl, rfl, rfl⟩
  | appendToScript text =>
      rcases follows.append? (RunState.location_mem_places_of_script rfl) text with
        ⟨fails, failsAgain⟩ | ⟨after, reached, next, appends, appendsAgain, filled⟩
      · simp only [Step.take, fails, failsAgain]
        exact ⟨trivial, follows, rfl, rfl, rfl⟩
      · simp only [Step.take, appends, appendsAgain]
        refine ⟨trivial, ?_, rfl, rfl, rfl⟩
        simpa [RunState.places, Progress.runState, (OpenFile.append?_keeps appends).2] using filled
  | appendToMakefile text =>
      rcases follows.append? (RunState.location_mem_places_of_makefile rfl) text with
        ⟨fails, failsAgain⟩ | ⟨after, reached, next, appends, appendsAgain, filled⟩
      · simp only [Step.take, fails, failsAgain]
        exact ⟨trivial, follows, rfl, rfl, rfl⟩
      · simp only [Step.take, appends, appendsAgain]
        refine ⟨trivial, ?_, rfl, rfl, rfl⟩
        simpa [RunState.places, Progress.runState, (OpenFile.append?_keeps appends).2] using filled
  | stop failure => exact ⟨rfl, follows, rfl, rfl, rfl⟩

theorem close_follows (follows : again.Follows first final)
    (closes : op = .closeMakefile ∨ op = .closeScript) :
    (toolbox.perform again op).2 = (toolbox.perform first op).2 ∧
      (toolbox.perform again op).1.Follows (toolbox.perform first op).1 final := by
  obtain ⟨onDisk, script, makefile, report⟩ := follows
  rcases closes with rfl | rfl
  · simp only [perform, makefile]
    cases isOpen : first.makefile with
    | none => exact ⟨rfl, onDisk, script, makefile, report⟩
    | some file =>
        obtain ⟨arrives, closed⟩ :=
          onDisk.close (RunState.location_mem_places_of_makefile isOpen)
        refine ⟨congrArg (closingFailure file) arrives, closed.mono fun place member => ?_, script, rfl, report⟩
        simp only [RunState.places, Option.toList_none, List.append_nil] at member
        simp [RunState.places, member]
  · simp only [perform, script]
    cases isOpen : first.script with
    | none => exact ⟨rfl, onDisk, script, makefile, report⟩
    | some file =>
        obtain ⟨arrives, closed⟩ := onDisk.close (RunState.location_mem_places_of_script isOpen)
        refine ⟨congrArg (closingFailure file) arrives, closed.mono fun place member => ?_, rfl, makefile, report⟩
        simp only [RunState.places, Option.toList_none, List.nil_append] at member
        simp [RunState.places, member]

/-- An operation of the second run does what it did in the first. -/
theorem perform_follows (follows : again.Follows first final)
    (leads : LeadsTo (toolbox.perform first op) final) :
    (toolbox.perform again op).2 = (toolbox.perform first op).2 ∧
      (toolbox.perform again op).1.Follows (toolbox.perform first op).1 final := by
  obtain ⟨grows, ended⟩ := leads
  obtain ⟨onDisk, script, makefile, report⟩ := follows
  have same := onDisk.sameKinds
  cases op with
  | createToolbox =>
      have made := Disk.makeDirectories_again (grows.trans same.symm.grows)
        fun failed => (ended (by simp [perform, failed])).trans same.symm
      simp only [perform, made]
      exact ⟨trivial, onDisk.makeDirectories grows, script, makefile, report⟩
  | openScript =>
      rcases onDisk.openFile?_alike toolbox.scriptPath
        (fun opened file opens => by simpa [perform, opens] using grows)
        (fun fails => by simpa [perform, fails] using ended) with
        ⟨fails, failsAgain⟩ | ⟨opened, reopened, file, opens, reopens, afterwards⟩
      · simp only [perform, fails, failsAgain, report]
        exact ⟨trivial, onDisk, script, makefile, rfl⟩
      · simp only [perform, opens, reopens, report]
        rw [← (Disk.openFile?_eq_some opens).1.placed] at afterwards
        refine ⟨trivial, afterwards.mono fun place member => ?_, rfl, makefile, rfl⟩
        simp only [RunState.places, Option.toList_some, List.singleton_append, List.map_cons,
          List.mem_cons] at member
        refine List.mem_cons.mpr (member.imp_right fun inMakefile => ?_)
        rw [RunState.places, List.map_append]
        exact List.mem_append_right _ inMakefile
  | openMakefile =>
      rcases onDisk.openFile?_alike toolbox.makefilePath
        (fun opened file opens => by simpa [perform, opens] using grows)
        (fun fails => by simpa [perform, fails] using ended) with
        ⟨fails, failsAgain⟩ | ⟨opened, reopened, file, opens, reopens, afterwards⟩
      · simp only [perform, fails, failsAgain, report]
        exact ⟨trivial, onDisk, script, makefile, rfl⟩
      · simp only [perform, opens, reopens, report]
        rw [← (Disk.openFile?_eq_some opens).1.placed] at afterwards
        refine ⟨trivial, afterwards.mono fun place member => ?_, script, rfl, rfl⟩
        simp only [RunState.places, Option.toList_some, List.map_append, List.mem_append,
          List.map_cons, List.map_nil, List.mem_singleton] at member
        refine List.mem_cons.mpr (member.symm.imp_right fun inScript => ?_)
        rw [RunState.places, List.map_append]
        exact List.mem_append_left _ inScript
  | step step =>
      simp only [perform, script, makefile, report] at grows ended ⊢
      split
      · rename_i scriptFile makefileFile atScript atMakefile
        simp only [atScript, atMakefile] at grows ended
        refine take_follows step ?_ ⟨grows, ended⟩
        simpa [RunState.places, Progress.runState, atScript, atMakefile] using onDisk
      · exact ⟨rfl, onDisk, script, makefile, report⟩
  | check cls => exact ⟨rfl, onDisk, script, makefile, report⟩
  | closeMakefile => exact close_follows ⟨onDisk, script, makefile, report⟩ (.inl rfl)
  | closeScript => exact close_follows ⟨onDisk, script, makefile, report⟩ (.inr rfl)

/-- A second run does what the first one did as long as the first one goes on. -/
theorem performAll_follows (follows : again.Follows first final)
    (leads : LeadsTo (toolbox.performAll first ops) final) :
    (toolbox.performAll again ops).2 = (toolbox.performAll first ops).2 ∧
      (toolbox.performAll again ops).1.Follows (toolbox.performAll first ops).1 final := by
  induction ops generalizing again first with
  | nil => exact ⟨rfl, follows⟩
  | cons op ops ih =>
      rw [performAll] at leads
      rw [performAll, performAll]
      have does (leads : LeadsTo (toolbox.perform first op) final) := perform_follows follows leads
      rcases performed : toolbox.perform first op with ⟨reached, _ | failure⟩
      · rw [performed] at leads does
        have later := (grows_performAll toolbox reached ops).trans leads.grows
        obtain ⟨goesOn, next⟩ := does ⟨later, fun failed => absurd rfl failed⟩
        rcases repeated : toolbox.perform again op with ⟨reached', _ | failure⟩
        · rw [repeated] at next
          exact ih next leads
        · rw [repeated] at goesOn
          cases goesOn
      · rw [performed] at leads does
        obtain ⟨ends, next⟩ := does leads
        rcases repeated : toolbox.perform again op with ⟨reached', _ | failure'⟩
        · rw [repeated] at ends
          cases ends
        · rw [repeated] at ends next
          exact ⟨ends, next⟩

/-! ## Whole runs -/

theorem sameKinds_exit (toolbox : Toolbox) (state : RunState) :
    (toolbox.exit state).disk.SameKinds state.disk :=
  (sameKinds_perform_close toolbox _ (.inr rfl)).trans
    (sameKinds_perform_close toolbox state (.inl rfl))

variable (toolbox) in
theorem exit_follows (follows : again.Follows first final) :
    (toolbox.exit again).Follows (toolbox.exit first) final :=
  (close_follows (close_follows follows (.inl rfl)).2 (.inr rfl)).2

/-- Making a toolbox a second time ends as the first time, with the same failure or none, and with the
same report, and leaves the disk as it is. -/
theorem generate_again (toolbox : Toolbox) (disk : Disk) :
    toolbox.generate (toolbox.generate disk).disk = toolbox.generate disk := by
  let first := toolbox.performAll (.initial disk) toolbox.operations
  let final := (toolbox.exit first.1).disk
  have grows : disk.Grows first.1.disk :=
    grows_performAll toolbox (.initial disk) toolbox.operations
  have closed : first.1.disk.SameKinds final := (sameKinds_exit toolbox first.1).symm
  have follows : (RunState.initial final).Follows (.initial disk) final :=
    ⟨.refl (grows.trans closed.grows), rfl, rfl, rfl⟩
  obtain ⟨ends, reached⟩ := performAll_follows follows ⟨closed.grows, fun _ => closed⟩
  have left := exit_follows toolbox reached
  rw [generate_eq_operations toolbox disk]
  show toolbox.generate final = _
  rw [generate_eq_operations toolbox final, ends]
  simp only [RunState.outcome, left.disk.eq, left.report]

end Toolbox

end MexGlue
