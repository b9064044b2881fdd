import MexGlue.Proofs.Toolbox.Completed

/-!
# The open files of a run

The two files that a run may have open are the make script and the Makefile, from the operation that
opens each to the one that closes it. Steps and checks stand between the openings and the closings, so
they find both files open, and whatever a run comes to, none of them is left open behind it.
-/

namespace MexGlue

/-- Whether the files that are open were opened as the make script and the Makefile. -/
structure RunState.OpensOwn (toolbox : Toolbox) (state : RunState) : Prop where
  script : ∀ file ∈ state.script, file.IsAt toolbox.scriptPath
  makefile : ∀ file ∈ state.makefile, file.IsAt toolbox.makefilePath

/-- Whether both files are open. -/
structure RunState.BothOpen (state : RunState) : Prop where
  script : state.script.isSome = true
  makefile : state.makefile.isSome = true

/-- The file that is open as the make script or as the Makefile. -/
def RunState.file? (state : RunState) : Aggregate → Option OpenFile
  | .script => state.script
  | .makefile => state.makefile

/-- What an operation appends to an open file. -/
def Operation.textFor (which : Aggregate) : Operation → String
  | .step planned => planned.textFor which
  | _ => ""

namespace Toolbox

variable {toolbox : Toolbox} {disk : Disk} {state : RunState} {op : Operation}
  {ops : List Operation}

/-! ## What an operation keeps -/

/-- A step keeps the open files what they are, whether it works or not. -/
theorem opensOwn_take {verbose : Bool} {progress : Progress} (step : Step)
    (h : progress.runState.OpensOwn toolbox) :
    (step.take verbose progress).1.runState.OpensOwn toolbox := by
  cases step with
  | makeDirectory path => exact ⟨h.script, h.makefile⟩
  | writeFile path text =>
      simp only [Step.take]
      split <;> exact ⟨h.script, h.makefile⟩
  | appendToScript text =>
      simp only [Step.take]
      split
      · rename_i disk script appended
        refine ⟨fun file member => ?_, h.makefile⟩
        cases member
        exact (h.script _ rfl).append? appended
      · exact h
  | appendToMakefile text =>
      simp only [Step.take]
      split
      · rename_i disk makefile appended
        refine ⟨h.script, fun file member => ?_⟩
        cases member
        exact (h.makefile _ rfl).append? appended
      · exact h
  | stop failure => exact h

theorem opensOwn_perform (op : Operation) (h : state.OpensOwn toolbox) :
    (toolbox.perform state op).1.OpensOwn toolbox := by
  cases op with
  | createToolbox => exact ⟨h.script, h.makefile⟩
  | openScript =>
      simp only [perform]
      split
      · exact ⟨h.script, h.makefile⟩
      · rename_i opened
        refine ⟨fun file member => ?_, h.makefile⟩
        cases member
        exact (Disk.openFile?_eq_some opened).1
  | openMakefile =>
      simp only [perform]
      split
      · exact ⟨h.script, h.makefile⟩
      · rename_i opened
        refine ⟨h.script, fun file member => ?_⟩
        cases member
        exact (Disk.openFile?_eq_some opened).1
  | step step =>
      simp only [perform]
      split
      · rename_i script makefile atScript atMakefile
        refine opensOwn_take step ⟨?_, ?_⟩
        · exact fun file member => h.script file (atScript.trans member)
        · exact fun file member => h.makefile file (atMakefile.trans member)
      · exact h
  | check cls => exact h
  | closeMakefile =>
      simp only [perform]
      split
      · exact h
      · exact ⟨h.script, by simp⟩
  | closeScript =>
      simp only [perform]
      split
      · exact h
      · exact ⟨by simp, h.makefile⟩

theorem opensOwn_performAll (ops : List Operation) (h : state.OpensOwn toolbox) :
    (toolbox.performAll state ops).1.OpensOwn toolbox :=
  performAll_keeps (fun _ op _ => opensOwn_perform op) h

theorem opensOwn_initial (toolbox : Toolbox) (disk : Disk) :
    (RunState.initial disk).OpensOwn toolbox := ⟨by simp [RunState.initial], by simp [RunState.initial]⟩

/-! ## Where both files are open -/

theorem step_or_check_of_mem (member : op ∈ toolbox.openOperations) :
    (∃ step, op = .step step) ∨ ∃ cls, op = .check cls := by
  simp only [openOperations, classOperations, List.mem_append, List.mem_flatMap, List.mem_cons,
    List.mem_map] at member
  rcases member with (⟨step, -, rfl⟩ | ⟨cls, -, ⟨step, -, rfl⟩ | rfl | ⟨step, -, rfl⟩⟩) |
    ⟨step, -, rfl⟩
  · exact .inl ⟨step, rfl⟩
  · exact .inl ⟨step, rfl⟩
  · exact .inr ⟨cls, rfl⟩
  · exact .inl ⟨step, rfl⟩
  · exact .inl ⟨step, rfl⟩

theorem bothOpen_perform (isOpen : state.BothOpen) (member : op ∈ toolbox.openOperations) :
    (toolbox.perform state op).1.BothOpen := by
  rcases step_or_check_of_mem member with ⟨step, rfl⟩ | ⟨cls, rfl⟩
  · obtain ⟨script, atScript⟩ := Option.isSome_iff_exists.mp isOpen.script
    obtain ⟨makefile, atMakefile⟩ := Option.isSome_iff_exists.mp isOpen.makefile
    simp only [perform, atScript, atMakefile]
    exact ⟨rfl, rfl⟩
  · exact isOpen

theorem bothOpen_performAll (isOpen : state.BothOpen)
    (members : ∀ op ∈ ops, op ∈ toolbox.openOperations) :
    (toolbox.performAll state ops).1.BothOpen :=
  performAll_keeps (fun _ op member => (bothOpen_perform · (members op member))) isOpen

theorem bothOpen_of_opening
    (h : toolbox.performAll (.initial disk) openingOperations = (state, none)) :
    state.BothOpen := by
  cases begun : toolbox.start? disk with
  | none =>
      obtain ⟨_, _, performed, -⟩ := performAll_openingOperations_of_none begun
      rw [performed] at h
      cases h
  | some start =>
      rw [performAll_openingOperations begun] at h
      cases h
      exact ⟨rfl, rfl⟩

section Split

variable {α : Type} {first second before later : List α} {x : α}

theorem exists_split_behind (split : first ++ second = before ++ x :: later) (absent : x ∉ first) :
    ∃ middle, before = first ++ middle ∧ second = middle ++ x :: later := by
  rcases List.append_eq_append_iff.mp split with found | ⟨back, inFront, atBack⟩
  · exact found
  · cases back with
    | nil => exact ⟨[], by simpa using inFront.symm, atBack.symm⟩
    | cons y back =>
        cases atBack
        exact absurd (by simp [inFront]) absent

theorem exists_split_inFront (split : first ++ second = before ++ x :: later)
    (absent : x ∉ second) : ∃ rest, first = before ++ x :: rest := by
  rcases List.append_eq_append_iff.mp split with ⟨middle, -, behind⟩ | ⟨back, inFront, atBack⟩
  · exact absurd (by simp [behind]) absent
  · cases back with
    | nil =>
        rw [List.nil_append] at atBack
        exact absurd (by simp [← atBack]) absent
    | cons y back =>
        cases atBack
        exact ⟨back, inFront⟩

end Split

/-- A step of the sequence stands behind the openings and in front of the closings. -/
theorem exists_split_open {step : Step} {before later : List Operation}
    (split : toolbox.operations = before ++ .step step :: later) :
    ∃ middle rest, before = openingOperations ++ middle ∧
      toolbox.openOperations = middle ++ .step step :: rest := by
  rw [operations, List.append_assoc] at split
  obtain ⟨middle, atFront, behind⟩ := exists_split_behind split (by simp [openingOperations])
  obtain ⟨rest, inside⟩ := exists_split_inFront behind (by simp)
  exact ⟨middle, rest, atFront, inside⟩

theorem bothOpen_of_step {step : Step} {before later : List Operation}
    (split : toolbox.operations = before ++ .step step :: later)
    (ran : toolbox.performAll (.initial disk) before = (state, none)) : state.BothOpen := by
  obtain ⟨middle, rest, rfl, inside⟩ := exists_split_open split
  rw [performAll_append] at ran
  rcases opened : toolbox.performAll (.initial disk) openingOperations with ⟨start, _ | failure⟩
  · rw [opened] at ran
    have members : ∀ op ∈ middle, op ∈ toolbox.openOperations := by
      intro op member
      rw [inside]
      exact List.mem_append_left _ member
    have isOpen := bothOpen_performAll (bothOpen_of_opening opened) members
    simp only at ran
    rwa [ran] at isOpen
  · rw [opened] at ran
    cases ran

/-! ## Closing -/

theorem exit_closed (toolbox : Toolbox) (state : RunState) :
    (toolbox.exit state).script = none ∧ (toolbox.exit state).makefile = none := by
  obtain ⟨disk, script, makefile, report⟩ := state
  cases makefile <;> cases script <;> exact ⟨rfl, rfl⟩

/-! ## What the open files are filled with -/

section Fills

variable {which : Aggregate} {file : OpenFile} {held : String}

variable (own : state.OpensOwn toolbox)
  (fills : ∀ file ∈ state.file? which, file.Fills state.disk held)

include own

theorem isAt_of_mem_file? (isOpen : file ∈ state.file? which) :
    file.IsAt (toolbox.aggregatePath which) := by
  cases which with
  | script => exact own.script file isOpen
  | makefile => exact own.makefile file isOpen

include fills

/-- What is done in the place of one of the files leaves the other one filled. -/
theorem fills_elsewhere {other : Aggregate} (different : which ≠ other) {after : Disk}
    (same : ∀ location, location ≠ (toolbox.aggregatePath other).location →
      after.find? location = state.disk.find? location) :
    ∀ file ∈ state.file? which, file.Fills after held := fun file isOpen =>
  (fills file isOpen).of_find?_eq (same _ (by
    rw [(isAt_of_mem_file? own isOpen).placed]
    exact toolbox.aggregatePath_location_ne different))

theorem close_fills {other : Aggregate} (different : which ≠ other) {closing : OpenFile}
    (isOpen : closing ∈ state.file? other) :
    ∀ file ∈ state.file? which, file.Fills (closing.close state.disk).1 held := by
  refine fills_elsewhere own fills different fun location apart => closing.find?_close state.disk ?_
  rwa [(isAt_of_mem_file? own isOpen).placed]

theorem step_fills (planned : Step) (isOpen : state.BothOpen)
    (apart : ∀ write ∈ planned.writes, write.1 ≠ (toolbox.aggregatePath which).location) :
    ∀ file ∈ (toolbox.perform state (.step planned)).1.file? which,
      file.Fills (toolbox.perform state (.step planned)).1.disk
        (held ++ match (toolbox.perform state (.step planned)).2 with
          | none => planned.textFor which
          | some _ => "") := by
  obtain ⟨script, atScript⟩ := Option.isSome_iff_exists.mp isOpen.script
  obtain ⟨makefile, atMakefile⟩ := Option.isSome_iff_exists.mp isOpen.makefile
  have opened : (Progress.mk state.disk script makefile state.report).Opened toolbox :=
    ⟨own.script script atScript, own.makefile makefile atMakefile⟩
  have taken := @Step.take_continues toolbox.interface.verbose _ toolbox held .empty 0 which planned
    opened apart
  simp only [perform, atScript, atMakefile]
  intro file isThis
  cases which with
  | script =>
      cases isThis
      exact taken (fills script atScript)
  | makefile =>
      cases isThis
      exact taken (fills makefile atMakefile)

/-- Both files are filled with what was appended to them, whether the operation works or not. A file
that is opened was not appended to before, and steps find both files open. -/
theorem perform_fills (op : Operation) (fresh : op = .openScript ∨ op = .openMakefile → held = "")
    (stepsOpen : ∀ step, op = .step step → state.BothOpen)
    (apart : ∀ write ∈ op.writes, write.1 ≠ (toolbox.aggregatePath which).location) :
    ∀ file ∈ (toolbox.perform state op).1.file? which,
      file.Fills (toolbox.perform state op).1.disk
        (held ++ match (toolbox.perform state op).2 with
          | none => op.textFor which
          | some _ => "") := by
  have noText (quiet : op.textFor which = "") (failure : Option Failure) :
      (match failure with
        | none => op.textFor which
        | some _ => "") = "" := by
    cases failure <;> simp [quiet]
  cases op with
  | step planned => exact step_fills own fills planned (stepsOpen planned rfl) apart
  | createToolbox =>
      rw [noText rfl, String.append_empty]
      have made (file : OpenFile) (isOpen : file ∈ state.file? which) :
          file.Fills (state.disk.makeDirectories toolbox.directory).1 held :=
        (fills file isOpen).of_kept fun _ => Disk.find?_makeDirectories_of_some
      cases which <;> exact made
  | openScript =>
      rw [noText rfl, String.append_empty]
      simp only [perform]
      cases opened : state.disk.openFile? toolbox.scriptPath with
      | none => cases which <;> exact fills
      | some result =>
          cases which with
          | script =>
              rw [fresh (.inl rfl)]
              rintro _ ⟨⟩
              exact Disk.fills_of_openFile? opened
          | makefile =>
              exact fills_elsewhere own fills (by decide : Aggregate.makefile ≠ .script)
                fun _ => Disk.find?_openFile? opened
  | openMakefile =>
      rw [noText rfl, String.append_empty]
      simp only [perform]
      cases opened : state.disk.openFile? toolbox.makefilePath with
      | none => cases which <;> exact fills
      | some result =>
          cases which with
          | script =>
              exact fills_elsewhere own fills (by decide : Aggregate.script ≠ .makefile)
                fun _ => Disk.find?_openFile? opened
          | makefile =>
              rw [fresh (.inr rfl)]
              rintro _ ⟨⟩
              exact Disk.fills_of_openFile? opened
  | check cls =>
      rw [noText rfl, String.append_empty]
      exact fills
  | closeMakefile =>
      rw [noText rfl, String.append_empty]
      simp only [perform]
      cases atMakefile : state.makefile with
      | none => exact fills
      | some makefile =>
          cases which with
          | script => exact close_fills own fills (by decide : _ ≠ Aggregate.makefile) atMakefile
          | makefile => rintro _ ⟨⟩
  | closeScript =>
      rw [noText rfl, String.append_empty]
      simp only [perform]
      cases atScript : state.script with
      | none => exact fills
      | some script =>
          cases which with
          | script => rintro _ ⟨⟩
          | makefile => exact close_fills own fills (by decide : _ ≠ Aggregate.script) atScript

/-- Closing leaves each of the files that has room with what was appended to it. -/
theorem find?_exit (isOpen : file ∈ state.file? which) (room : file.sink ≠ .device) :
    (toolbox.exit state).disk.find? (toolbox.aggregatePath which).location =
      some (.file held.toUTF8) := by
  have placed := (isAt_of_mem_file? own isOpen).placed
  have filled := fills file isOpen
  obtain ⟨disk, script, makefile, report⟩ := state
  cases which with
  | script =>
      cases isOpen
      rw [← placed]
      cases makefile with
      | none => exact filled.find?_close room
      | some makefile =>
          have kept := close_fills own fills (by decide : _ ≠ Aggregate.makefile) rfl file rfl
          exact kept.find?_close room
  | makefile =>
      cases isOpen
      cases script with
      | none => exact placed ▸ filled.find?_close room
      | some script =>
          have apart : file.location ≠ script.location := by
            rw [placed, (own.script script rfl).placed]
            exact (scriptPath_location_ne toolbox).symm
          rw [← placed]
          exact (script.find?_close _ apart).trans (filled.find?_close room)

omit own fills

/-- Nothing was appended where a file is opened. -/
theorem join_textFor_of_opening {before later : List Operation}
    (split : toolbox.operations = before ++ op :: later)
    (opens : op = .openScript ∨ op = .openMakefile) (which : Aggregate) :
    String.join (before.map (Operation.textFor which)) = "" := by
  have behind : op ∉ toolbox.openOperations ++ [.closeMakefile, .closeScript] := by
    intro member
    rcases List.mem_append.mp member with inside | closing
    · rcases step_or_check_of_mem inside with ⟨step, rfl⟩ | ⟨cls, rfl⟩ <;> simp at opens
    · rcases opens with rfl | rfl <;> simp at closing
  rw [operations, List.append_assoc] at split
  obtain ⟨rest, openings⟩ := exists_split_inFront split behind
  have quiet : ∀ op ∈ openingOperations, op.textFor which = "" := by
    simp [openingOperations, Operation.textFor]
  exact join_map_eq_empty fun op member => quiet op (by rw [openings]; simp [member])

/-- Both files are filled with what the operations performed have appended to them. -/
theorem performAll_fills {before later : List Operation}
    (split : toolbox.operations = before ++ later)
    (ran : toolbox.performAll (.initial disk) before = (state, none))
    (apart : ∀ op ∈ before, ∀ write ∈ op.writes,
      write.1 ≠ (toolbox.aggregatePath which).location) :
    ∀ file ∈ state.file? which,
      file.Fills state.disk (String.join (before.map (Operation.textFor which))) := by
  induction before using List.reverseRecOn generalizing state later with
  | nil =>
      cases ran
      cases which <;> simp [RunState.file?, RunState.initial]
  | append_singleton front op ih =>
      rw [List.append_assoc, List.singleton_append] at split
      rw [performAll_append] at ran
      obtain ⟨inFront, here⟩ := List.forall_mem_append.mp apart
      rcases went : toolbox.performAll (.initial disk) front with ⟨middle, _ | failure⟩
      · rw [went] at ran
        have own := opensOwn_performAll front (opensOwn_initial toolbox disk)
        rw [went] at own
        have next := perform_fills own (ih split went inFront) op
          (fun opens => join_textFor_of_opening split opens which)
          (fun step same => bothOpen_of_step (same ▸ split) went)
          (here op (List.mem_singleton_self op))
        simp only [performAll] at ran
        rcases performed : toolbox.perform middle op with ⟨reached, _ | failure⟩
        · rw [performed] at ran next
          cases ran
          simpa [String.join_append] using next
        · rw [performed] at ran
          cases ran
      · rw [went] at ran
        cases ran

end Fills

end Toolbox

end MexGlue
