import MexGlue.Proofs.OfText.Image
import MexGlue.Proofs.Toolbox.Building

/-!
# What a run leaves

A run opens the make script and the Makefile before it takes its steps, and closes them on every way
out. As long as no step writes another file in its place, each of the two holds in the end all that was
appended to it, beside what the steps made and wrote, and nothing else is changed. A run that does not
fail leaves the whole toolbox, and one that a missing dependency stops leaves the classes in front of
the one that has it, and of that one its directory and its proxy.
-/

namespace MexGlue

/-! ## All that changes -/

namespace Toolbox

variable {toolbox : Toolbox} {disk : Disk} {start reached : Progress} {steps : List Step}
  {layout : Layout}

/-- Whether no file of a layout has the place of one of the two open files. -/
def ArtifactsApart (toolbox : Toolbox) (layout : Layout) : Prop :=
  ∀ artifact ∈ layout.artifacts,
    toolbox.directory.location ++ artifact.place ≠ toolbox.scriptPath.location ∧
    toolbox.directory.location ++ artifact.place ≠ toolbox.makefilePath.location

theorem WritesApart.artifactsApart (h : toolbox.WritesApart)
    (builds : Step.Builds toolbox.directory steps layout)
    (part : ∀ step ∈ steps, step ∈ toolbox.plan) : toolbox.ArtifactsApart layout := by
  intro artifact member
  have written := List.mem_map_of_mem (f := Artifact.write toolbox.directory) member
  rw [← builds.writes] at written
  obtain ⟨step, inSteps, inWrites⟩ := List.mem_flatMap.mp written
  exact h step (part step inSteps) _ inWrites

theorem ArtifactsApart.notMem_openPlaces (h : toolbox.ArtifactsApart layout) {artifact : Artifact}
    (member : artifact ∈ layout.artifacts) :
    toolbox.directory.location ++ artifact.place ∉ toolbox.openPlaces := by
  simpa [openPlaces] using h artifact member

theorem ArtifactsApart.aggregate_apart (h : toolbox.ArtifactsApart layout)
    (builds : Step.Builds toolbox.directory steps layout) (which : Aggregate) :
    ∀ step ∈ steps, ∀ write ∈ step.writes, write.1 ≠ (toolbox.aggregatePath which).location := by
  intro step member write inWrites same
  have written := List.mem_flatMap.mpr ⟨step, member, inWrites⟩
  rw [builds.writes] at written
  obtain ⟨artifact, inArtifacts, rfl⟩ := List.mem_map.mp written
  have inSight := h.notMem_openPlaces inArtifacts
  rw [← Artifact.write_fst, same] at inSight
  exact inSight (toolbox.aggregatePath_mem_openPlaces which)

/-- Making the toolbox directory and opening the two files changes nothing but these. -/
theorem changes_of_start? (begun : toolbox.start? disk = some start) :
    disk.Changes toolbox.openPlaces start.disk toolbox.directory.trail [] := by
  obtain ⟨made, _, _, scriptOpened, _, _, makefileOpened, rfl⟩ := start?_eq_some_iff.mp begun
  have opening :=
    (Disk.Changes.of_openFile? (toolbox.aggregatePath_mem_openPlaces .script) scriptOpened).trans
      (.of_openFile? (toolbox.aggregatePath_mem_openPlaces .makefile) makefileOpened)
  simpa using (Disk.Changes.of_makeDirectories toolbox.openPlaces made).trans opening

/-- Closing the two files changes nothing elsewhere. -/
theorem changes_of_finish (opened : reached.Opened toolbox) (failure : Option Failure) :
    reached.disk.Changes toolbox.openPlaces (reached.finish failure).disk [] [] := by
  have closing (which : Aggregate) (disk : Disk) :
      disk.Changes toolbox.openPlaces ((reached.file which).close disk).1 [] [] := by
    refine .of_close ?_
    rw [(opened.file which).placed]
    exact toolbox.aggregatePath_mem_openPlaces which
  exact (closing .makefile reached.disk).trans (closing .script _)

/-- A run makes the toolbox directory and does what its steps do, but for the places of the two open
files. -/
theorem changes_of_takeAll (begun : toolbox.start? disk = some start)
    (texts : ∀ step ∈ steps, step.WritesText)
    (taken : Step.takeAll toolbox.interface.verbose start steps = (reached, none))
    (failure : Option Failure) :
    disk.Changes toolbox.openPlaces (reached.finish failure).disk
      (toolbox.directory.trail ++ steps.flatMap Step.directories) (steps.flatMap Step.writes) := by
  have opened := opened_of_start? begun
  have whole := ((changes_of_start? begun).trans (Step.takeAll_changes texts opened taken)).trans
    (changes_of_finish (Step.takeAll_opened opened taken) failure)
  simpa only [List.append_nil, List.nil_append] using whole

variable {content : ByteArray} {offset : Nat} {held : String}

/-- Once both are closed, an aggregate file has what was appended to it since it was last written by
others, over what they wrote. -/
theorem find?_finish (which : Aggregate) (opened : reached.Opened toolbox)
    (continues : (reached.file which).Continues reached.disk content offset held)
    (room : (reached.file which).sink ≠ .device) (failure : Option Failure) :
    (reached.finish failure).disk.find? (toolbox.aggregatePath which).location =
      some (.file (overwrite content offset held.toUTF8)) := by
  have apart := opened.file_location_ne (by decide : Aggregate.script ≠ .makefile)
  rw [← (opened.file which).placed]
  cases which with
  | script =>
      have kept := continues.of_find?_eq (reached.makefile.find?_close reached.disk apart)
      exact kept.find?_close room
  | makefile =>
      exact (reached.script.find?_close _ apart.symm).trans (continues.find?_close room)

theorem room_of_closes (closes : reached.Closes) (which : Aggregate)
    (opened : reached.Opened toolbox)
    (continues : (reached.file which).Continues reached.disk content offset held)
    (nonempty : held ≠ "") : (reached.file which).sink ≠ .device := by
  have apart := opened.file_location_ne (by decide : Aggregate.script ≠ .makefile)
  cases which with
  | script =>
      have kept := continues.of_find?_eq (reached.makefile.find?_close reached.disk apart)
      exact kept.room nonempty closes.script
  | makefile => exact continues.room nonempty closes.makefile

/-- What steps append to an aggregate file is there once both are closed, if they write no other file
in its place. -/
theorem find?_finish_of_takeAll (which : Aggregate) (begun : toolbox.start? disk = some start)
    (taken : Step.takeAll toolbox.interface.verbose start steps = (reached, none))
    (apart : ∀ step ∈ steps, ∀ write ∈ step.writes,
      write.1 ≠ (toolbox.aggregatePath which).location)
    (nonempty : String.join (steps.map (Step.textFor which)) ≠ "") (closes : reached.Closes)
    (failure : Option Failure) :
    (reached.finish failure).disk.find? (toolbox.aggregatePath which).location =
      some (.file (String.join (steps.map (Step.textFor which))).toUTF8) := by
  have before := opened_of_start? begun
  have opened := Step.takeAll_opened before taken
  have fills := Step.takeAll_continues which before apart (fills_of_start? begun which) taken
  rw [String.empty_append] at fills
  have room := room_of_closes closes which opened fills nonempty
  rw [find?_finish which opened fills room failure, overwrite_empty]

/-- If another file is written in the place of an aggregate file, what was sent before is lost, and
what still waits goes where it would have gone, with all that is appended from then on. -/
theorem find?_finish_of_writeFile (which : Aggregate) {before after : List Step} {path : Path}
    {text : String} (begun : toolbox.start? disk = some start)
    (taken : Step.takeAll toolbox.interface.verbose start (before ++ .writeFile path text :: after) =
      (reached, none))
    (here : path.location = (toolbox.aggregatePath which).location) (written : text ≠ "")
    (apart : ∀ step ∈ after, ∀ write ∈ step.writes,
      write.1 ≠ (toolbox.aggregatePath which).location)
    (more : String.join (after.map (Step.textFor which)) ≠ "") (closes : reached.Closes)
    (failure : Option Failure) :
    ∃ middle offset, Step.takeAll toolbox.interface.verbose start before = (middle, none) ∧
      (∀ sent, (middle.file which).sink = .file sent → offset = sent) ∧
      (reached.finish failure).disk.find? (toolbox.aggregatePath which).location =
        some (.file (overwrite text.toUTF8 offset ((middle.file which).buffer.waiting ++
          String.join (after.map (Step.textFor which))).toUTF8)) := by
  have opened := Step.takeAll_opened (opened_of_start? begun) taken
  obtain ⟨middle, first, behind⟩ := Step.takeAll_append_eq_none.mp taken
  obtain ⟨next, writes, rest⟩ := Step.takeAll_cons_eq_none.mp behind
  have middleOpened := Step.takeAll_opened (opened_of_start? begun) first
  have nextOpened := Step.take_opened middleOpened writes
  obtain ⟨same, found⟩ : next.file which = middle.file which ∧
      next.disk.find? (middle.file which).location = some (.file text.toUTF8) := by
    simp only [Step.take] at writes
    split at writes
    · rename_i arrived
      cases writes
      have there := (Disk.writeFile_eq_true written (Prod.ext rfl arrived)).2 path.location
      rw [if_pos rfl] at there
      rw [(middleOpened.file which).placed, ← here]
      exact ⟨by cases which <;> rfl, there⟩
    · cases writes
  obtain ⟨offset, atOffset, continues⟩ := OpenFile.exists_continues found
  rw [← same] at continues
  have continued := Step.takeAll_continues which nextOpened apart continues rest
  have nonempty : (next.file which).buffer.waiting ++
      String.join (after.map (Step.textFor which)) ≠ "" := fun empty =>
    more (String.append_eq_empty_iff.mp empty).2
  have room := room_of_closes closes which opened continued nonempty
  refine ⟨middle, offset, first, atOffset, ?_⟩
  rw [find?_finish which opened continued room failure, same]

/-- Steps that build a layout leave it, if they are all taken and both files are closed. -/
theorem hasLeft_of_takeAll (begun : toolbox.start? disk = some start)
    (builds : Step.Builds toolbox.directory steps layout) (apart : toolbox.ArtifactsApart layout)
    (taken : Step.takeAll toolbox.interface.verbose start steps = (reached, none))
    (nonempty : layout.script ≠ "" ∧ layout.makefile ≠ "") (closes : reached.Closes)
    (failure : Option Failure) : toolbox.HasLeft layout disk (reached.finish failure).disk := by
  have changes := changes_of_takeAll begun builds.texts taken failure
  rw [builds.directories, builds.writes] at changes
  have aggregate (which : Aggregate) := find?_finish_of_takeAll which begun taken
    (apart.aggregate_apart builds which)
  have script := aggregate .script
  have makefile := aggregate .makefile
  simp only [Step.textFor, builds.script, builds.makefile] at script makefile
  refine ⟨fun location member => changes.made location (List.mem_append_left _ member),
    fun name member => ?_, script nonempty.1 closes failure, makefile nonempty.2 closes failure,
    fun earlier artifact later split last => ?_,
    fun location notTrail notDirectory notScript notMakefile notArtifact => ?_⟩
  · refine changes.made _ (List.mem_append_right _ (List.mem_flatMap.mpr ⟨name, member, ?_⟩))
    exact List.mem_append_right _ (List.mem_singleton_self _)
  · -- What was written last to the place of a file is there: the two open files are elsewhere.
    refine changes.written (earlier.map (Artifact.write toolbox.directory)) _ _
      (later.map (Artifact.write toolbox.directory)) (apart.notMem_openPlaces (by simp [split]))
      (by simp [split, Artifact.write]) (List.forall_mem_map.mpr fun other inLater same => ?_)
    exact last other inLater (List.append_cancel_left same)
  · refine changes.elsewhere location ?_ ?_ (List.forall_mem_map.mpr fun artifact member => ?_)
    · simp [openPlaces, notScript, notMakefile]
    · simp only [List.mem_append, List.mem_flatMap, List.mem_singleton, not_or, not_exists, not_and]
      exact ⟨notTrail, fun name member => ⟨notTrail, notDirectory name member⟩⟩
    · exact (notArtifact artifact member).symm

/-! ## Whole runs -/

/-- If no step of a plan stops, every class passes its check. -/
theorem verify_of_goOn_plan (h : toolbox.interface.WellFormed)
    (goesOn : Step.GoOn toolbox.plan) {cls : Class} (member : cls ∈ toolbox.interface.classes) :
    cls.verify toolbox.interface.knownTypes = .ok () := by
  have own : Step.GoOn (toolbox.classSteps cls) := fun step inSteps =>
    goesOn step (List.mem_append_left _ (List.mem_append_right _
      (List.mem_flatMap.mpr ⟨cls, member, inSteps⟩)))
  rw [← Failure.ofCheck_eq_none_iff, ← findSome?_classSteps (h cls member).namesConstructorTypes]
  exact own.findSome?

/-- A run that does not fail leaves exactly the toolbox of its interface, whatever was on the disk
before. -/
theorem generate_leaves_layout {name text : String} {verbose : Bool}
    (read : Interface.ofText name verbose text = .ok toolbox.interface)
    (apart : toolbox.WritesApart) (completes : (toolbox.generate disk).failure = none) :
    ∃ layout, toolbox.layout? = some layout ∧
      toolbox.HasLeft layout disk (toolbox.generate disk).disk := by
  have wellFormed := Interface.wellFormed_of_ofText read
  obtain ⟨start, reached, begun, taken, closes⟩ := exists_start?_of_failure_eq_none completes
  obtain ⟨layout, found, builds⟩ := makes_plan wellFormed fun cls member =>
    verify_of_goOn_plan wellFormed (Step.goOn_of_takeAll taken) member
  refine ⟨layout, found, ?_⟩
  rw [generate_of_start? begun, taken]
  exact hasLeft_of_takeAll begun builds (apart.artifactsApart builds fun _ member => member) taken
    (nonempty_of_concat? found) closes none

/-- A Makefile that is there before is replaced. -/
theorem generate_leaves_layout_replacing : ∃ (toolbox : Toolbox) (disk : Disk),
    Interface.ofText "m" false "class A { A(); };" = .ok toolbox.interface ∧
    disk.find? toolbox.makefilePath.location = some (.file "old".toUTF8) ∧
    toolbox.WritesApart ∧ (toolbox.generate disk).failure = none ∧
    ∃ layout, toolbox.layout? = some layout ∧
      toolbox.HasLeft layout disk (toolbox.generate disk).disk := by
  refine ⟨{
    directory := .ofText "out"
    interface := { name := "m", classes := [{ name := "A", constructors := [⟨"A", []⟩] }] } },
    ⟨[(["out"], .directory), (["out", "Makefile"], .file "old".toUTF8)]⟩, ?_⟩
  refine ⟨?read, ?old, ?apart, ?completes, generate_leaves_layout ?read ?apart ?completes⟩
  all_goals decide +kernel

/-- A run stops at the first class that does not pass its check, and reports its first missing
dependency. It leaves exactly the toolbox up to the proxy of that class: the make script and the
Makefile hold the sections of the classes in front of it and do not end. What was appended to the two
files arrives when they are closed, so both are. -/
theorem generate_leaves_layoutUntil {name text : String} {verbose : Bool} {number : Nat}
    {cls : Class} {use : TypeUse}
    (read : Interface.ofText name verbose text = .ok toolbox.interface)
    (atNumber : toolbox.interface.classes[number]? = some cls)
    (earlier : ∀ other ∈ toolbox.interface.classes.take number,
      other.verify toolbox.interface.knownTypes = .ok ())
    (fails : cls.verify toolbox.interface.knownTypes = .error use)
    (apart : toolbox.WritesApart) (succeed : toolbox.OperationsSucceed disk) :
    (toolbox.generate disk).failure = some (.missingDependency use) ∧
      ∃ layout, toolbox.layoutUntil? number cls = some layout ∧
        toolbox.HasLeft layout disk (toolbox.generate disk).disk := by
  have wellFormed := Interface.wellFormed_of_ofText read
  have member := List.mem_of_getElem? atNumber
  obtain ⟨rest, split⟩ := exists_plan_eq atNumber fails
  obtain ⟨start, begun, works, closes⟩ := succeed.exists_start?
  rw [split] at works closes
  obtain ⟨reached, taken, stopped⟩ :=
    Step.takeAll_of_stop works (goOn_stepsUntil wellFormed member earlier)
  rw [stopped] at closes
  have outcome : toolbox.generate disk = reached.finish (some (.missingDependency use)) := by
    rw [generate_of_start? begun, split, stopped]
  obtain ⟨layout, found, builds⟩ := makes_stepsUntil wellFormed member earlier
  rw [outcome]
  refine ⟨Progress.finish_failure_of_closes closes _, layout, found, ?_⟩
  refine hasLeft_of_takeAll begun builds (apart.artifactsApart builds fun step inSteps => ?_) taken
    (nonempty_of_concat? found) closes _
  rw [split]
  exact List.mem_append_left _ inSteps

/-- The second class returns what is not declared, and the first one is finished. -/
theorem generate_leaves_layoutUntil_second :
    ∃ (toolbox : Toolbox) (disk : Disk) (cls : Class),
    Interface.ofText "m" false "class A { A(); }; class B { C* f(); };" = .ok toolbox.interface ∧
    toolbox.interface.classes[1]? = some cls ∧
    (∀ other ∈ toolbox.interface.classes.take 1,
      other.verify toolbox.interface.knownTypes = .ok ()) ∧
    cls.verify toolbox.interface.knownTypes = .error ⟨"C", "f"⟩ ∧
    toolbox.WritesApart ∧ toolbox.OperationsSucceed disk ∧
    (toolbox.generate disk).failure = some (.missingDependency ⟨"C", "f"⟩) ∧
    ∃ layout, toolbox.layoutUntil? 1 cls = some layout ∧
      toolbox.HasLeft layout disk (toolbox.generate disk).disk := by
  refine ⟨{
    directory := .ofText "out"
    interface := {
      name := "m"
      classes := [
        { name := "A", constructors := [⟨"A", []⟩] },
        { name := "B"
          methods := [{
            name := "f", returnValue := { first := ⟨"C", some .classType, true, []⟩ } }] }] } },
    {}, _, ?read, rfl, ?earlier, ?fails, ?apart, ?succeed,
    generate_leaves_layoutUntil ?read rfl ?earlier ?fails ?apart ?succeed⟩
  all_goals decide +kernel

end Toolbox

end MexGlue
