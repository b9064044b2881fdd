import MexGlue.Proofs.Storage.Changes
import MexGlue.Proofs.Toolbox.Aggregates

/-!
# What steps do

A step makes sure of directories, writes a whole file, appends to one of the two open files, or
stops the run. Steps that are all taken change the disk by what each of them makes and writes, in
their order, but for the places of the open files. An open file is continued with the texts appended
to it, in their order, as long as no step writes another file in its place.
-/

namespace MexGlue

theorem join_map_eq_empty {α : Type} {items : List α} {text : α → String}
    (h : ∀ item ∈ items, text item = "") : String.join (items.map text) = "" := by
  induction items with
  | nil => rfl
  | cons item items ih =>
      obtain ⟨first, later⟩ := List.forall_mem_cons.mp h
      rw [List.map_cons, String.join_cons, first, ih later, String.empty_append]

namespace Step

/-- The places of the directories that are there after the step. -/
def directories : Step → List Location
  | .makeDirectory path => path.trail
  | _ => []

/-- The file that is written as a whole, by its place. -/
def writes : Step → List (Location × String)
  | .writeFile path text => [(path.location, text)]
  | _ => []

def scriptText : Step → String
  | .appendToScript text => text
  | _ => ""

def makefileText : Step → String
  | .appendToMakefile text => text
  | _ => ""

/-- Why the step stops the run, if that is what it is for. -/
def failure? : Step → Option Failure
  | .stop failure => some failure
  | _ => none

/-- Whether a file that is written as a whole gets some text. -/
def WritesText : Step → Prop
  | .writeFile _ text => text ≠ ""
  | _ => True

end Step

namespace Step

/-- What the step appends to an open file. -/
def textFor : Aggregate → Step → String
  | .script => scriptText
  | .makefile => makefileText

end Step

namespace Progress

def file (progress : Progress) : Aggregate → OpenFile
  | .script => progress.script
  | .makefile => progress.makefile

/-- Whether the two open files are those of the toolbox. -/
structure Opened (progress : Progress) (toolbox : Toolbox) : Prop where
  script : progress.script.IsAt toolbox.scriptPath
  makefile : progress.makefile.IsAt toolbox.makefilePath

theorem Opened.file {progress : Progress} {toolbox : Toolbox} (h : progress.Opened toolbox)
    (which : Aggregate) : (progress.file which).IsAt (toolbox.aggregatePath which) :=
  match which with
  | .script => h.script
  | .makefile => h.makefile

theorem Opened.file_location_ne {progress : Progress} {toolbox : Toolbox}
    (h : progress.Opened toolbox) {which other : Aggregate} (different : which ≠ other) :
    (progress.file which).location ≠ (progress.file other).location := by
  rw [(h.file which).placed, (h.file other).placed]
  exact toolbox.aggregatePath_location_ne different

end Progress

namespace Step

variable {verbose : Bool} {progress reached : Progress} {step : Step} {steps : List Step}
  {toolbox : Toolbox} {held : String} {content : ByteArray} {offset : Nat}

/-! ## One step -/

theorem take_appendToScript {text : String}
    (h : (Step.appendToScript text).take verbose progress = (reached, none)) :
    ∃ disk script, progress.script.append? text progress.disk = some (disk, script) ∧
      reached = { progress with disk := disk, script := script } := by
  simp only [take] at h
  cases appended : progress.script.append? text progress.disk with
  | none => rw [appended] at h; cases h
  | some result =>
      rw [appended] at h
      cases h
      exact ⟨_, _, rfl, rfl⟩

theorem take_appendToMakefile {text : String}
    (h : (Step.appendToMakefile text).take verbose progress = (reached, none)) :
    ∃ disk makefile, progress.makefile.append? text progress.disk = some (disk, makefile) ∧
      reached = { progress with disk := disk, makefile := makefile } := by
  simp only [take] at h
  cases appended : progress.makefile.append? text progress.disk with
  | none => rw [appended] at h; cases h
  | some result =>
      rw [appended] at h
      cases h
      exact ⟨_, _, rfl, rfl⟩

/-- All that a step can do if it does not end the run. -/
theorem take_eq_none (h : step.take verbose progress = (reached, none)) :
    (∃ path, step = .makeDirectory path ∧ (progress.disk.makeDirectories path).2 = true ∧
      reached = { progress with disk := (progress.disk.makeDirectories path).1 }) ∨
    (∃ path text, step = .writeFile path text ∧
      (progress.disk.writeFile path text).2 = true ∧
      reached = { progress with
        disk := (progress.disk.writeFile path text).1
        report := progress.report ++ reportLine verbose ("Generated: " ++ path.text) }) ∨
    (∃ text disk script, step = .appendToScript text ∧
      progress.script.append? text progress.disk = some (disk, script) ∧
      reached = { progress with disk := disk, script := script }) ∨
    (∃ text disk makefile, step = .appendToMakefile text ∧
      progress.makefile.append? text progress.disk = some (disk, makefile) ∧
      reached = { progress with disk := disk, makefile := makefile }) := by
  cases step with
  | makeDirectory path =>
      simp only [take] at h
      by_cases made : (progress.disk.makeDirectories path).2 = true
      · rw [if_pos made] at h
        cases h
        exact .inl ⟨path, rfl, made, rfl⟩
      · rw [if_neg made] at h
        cases h
  | writeFile path text =>
      simp only [take] at h
      by_cases written : (progress.disk.writeFile path text).2 = true
      · rw [if_pos written] at h
        cases h
        exact .inr (.inl ⟨path, text, rfl, written, rfl⟩)
      · rw [if_neg written] at h
        cases h
  | appendToScript text =>
      obtain ⟨disk, script, appended, rfl⟩ := take_appendToScript h
      exact .inr (.inr (.inl ⟨text, disk, script, rfl, appended, rfl⟩))
  | appendToMakefile text =>
      obtain ⟨disk, makefile, appended, rfl⟩ := take_appendToMakefile h
      exact .inr (.inr (.inr ⟨text, disk, makefile, rfl, appended, rfl⟩))
  | stop failure => cases h

theorem take_opened (before : progress.Opened toolbox)
    (h : step.take verbose progress = (reached, none)) : reached.Opened toolbox := by
  rcases take_eq_none h with ⟨path, -, -, rfl⟩ | ⟨path, text, -, -, rfl⟩ |
    ⟨text, disk, script, -, appended, rfl⟩ | ⟨text, disk, makefile, -, appended, rfl⟩
  · exact ⟨before.script, before.makefile⟩
  · exact ⟨before.script, before.makefile⟩
  · exact ⟨before.script.append? appended, before.makefile⟩
  · exact ⟨before.script, before.makefile.append? appended⟩

/-- A step changes the disk by what it makes and writes, but for the places of the two open files. -/
theorem take_changes (text : step.WritesText) (before : progress.Opened toolbox)
    (h : step.take verbose progress = (reached, none)) :
    progress.disk.Changes toolbox.openPlaces reached.disk step.directories step.writes := by
  rcases take_eq_none h with ⟨path, rfl, made, rfl⟩ | ⟨path, content, rfl, written, rfl⟩ |
    ⟨content, disk, script, rfl, appended, rfl⟩ | ⟨content, disk, makefile, rfl, appended, rfl⟩
  · exact .of_makeDirectories _ made
  · exact .of_writeFile _ text (Prod.ext rfl written)
  · refine .of_append? ?_ appended
    rw [before.script.placed]
    exact List.mem_cons_self
  · refine .of_append? ?_ appended
    rw [before.makefile.placed]
    exact List.mem_cons_of_mem _ List.mem_cons_self

/-- What is appended to an open file continues it, whether the step works or not. -/
theorem take_continues (which : Aggregate) (step : Step) (before : progress.Opened toolbox)
    (apart : ∀ write ∈ step.writes, write.1 ≠ (toolbox.aggregatePath which).location)
    (continues : (progress.file which).Continues progress.disk content offset held) :
    ((step.take verbose progress).1.file which).Continues (step.take verbose progress).1.disk
      content offset (held ++ match (step.take verbose progress).2 with
        | none => step.textFor which
        | some _ => "") := by
  have noText (quiet : step.textFor which = "") (failure : Option Failure) :
      (match failure with
        | none => step.textFor which
        | some _ => "") = "" := by
    cases failure <;> simp [quiet]
  cases step with
  | makeDirectory path =>
      rw [noText (by cases which <;> rfl), String.append_empty]
      have made := continues.of_kept fun node found =>
        @Disk.find?_makeDirectories_of_some progress.disk path _ node found
      cases which <;> exact made
  | writeFile path text =>
      rw [noText (by cases which <;> rfl), String.append_empty]
      have elsewhere : (progress.file which).location ≠ path.location := by
        rw [(before.file which).placed]
        exact (apart _ (List.mem_singleton_self _)).symm
      have written := continues.of_find?_eq (Disk.find?_writeFile progress.disk path text elsewhere)
      simp only [take]
      cases which <;> split <;> exact written
  | appendToScript text =>
      simp only [take]
      cases appended : progress.script.append? text progress.disk with
      | none => simpa using continues
      | some result =>
          obtain ⟨disk, script⟩ := result
          cases which with
          | script => exact OpenFile.Continues.append? continues appended
          | makefile =>
              simp only [textFor, makefileText, String.append_empty]
              exact continues.of_find?_eq (OpenFile.find?_append? appended
                (before.file_location_ne (by decide : Aggregate.makefile ≠ .script)))
  | appendToMakefile text =>
      simp only [take]
      cases appended : progress.makefile.append? text progress.disk with
      | none => simpa using continues
      | some result =>
          obtain ⟨disk, makefile⟩ := result
          cases which with
          | makefile => exact OpenFile.Continues.append? continues appended
          | script =>
              simp only [textFor, scriptText, String.append_empty]
              exact continues.of_find?_eq (OpenFile.find?_append? appended
                (before.file_location_ne (by decide : Aggregate.script ≠ .makefile)))
  | stop failure => simpa [take] using continues

/-- What waits in an open file is told by what is appended to it. -/
theorem take_buffer (which : Aggregate) (h : step.take verbose progress = (reached, none)) :
    (reached.file which).buffer = ((progress.file which).buffer.append (step.textFor which)).1 ∨
      (step.textFor which = "" ∧ (reached.file which).buffer = (progress.file which).buffer) := by
  rcases take_eq_none h with ⟨path, rfl, -, rfl⟩ | ⟨path, text, rfl, -, rfl⟩ |
    ⟨text, disk, script, rfl, appended, rfl⟩ | ⟨text, disk, makefile, rfl, appended, rfl⟩
  · cases which <;> exact .inr ⟨rfl, rfl⟩
  · cases which <;> exact .inr ⟨rfl, rfl⟩
  · cases which with
    | script => exact .inl (OpenFile.send?_keeps appended).2.2
    | makefile => exact .inr ⟨rfl, rfl⟩
  · cases which with
    | script => exact .inr ⟨rfl, rfl⟩
    | makefile => exact .inl (OpenFile.send?_keeps appended).2.2

/-! ## All steps -/

theorem takeAll_cons_eq_none :
    takeAll verbose progress (step :: steps) = (reached, none) ↔
      ∃ next, step.take verbose progress = (next, none) ∧
        takeAll verbose next steps = (reached, none) := by
  rw [takeAll]
  rcases step.take verbose progress with ⟨next, _ | failure⟩
  · simp
  · simp

theorem takeAll_append (first second : List Step) :
    takeAll verbose progress (first ++ second) =
      match takeAll verbose progress first with
      | (reached, none) => takeAll verbose reached second
      | (reached, some failure) => (reached, some failure) := by
  induction first generalizing progress with
  | nil => rfl
  | cons step first ih =>
      rw [List.cons_append, takeAll, takeAll]
      rcases step.take verbose progress with ⟨next, _ | failure⟩
      · exact ih
      · rfl

theorem takeAll_opened (before : progress.Opened toolbox)
    (h : takeAll verbose progress steps = (reached, none)) : reached.Opened toolbox := by
  induction steps generalizing progress with
  | nil =>
      cases h
      exact before
  | cons step steps ih =>
      obtain ⟨next, taken, rest⟩ := takeAll_cons_eq_none.mp h
      exact ih (take_opened before taken) rest

theorem takeAll_append_eq_none {first second : List Step} :
    takeAll verbose progress (first ++ second) = (reached, none) ↔
      ∃ middle, takeAll verbose progress first = (middle, none) ∧
        takeAll verbose middle second = (reached, none) := by
  rw [takeAll_append]
  rcases takeAll verbose progress first with ⟨middle, _ | failure⟩
  · simp
  · simp

/-- Behind a text of the size of a chunk nothing waits as long as nothing else is appended. -/
theorem takeAll_buffer (which : Aggregate) {before after : List Step}
    (h : takeAll verbose progress (before ++ step :: after) = (reached, none))
    (large : Buffer.chunkSize ≤ (step.textFor which).utf8ByteSize)
    (quiet : ∀ later ∈ after, later.textFor which = "") : (reached.file which).buffer = {} := by
  obtain ⟨middle, -, both⟩ := takeAll_append_eq_none.mp h
  obtain ⟨next, taken, rest⟩ := takeAll_cons_eq_none.mp both
  have settled : (next.file which).buffer = {} := by
    rcases take_buffer which taken with waits | ⟨nothing, -⟩
    · rw [waits, Buffer.append_of_chunkSize_le _ large]
    · rw [nothing] at large
      exact absurd large (by decide)
  clear taken both h
  induction after generalizing next with
  | nil =>
      cases rest
      exact settled
  | cons later after ih =>
      obtain ⟨here, behind⟩ := List.forall_mem_cons.mp quiet
      obtain ⟨other, taken, rest⟩ := takeAll_cons_eq_none.mp rest
      refine ih behind other rest ?_
      rcases take_buffer which taken with waits | ⟨-, same⟩
      · rw [waits, here, settled]
        rfl
      · rw [same, settled]

/-- Steps that are all taken change the disk by all that they make and write. -/
theorem takeAll_changes (texts : ∀ step ∈ steps, step.WritesText)
    (before : progress.Opened toolbox) (h : takeAll verbose progress steps = (reached, none)) :
    progress.disk.Changes toolbox.openPlaces reached.disk (steps.flatMap directories)
      (steps.flatMap writes) := by
  induction steps generalizing progress with
  | nil =>
      cases h
      exact .refl _ _
  | cons step steps ih =>
      obtain ⟨next, taken, rest⟩ := takeAll_cons_eq_none.mp h
      obtain ⟨text, laterTexts⟩ := List.forall_mem_cons.mp texts
      exact (take_changes text before taken).trans (ih laterTexts (take_opened before taken) rest)

/-- An open file is continued with all that is appended to it. -/
theorem takeAll_continues (which : Aggregate) (before : progress.Opened toolbox)
    (apart : ∀ step ∈ steps, ∀ write ∈ step.writes,
      write.1 ≠ (toolbox.aggregatePath which).location)
    (continues : (progress.file which).Continues progress.disk content offset held)
    (h : takeAll verbose progress steps = (reached, none)) :
    (reached.file which).Continues reached.disk content offset
      (held ++ String.join (steps.map (textFor which))) := by
  induction steps generalizing progress held with
  | nil =>
      cases h
      simpa using continues
  | cons step steps ih =>
      obtain ⟨next, taken, rest⟩ := takeAll_cons_eq_none.mp h
      obtain ⟨here, later⟩ := List.forall_mem_cons.mp apart
      have continued := @take_continues verbose progress toolbox held content offset which step
        before here continues
      rw [taken] at continued
      simpa [String.append_assoc] using ih (take_opened before taken) later continued rest

end Step

end MexGlue
