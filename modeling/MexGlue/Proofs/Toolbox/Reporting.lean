import MexGlue.Proofs.Toolbox.Members
import MexGlue.Proofs.Toolbox.OpenFiles

/-!
# What a run reports

Whether a run reports does not change what it does: its states are the same but for the report. A run
that reports names the make script and the Makefile before it opens them, so one that cannot be opened
is named as well, and every other file behind its writing, so one that cannot be written is not named.
-/

namespace MexGlue

/-- A state without its report. -/
def RunState.unreported (state : RunState) : RunState := { state with report := [] }

/-- The open file that an operation tries to open. -/
def Operation.opens? (toolbox : Toolbox) : Operation → Option Path
  | .openScript => some toolbox.scriptPath
  | .openMakefile => some toolbox.makefilePath
  | _ => none

/-- The file that an operation writes as a whole. -/
def Operation.writesTo? : Operation → Option Path
  | .step (.writeFile path _) => some path
  | _ => none

def generatingLine (path : Path) : String := "Generating: " ++ path.text

def generatedLine (path : Path) : String := "Generated: " ++ path.text

namespace Toolbox

/-- The same toolbox, made with or without a report. -/
def reporting (verbose : Bool) (toolbox : Toolbox) : Toolbox :=
  { toolbox with interface := { toolbox.interface with verbose := verbose } }

/-- Which of the make script and the Makefile a run on this disk tries to open. -/
def openedFiles (toolbox : Toolbox) (disk : Disk) : List Path :=
  (toolbox.tried (.initial disk) toolbox.operations).filterMap (Operation.opens? toolbox)

/-- The files that a run on this disk writes as a whole, in the order of writing. -/
def completedFiles (toolbox : Toolbox) (disk : Disk) : List Path :=
  (toolbox.performed (.initial disk) toolbox.operations).filterMap Operation.writesTo?

def log (toolbox : Toolbox) (disk : Disk) : Report :=
  (toolbox.openedFiles disk).map generatingLine ++ (toolbox.completedFiles disk).map generatedLine

variable {toolbox : Toolbox} {disk : Disk} {state other : RunState} {op : Operation}
  {ops : List Operation} {verbose : Bool}

/-! ## Runs with and without a report -/

theorem take_reporting (progress : Progress) (step : Step) (verbose other : Bool)
    (report : Report) :
    (step.take verbose { progress with report := report }).2 = (step.take other progress).2 ∧
      (step.take verbose { progress with report := report }).1.runState.unreported =
        (step.take other progress).1.runState.unreported := by
  cases step with
  | makeDirectory path => exact ⟨rfl, rfl⟩
  | writeFile path text =>
      simp only [Step.take]
      split <;> exact ⟨rfl, rfl⟩
  | appendToScript text =>
      simp only [Step.take]
      split <;> exact ⟨rfl, rfl⟩
  | appendToMakefile text =>
      simp only [Step.take]
      split <;> exact ⟨rfl, rfl⟩
  | stop failure => exact ⟨rfl, rfl⟩

variable (toolbox verbose) in
/-- An operation does the same whether it reports or not, and whatever was reported. -/
theorem perform_reporting (h : state.unreported = other.unreported) (op : Operation) :
    ((toolbox.reporting verbose).perform state op).2 = (toolbox.perform other op).2 ∧
      ((toolbox.reporting verbose).perform state op).1.unreported =
        (toolbox.perform other op).1.unreported := by
  obtain ⟨disk, script, makefile, report⟩ := state
  obtain ⟨disk', script', makefile', report'⟩ := other
  simp only [RunState.unreported, RunState.mk.injEq, and_true] at h
  obtain ⟨rfl, rfl, rfl⟩ := h
  have scriptPath : (toolbox.reporting verbose).scriptPath = toolbox.scriptPath := rfl
  have makefilePath : (toolbox.reporting verbose).makefilePath = toolbox.makefilePath := rfl
  cases op with
  | createToolbox => exact ⟨rfl, rfl⟩
  | openScript =>
      simp only [perform, scriptPath]
      split <;> exact ⟨rfl, rfl⟩
  | openMakefile =>
      simp only [perform, makefilePath]
      split <;> exact ⟨rfl, rfl⟩
  | step step =>
      simp only [perform]
      split
      · rename_i scriptFile makefileFile
        exact take_reporting ⟨disk, scriptFile, makefileFile, report'⟩ step _ _ report
      · exact ⟨rfl, rfl⟩
  | check cls => exact ⟨rfl, rfl⟩
  | closeMakefile =>
      simp only [perform]
      split <;> exact ⟨rfl, rfl⟩
  | closeScript =>
      simp only [perform]
      split <;> exact ⟨rfl, rfl⟩

variable (toolbox verbose) in
theorem performAll_reporting (h : state.unreported = other.unreported) (ops : List Operation) :
    ((toolbox.reporting verbose).performAll state ops).2 = (toolbox.performAll other ops).2 ∧
      ((toolbox.reporting verbose).performAll state ops).1.unreported =
        (toolbox.performAll other ops).1.unreported := by
  induction ops generalizing state other with
  | nil => exact ⟨rfl, h⟩
  | cons op ops ih =>
      obtain ⟨ends, same⟩ := perform_reporting toolbox verbose h op
      rw [performAll, performAll]
      rcases performed : (toolbox.reporting verbose).perform state op with ⟨next, failure⟩
      rcases performed' : toolbox.perform other op with ⟨next', failure'⟩
      rw [performed, performed'] at ends same
      cases ends
      cases failure with
      | none => exact ih same
      | some failure => exact ⟨rfl, same⟩

/-- A run ends the same way whether it reports or not. -/
theorem generate_reporting (toolbox : Toolbox) (disk : Disk) (verbose : Bool) :
    ((toolbox.reporting verbose).generate disk).failure = (toolbox.generate disk).failure ∧
      ((toolbox.reporting verbose).generate disk).disk = (toolbox.generate disk).disk := by
  have start : (RunState.initial disk).unreported = (RunState.initial disk).unreported := rfl
  obtain ⟨ends, same⟩ := performAll_reporting toolbox verbose start toolbox.operations
  have closed := (perform_reporting toolbox verbose
    (perform_reporting toolbox verbose same .closeMakefile).2
    .closeScript).2
  rw [generate_eq_operations, generate_eq_operations]
  have sameDisk := congrArg RunState.disk closed
  exact ⟨ends, sameDisk⟩

variable (toolbox verbose) in
/-- The same operations are performed and tried whether they report or not. -/
theorem performed_reporting (h : state.unreported = other.unreported) (ops : List Operation) :
    (toolbox.reporting verbose).performed state ops = toolbox.performed other ops ∧
      (toolbox.reporting verbose).tried state ops = toolbox.tried other ops := by
  induction ops generalizing state other with
  | nil => exact ⟨rfl, rfl⟩
  | cons op ops ih =>
      obtain ⟨ends, same⟩ := perform_reporting toolbox verbose h op
      rw [performed, performed, tried, tried]
      rcases done : (toolbox.reporting verbose).perform state op with ⟨next, failure⟩
      rcases done' : toolbox.perform other op with ⟨next', failure'⟩
      rw [done, done'] at ends same
      cases ends
      cases failure with
      | none => exact ⟨congrArg (op :: ·) (ih same).1, congrArg (op :: ·) (ih same).2⟩
      | some failure => exact ⟨rfl, rfl⟩

theorem openedFiles_reporting (toolbox : Toolbox) (disk : Disk) (verbose : Bool) :
    (toolbox.reporting verbose).openedFiles disk = toolbox.openedFiles disk := by
  have start : (RunState.initial disk).unreported = (RunState.initial disk).unreported := rfl
  have same := (performed_reporting toolbox verbose start toolbox.operations).2
  exact congrArg (List.filterMap (Operation.opens? toolbox)) same

theorem completedFiles_reporting (toolbox : Toolbox) (disk : Disk) (verbose : Bool) :
    (toolbox.reporting verbose).completedFiles disk = toolbox.completedFiles disk := by
  have start : (RunState.initial disk).unreported = (RunState.initial disk).unreported := rfl
  have same := (performed_reporting toolbox verbose start toolbox.operations).1
  exact congrArg (List.filterMap Operation.writesTo?) same

/-! ## What a single operation reports -/

theorem report_perform_of_silent (silent : toolbox.interface.verbose = false) (state : RunState)
    (op : Operation) : (toolbox.perform state op).1.report = state.report := by
  have noLine (text : String) : reportLine toolbox.interface.verbose text = [] :=
    if_neg (by simp [silent])
  cases op with
  | createToolbox => rfl
  | openScript =>
      simp only [perform, noLine, List.append_nil]
      split <;> rfl
  | openMakefile =>
      simp only [perform, noLine, List.append_nil]
      split <;> rfl
  | step step =>
      simp only [perform]
      split
      · cases step with
        | makeDirectory path => rfl
        | writeFile path text =>
            simp only [Step.take, noLine, List.append_nil]
            split <;> rfl
        | appendToScript text =>
            simp only [Step.take]
            split <;> rfl
        | appendToMakefile text =>
            simp only [Step.take]
            split <;> rfl
        | stop failure => rfl
      · rfl
  | check cls => rfl
  | closeMakefile =>
      simp only [perform]
      split <;> rfl
  | closeScript =>
      simp only [perform]
      split <;> rfl

section Loud

variable (loud : toolbox.interface.verbose = true)
include loud

theorem reportLine_of_loud (text : String) :
    reportLine toolbox.interface.verbose text = [text] := if_pos loud

/-- What is opened is reported whether it can be opened or not. -/
theorem report_perform_of_no_step (noStep : ∀ step, op ≠ .step step) (state : RunState) :
    (toolbox.perform state op).1.report =
      state.report ++ (op.opens? toolbox).toList.map generatingLine := by
  cases op with
  | createToolbox => exact (List.append_nil _).symm
  | openScript =>
      simp only [perform, reportLine_of_loud loud]
      split <;> rfl
  | openMakefile =>
      simp only [perform, reportLine_of_loud loud]
      split <;> rfl
  | step step => exact absurd rfl (noStep step)
  | check cls => exact (List.append_nil _).symm
  | closeMakefile =>
      simp only [perform]
      split <;> exact (List.append_nil _).symm
  | closeScript =>
      simp only [perform]
      split <;> exact (List.append_nil _).symm

/-- What is written is reported only once it is written. -/
theorem report_take (progress : Progress) (step : Step) :
    (step.take toolbox.interface.verbose progress).1.report =
      progress.report ++
        match (step.take toolbox.interface.verbose progress).2 with
        | none => (Operation.writesTo? (.step step)).toList.map generatedLine
        | some _ => [] := by
  cases step with
  | makeDirectory path =>
      simp only [Step.take]
      split <;> exact (List.append_nil _).symm
  | writeFile path text =>
      simp only [Step.take, reportLine_of_loud loud]
      by_cases written : (progress.disk.writeFile path text).2 = true
      · simp only [if_pos written]
        rfl
      · simp only [if_neg written, List.append_nil]
  | appendToScript text =>
      simp only [Step.take]
      cases progress.script.append? text progress.disk <;> exact (List.append_nil _).symm
  | appendToMakefile text =>
      simp only [Step.take]
      cases progress.makefile.append? text progress.disk <;> exact (List.append_nil _).symm
  | stop failure => exact (List.append_nil _).symm

theorem report_perform_of_mem_openOperations (isOpen : state.BothOpen)
    (member : op ∈ toolbox.openOperations) :
    (toolbox.perform state op).1.report =
      state.report ++
        match (toolbox.perform state op).2 with
        | none => op.writesTo?.toList.map generatedLine
        | some _ => [] := by
  rcases step_or_check_of_mem member with ⟨step, rfl⟩ | ⟨cls, rfl⟩
  · obtain ⟨script, atScript⟩ := Option.isSome_iff_exists.mp isOpen.script
    obtain ⟨makefile, atMakefile⟩ := Option.isSome_iff_exists.mp isOpen.makefile
    simp only [perform, atScript, atMakefile]
    exact report_take loud _ step
  · simp only [perform]
    cases Failure.ofCheck (cls.verify toolbox.interface.knownTypes) <;>
      exact (List.append_nil _).symm

end Loud

/-! ## Sequences of operations -/

theorem tried_append (state : RunState) (first second : List Operation) :
    toolbox.tried state (first ++ second) =
      toolbox.tried state first ++
        match toolbox.performAll state first with
        | (reached, none) => toolbox.tried reached second
        | (_, some _) => [] := by
  induction first generalizing state with
  | nil => rfl
  | cons op first ih =>
      rw [List.cons_append, tried, tried, performAll]
      rcases toolbox.perform state op with ⟨next, _ | failure⟩
      · exact congrArg (op :: ·) (ih next)
      · rfl

theorem performed_append (state : RunState) (first second : List Operation) :
    toolbox.performed state (first ++ second) =
      toolbox.performed state first ++
        match toolbox.performAll state first with
        | (reached, none) => toolbox.performed reached second
        | (_, some _) => [] := by
  induction first generalizing state with
  | nil => rfl
  | cons op first ih =>
      rw [List.cons_append, performed, performed, performAll]
      rcases toolbox.perform state op with ⟨next, _ | failure⟩
      · exact congrArg (op :: ·) (ih next)
      · rfl

theorem performed_prefix (toolbox : Toolbox) (state : RunState) (ops : List Operation) :
    toolbox.performed state ops <+: ops := by
  induction ops generalizing state with
  | nil => exact List.prefix_refl []
  | cons op ops ih =>
      rw [performed]
      rcases toolbox.perform state op with ⟨next, _ | failure⟩
      · exact (List.prefix_cons_inj op).mpr (ih next)
      · exact List.nil_prefix

theorem filterMap_tried_eq_nil {α : Type} {f : Operation → Option α}
    (none : ∀ op ∈ ops, f op = none) : (toolbox.tried state ops).filterMap f = [] :=
  have reached := tried_prefix toolbox state ops
  List.filterMap_eq_nil_iff.mpr fun op member => none op (reached.subset member)

theorem filterMap_performed_eq_nil {α : Type} {f : Operation → Option α}
    (none : ∀ op ∈ ops, f op = none) : (toolbox.performed state ops).filterMap f = [] :=
  have reached := performed_prefix toolbox state ops
  List.filterMap_eq_nil_iff.mpr fun op member => none op (reached.subset member)

theorem opens?_behind_openings :
    ∀ op ∈ toolbox.openOperations ++ [.closeMakefile, .closeScript],
      op.opens? toolbox = none := by
  refine List.forall_mem_append.mpr ⟨fun op member => ?_, by simp [Operation.opens?]⟩
  rcases step_or_check_of_mem member with ⟨step, rfl⟩ | ⟨cls, rfl⟩ <;> rfl

/-! ## What a run reports -/

theorem report_exit (toolbox : Toolbox) (state : RunState) :
    (toolbox.exit state).report = state.report := by
  obtain ⟨disk, script, makefile, report⟩ := state
  cases makefile <;> cases script <;> rfl

theorem report_generate_of_silent (silent : toolbox.interface.verbose = false) (disk : Disk) :
    (toolbox.generate disk).report = [] := by
  rw [generate_eq_operations]
  exact (report_exit toolbox _).trans
    (@performAll_keeps toolbox (.initial disk) (fun state => state.report = []) _
      (fun state op _ held => (report_perform_of_silent silent state op).trans held) rfl)

section Loud

variable (loud : toolbox.interface.verbose = true)
include loud

theorem report_performAll_of_no_steps (ops : List Operation)
    (noSteps : ∀ op ∈ ops, ∀ step, op ≠ .step step) (state : RunState) :
    (toolbox.performAll state ops).1.report =
      state.report ++
        ((toolbox.tried state ops).filterMap (Operation.opens? toolbox)).map generatingLine := by
  induction ops generalizing state with
  | nil => exact (List.append_nil _).symm
  | cons op ops ih =>
      obtain ⟨noStep, later⟩ := List.forall_mem_cons.mp noSteps
      have first := report_perform_of_no_step loud noStep state
      rw [performAll, tried]
      rcases performed : toolbox.perform state op with ⟨next, _ | failure⟩
      · rw [performed] at first
        simp only
        rw [ih later next, first, List.append_assoc, ← List.map_append]
        simp only [List.filterMap_eq_flatMap_toList, List.flatMap_cons]
      · rw [performed] at first
        simp only
        rw [first]
        simp only [List.filterMap_eq_flatMap_toList, List.flatMap_cons, List.flatMap_nil,
          List.append_nil]

theorem report_performAll_of_open (isOpen : state.BothOpen)
    (members : ∀ op ∈ ops, op ∈ toolbox.openOperations) :
    (toolbox.performAll state ops).1.report =
      state.report ++
        ((toolbox.performed state ops).filterMap Operation.writesTo?).map generatedLine := by
  induction ops generalizing state with
  | nil => exact (List.append_nil _).symm
  | cons op ops ih =>
      obtain ⟨member, later⟩ := List.forall_mem_cons.mp members
      have first := report_perform_of_mem_openOperations loud isOpen member
      have stillOpen := bothOpen_perform isOpen member
      rw [performAll, performed]
      rcases done : toolbox.perform state op with ⟨next, _ | failure⟩
      · rw [done] at first stillOpen
        simp only at first ⊢
        rw [ih stillOpen later, first, List.append_assoc, ← List.map_append]
        simp only [List.filterMap_eq_flatMap_toList, List.flatMap_cons]
      · rw [done] at first
        exact first

/-- Nothing is opened behind the openings, and what is written is written there. -/
theorem report_performAll_behind_openings (isOpen : state.BothOpen) :
    (toolbox.performAll state
        (toolbox.openOperations ++ [.closeMakefile, .closeScript])).1.report =
      state.report ++
        ((toolbox.performed state
            (toolbox.openOperations ++ [.closeMakefile, .closeScript])).filterMap
          Operation.writesTo?).map generatedLine := by
  have inside := report_performAll_of_open loud isOpen fun op => id
  rw [performAll_append, performed_append, List.filterMap_append]
  rcases went : toolbox.performAll state toolbox.openOperations with ⟨reached, _ | failure⟩
  · rw [went] at inside
    have closing :=
      report_performAll_of_no_steps loud [.closeMakefile, .closeScript] (by simp) reached
    have unwritten : (toolbox.performed reached [.closeMakefile, .closeScript]).filterMap
        Operation.writesTo? = [] := filterMap_performed_eq_nil (by simp [Operation.writesTo?])
    rw [filterMap_tried_eq_nil (by simp [Operation.opens?])] at closing
    simp only at inside ⊢
    rw [closing, inside, unwritten]
    simp only [List.map_nil, List.append_nil]
  · rw [went] at inside
    simpa only [List.filterMap_nil, List.append_nil] using inside

theorem report_performAll_operations (disk : Disk) :
    (toolbox.performAll (.initial disk) toolbox.operations).1.report = toolbox.log disk := by
  have opening :=
    report_performAll_of_no_steps loud openingOperations (by simp [openingOperations]) (.initial disk)
  have unwritten : (toolbox.performed (.initial disk) openingOperations).filterMap
      Operation.writesTo? = [] :=
    filterMap_performed_eq_nil (by simp [openingOperations, Operation.writesTo?])
  rw [log, openedFiles, completedFiles, operations, List.append_assoc, performAll_append,
    tried_append, performed_append, List.filterMap_append, List.filterMap_append, unwritten]
  rcases opened : toolbox.performAll (.initial disk) openingOperations with ⟨start, _ | failure⟩
  · rw [opened] at opening
    simp only at opening ⊢
    rw [report_performAll_behind_openings loud (bothOpen_of_opening opened), opening,
      filterMap_tried_eq_nil opens?_behind_openings]
    simp only [RunState.initial, List.append_nil, List.nil_append]
  · rw [opened] at opening
    simp only at opening ⊢
    rw [opening]
    simp only [RunState.initial, List.filterMap_nil, List.append_nil, List.nil_append,
      List.map_nil]

end Loud

theorem report_generate_of_loud (loud : toolbox.interface.verbose = true) (disk : Disk) :
    (toolbox.generate disk).report = toolbox.log disk := by
  rw [generate_eq_operations]
  exact (report_exit toolbox _).trans (report_performAll_operations loud disk)

/-- The files reported as generated are those that were written. -/
theorem map_location_completedFiles (toolbox : Toolbox) (disk : Disk) :
    (toolbox.completedFiles disk).map Path.location = (toolbox.written disk).map Prod.fst := by
  rw [completedFiles, written, List.filterMap_eq_flatMap_toList, List.map_flatMap, List.map_flatMap]
  refine List.flatMap_congr fun op _ => ?_
  cases op with
  | step step => cases step <;> rfl
  | _ => rfl

/-- Whether a toolbox is made with a report or without one, the run ends the same way and leaves the
same disk. A run that reports names the files that it tries to open, and behind them those that it has
written as a whole, even if it fails. -/
theorem generate_observed (toolbox : Toolbox) (disk : Disk) :
    ((toolbox.reporting true).generate disk).failure =
        ((toolbox.reporting false).generate disk).failure ∧
      ((toolbox.reporting true).generate disk).disk =
        ((toolbox.reporting false).generate disk).disk ∧
      ((toolbox.reporting false).generate disk).report = [] ∧
      ((toolbox.reporting true).generate disk).report =
        (toolbox.openedFiles disk).map generatingLine ++
          (toolbox.completedFiles disk).map generatedLine ∧
      (toolbox.completedFiles disk).map Path.location = (toolbox.written disk).map Prod.fst := by
  have loud := generate_reporting toolbox disk true
  have quiet := generate_reporting toolbox disk false
  have log := @report_generate_of_loud (toolbox.reporting true) rfl disk
  rw [Toolbox.log, openedFiles_reporting, completedFiles_reporting] at log
  exact ⟨loud.1.trans quiet.1.symm, loud.2.trans quiet.2.symm, report_generate_of_silent rfl disk,
    log, map_location_completedFiles toolbox disk⟩

/-- The proxy of a class cannot be written where a directory stands, and so it is not reported. -/
example :
    let toolbox : Toolbox :=
      { directory := .ofText "out", interface := ⟨"m", true, [{ name := "A" }]⟩ }
    let disk : Disk := ⟨[(["out"], .directory), (["out", "@A"], .directory),
      (["out", "@A", "A.m"], .directory)]⟩
    toolbox.log disk = ["Generating: out/make_m.m", "Generating: out/Makefile"] := by
  decide +kernel

end Toolbox

end MexGlue
