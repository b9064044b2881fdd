import MexGlue.Proofs.Command.Check
import MexGlue.Proofs.Command.Refusals
import MexGlue.Proofs.Toolbox.FirstFailure
import MexGlue.Proofs.Toolbox.Reporting

/-!
# How a command line ends

A command line is refused or it runs, and a run ends with success or with one of the failures that
the program words itself: all that an interface that was read holds can be rendered. A refusal exits
and a run returns. A failed run says why and does not say that it is complete. What ends before the
interface is accepted, or only checks it, leaves the disk alone.
-/

namespace MexGlue

/-! ## Requests for a check -/

namespace CommandReader

variable {reader next : CommandReader}

/-- Once a check is asked for, it stays asked for. -/
theorem checkOnly_of_steps (checks : reader.switches.checkOnly = true) {words : List Word}
    (read : reader.steps words = .ok next) : next.switches.checkOnly = true := by
  have same : reader.checking = reader := by
    rw [checking, Switches.checking, ← checks]
  have again := steps_checking reader words
  rw [same, read] at again
  rw [Except.ok.inj again]
  rfl

theorem checkOnly_of_step_check
    (read : reader.step (.option (.flags [.check])) = .ok next) :
    next.switches.checkOnly = true := by
  unfold step at read
  cases awaiting : reader.awaiting with
  | some waiting => rw [awaiting] at read; cases read
  | none =>
      rw [awaiting] at read
      cases read
      rfl

theorem steps_append (reader : CommandReader) (first second : List Word) :
    reader.steps (first ++ second) = (reader.steps first).bind (·.steps second) := by
  induction first generalizing reader with
  | nil => rfl
  | cons word first ih =>
      rw [List.cons_append, steps, steps]
      cases reader.step word with
      | error refusal => rfl
      | ok next => exact ih next

theorem checkOnly_of_finish {request : Request} (read : reader.finish = .ok request) :
    request.checkOnly = reader.switches.checkOnly := by
  unfold finish at read
  simp only at read
  split at read
  · cases read
  · cases read
  · cases read
  · split at read
    · cases read
    · split at read
      · cases read
      · cases read
        rfl

end CommandReader

/-- A command line with the word for a check in front of the mark asks for no more than a check. -/
theorem Request.checkOnly_of_mem {texts : List String} {request : Request}
    (member : "--check" ∈ texts.takeWhile (· != markText)) (read : ofWords texts = .ok request) :
    request.checkOnly = true := by
  unfold ofWords at read
  cases listed : Word.list texts with
  | error word => rw [listed] at read; cases read
  | ok words =>
      have check : Word.ofText "--check" = .ok (.option (.flags [.check])) := by decide +kernel
      have isOption := (Word.option_mem_iff listed).mpr ⟨"--check", member, check⟩
      obtain ⟨first, second, rfl⟩ := List.append_of_mem isOption
      rw [listed] at read
      simp only [CommandReader.steps_append] at read
      cases atCheck : CommandReader.steps {} first with
      | error refusal => rw [atCheck] at read; cases read
      | ok before =>
          rw [atCheck] at read
          simp only [Except.bind, CommandReader.steps] at read
          cases behind : before.step (.option (.flags [.check])) with
          | error refusal => rw [behind] at read; cases read
          | ok asked =>
              rw [behind] at read
              simp only at read
              cases atEnd : asked.steps second with
              | error refusal => rw [atEnd] at read; cases read
              | ok reader =>
                  rw [atEnd] at read
                  rw [CommandReader.checkOnly_of_finish read]
                  exact CommandReader.checkOnly_of_steps
                    (CommandReader.checkOnly_of_step_check behind) atEnd

/-! ## Failures -/

/-- Whether all that is made of a class can be rendered. -/
structure Class.Renders (cls : Class) : Prop where
  proxy : cls.proxy?.isSome = true
  constructors : ∀ ctor ∈ cls.constructors, (cls.constructorName? ctor).isSome = true ∧
    (cls.constructorStub? ctor).isSome = true ∧
    ∀ libraryNamespace, (cls.constructorFile? libraryNamespace ctor).isSome = true
  compileCommands : ∀ mexFlags, (cls.compileCommands? mexFlags).isSome = true
  rules : cls.rules?.isSome = true

theorem Class.NamesConstructorTypes.renders {cls : Class} (h : cls.NamesConstructorTypes) :
    cls.Renders where
  proxy := Option.isSome_iff_exists.mpr h.exists_proxy?
  constructors ctor member := by
    obtain ⟨name, named⟩ := h.exists_constructorName? member
    simp [constructorStub?, constructorFile?, named]
  compileCommands mexFlags := Option.isSome_iff_exists.mpr (h.exists_compileCommands? mexFlags)
  rules := Option.isSome_iff_exists.mpr h.exists_rules?

theorem Interface.ne_namelessType_of_load {directory : Path} {name : String} {verbose : Bool}
    {disk : Disk} {failure : Failure} (h : load directory name verbose disk = .error failure) :
    failure ≠ .namelessType := by
  unfold load ofFile at h
  simp only at h
  split at h
  · cases h
    exact Failure.noConfusion
  · split at h
    · cases h
      exact Failure.noConfusion
    · cases h

/-- Making a toolbox of an interface that was read fails at a path or at a check. -/
theorem Toolbox.failure_generate {toolbox : Toolbox} (wellFormed : toolbox.interface.WellFormed)
    {disk : Disk} {failure : Failure} (h : (toolbox.generate disk).failure = some failure) :
    (∃ path, failure = .cannotOpen path) ∨ ∃ use, failure = .missingDependency use := by
  rw [generate_eq_operations] at h
  obtain ⟨before, op, later, state, split, ran, fails⟩ := exists_fails_of_performAll h
  have own := opensOwn_performAll before (opensOwn_initial toolbox disk)
  rw [ran] at own
  rcases path_of_failure? wellFormed (by simp [split]) (failure?_perform own fails) with
    ⟨path, -, same⟩ | ⟨cls, use, -, -, same⟩
  · exact .inl ⟨path, same⟩
  · exact .inr ⟨use, same⟩

namespace Request

variable {request : Request} {disk : Disk}

/-- Why loading the interface of a request fails, or then checking it, if that is all that is asked
for, or else making its toolbox. -/
def failure? (request : Request) (disk : Disk) : Option Failure :=
  match Interface.load request.interfaceDirectory request.moduleName request.verbose disk with
  | .error failure => some failure
  | .ok interface =>
      if request.checkOnly then
        match interface.verify with
        | .error use => some (.missingDependency use)
        | .ok () => none
      else ((request.toolboxOf interface).generate disk).failure

theorem run_ending (request : Request) (disk : Disk) :
    (request.run disk).ending = (request.failure? disk).elim .completed .failed := by
  unfold run failure?
  cases Interface.load request.interfaceDirectory request.moduleName request.verbose disk with
  | error failure => rfl
  | ok interface =>
      cases request.checkOnly with
      | true =>
          simp only [if_true, runCheck, check]
          cases interface.verify <;> rfl
      | false => rfl

theorem ne_namelessType {failure : Failure} (h : request.failure? disk = some failure) :
    failure ≠ .namelessType := by
  unfold failure? at h
  split at h
  · rename_i loaded
    cases h
    exact Interface.ne_namelessType_of_load loaded
  · rename_i interface loaded
    split at h
    · split at h <;> cases h
      exact Failure.noConfusion
    · rcases Toolbox.failure_generate (Interface.wellFormed_of_load loaded) h with
        ⟨path, rfl⟩ | ⟨use, rfl⟩
      · exact Failure.noConfusion
      · exact Failure.noConfusion

end Request

/-! ## Reports -/

/-- The text that every completion line begins with. -/
def completionStart : String := "Generation completed in "

theorem completionLine_eq (milliseconds : String) :
    completionLine milliseconds = completionStart ++ (milliseconds ++ " ms") :=
  String.append_assoc

/-- A line that begins otherwise is no completion line. -/
theorem ne_completionLine {start : String}
    (apart : ¬ start.toList <+: completionStart.toList ∧
      ¬ completionStart.toList <+: start.toList) (rest milliseconds : String) :
    start ++ rest ≠ completionLine milliseconds := by
  intro same
  have spelled := congrArg String.toList same
  rw [completionLine_eq, String.toList_append, String.toList_append] at spelled
  have first : start.toList <+: start.toList ++ rest.toList := List.prefix_append _ _
  have second : completionStart.toList <+: start.toList ++ rest.toList := by
    rw [spelled]
    exact List.prefix_append _ _
  rcases List.prefix_or_prefix_of_prefix first second with before | behind
  · exact apart.1 before
  · exact apart.2 behind

/-- No line of a report says that a run is complete. -/
def Report.Open (report : Report) : Prop := ∀ line ∈ report, ∀ milliseconds,
  line ≠ completionLine milliseconds

theorem Report.open_nil : Report.Open [] := List.forall_mem_nil _

theorem Report.Open.append {first second : Report} (h : first.Open) (h' : second.Open) :
    Report.Open (first ++ second) := List.forall_mem_append.mpr ⟨h, h'⟩

theorem Interface.open_loadReport (directory : Path) (interface : Interface) :
    (loadReport directory interface).Open := by
  unfold loadReport
  split
  · refine List.forall_mem_singleton.mpr fun milliseconds => ?_
    rw [String.append_assoc, String.append_assoc, String.append_assoc]
    exact ne_completionLine (by decide) _ _
  · exact Report.open_nil

theorem Toolbox.open_report_generate (toolbox : Toolbox) (disk : Disk) :
    (toolbox.generate disk).report.Open := by
  cases verbose : toolbox.interface.verbose with
  | false =>
      rw [report_generate_of_silent verbose]
      exact Report.open_nil
  | true =>
      rw [report_generate_of_loud verbose]
      refine Report.Open.append ?_ ?_
      · refine List.forall_mem_map.mpr fun path _ milliseconds => ?_
        exact ne_completionLine (by decide) _ _
      · refine List.forall_mem_map.mpr fun path _ milliseconds => ?_
        exact ne_completionLine (by decide) _ _

namespace Request

variable {request : Request} {disk : Disk}

theorem open_report_run {failure : Failure} (h : request.failure? disk = some failure) :
    (request.run disk).report.Open := by
  unfold failure? at h
  unfold run
  cases loaded : Interface.load request.interfaceDirectory request.moduleName request.verbose
      disk with
  | error failure => exact Report.open_nil
  | ok interface =>
      rw [loaded] at h
      refine (Interface.open_loadReport _ interface).append ?_
      cases checks : request.checkOnly with
      | true =>
          simp only [checks, if_true, runCheck, check] at h ⊢
          cases verified : interface.verify with
          | ok _ => rw [verified] at h; cases h
          | error use => exact Report.open_nil
      | false => exact Toolbox.open_report_generate _ disk

/-- A request whose interface is not loaded, or only to be checked, leaves the disk alone. -/
theorem run_disk (h : request.checkOnly = true ∨ ∃ failure,
    Interface.load request.interfaceDirectory request.moduleName request.verbose disk =
      .error failure) : (request.run disk).disk = disk := by
  unfold run
  rcases h with checks | ⟨failure, loaded⟩
  · cases Interface.load request.interfaceDirectory request.moduleName request.verbose disk with
    | error failure => rfl
    | ok interface => simp only [checks, if_true, runCheck]
  · rw [loaded]

end Request

/-! ## Whole command lines -/

theorem runCommand_of_ok {texts : List String} {request : Request}
    (read : Request.ofWords texts = .ok request) (disk : Disk) :
    runCommand texts disk = request.run disk := by
  rw [runCommand, read]

theorem runCommand_of_error {texts : List String} {refusal : Refusal}
    (read : Request.ofWords texts = .error refusal) (disk : Disk) :
    runCommand texts disk = ⟨.refused refusal, disk, []⟩ := by
  rw [runCommand, read]

/-- What it is for a command line to end in order, whatever is on the disk. -/
structure CommandEnds (texts : List String) (disk : Disk) : Prop where
  /-- Words that make no request, or ask for help, do nothing. -/
  refused : ∀ refusal, Request.ofWords texts = .error refusal →
    runCommand texts disk = ⟨.refused refusal, disk, []⟩
  /-- The command exits with 2 or 0, or it returns 1 or 0. -/
  departs : (runCommand texts disk).ending.departure ∈
    [.exits 2, .exits 0, .returns 1, .returns 0]
  /-- It exits with 2 for words that make no request. -/
  exits_two_iff : (runCommand texts disk).ending.departure = .exits 2 ↔
    ∃ problem, Request.ofWords texts = .error (.usage problem)
  /-- It exits with 0 where it gives help. -/
  exits_zero_iff : (runCommand texts disk).ending.departure = .exits 0 ↔
    Request.ofWords texts = .error .help
  /-- It returns 1 where loading, or then checking or generating, fails. -/
  returns_one_iff : (runCommand texts disk).ending.departure = .returns 1 ↔
    ∃ request failure, Request.ofWords texts = .ok request ∧
      request.failure? disk = some failure
  /-- It returns 0 where nothing fails. -/
  returns_zero_iff : (runCommand texts disk).ending.departure = .returns 0 ↔
    ∃ request, Request.ofWords texts = .ok request ∧ request.failure? disk = none
  /-- Words that make no request are answered with the usage and what is wrong with them. -/
  usage : ∀ problem program milliseconds, Request.ofWords texts = .error (.usage problem) →
    (runCommand texts disk).ending.errorText program =
      Text.unlines (Usage.lines program) ++ program ++ ": error: " ++ problem.message ++ "\n" ∧
    (runCommand texts disk).ending.printed program milliseconds
      (runCommand texts disk).report = []
  /-- The words that are told as left over stand on the command line in this order. -/
  leftOver : ∀ extras, Request.ofWords texts = .error (.usage (.unrecognized extras)) →
    extras ≠ [] ∧ extras.Sublist texts
  /-- Help is given only if an option in front of the mark asks for it, and is no error. -/
  help : ∀ program milliseconds, Request.ofWords texts = .error .help →
    (∃ text ∈ texts.takeWhile (· != markText), ∃ use, Word.ofText text = .ok (.option use) ∧
      .help ∈ use.asked) ∧
    (runCommand texts disk).ending.errorText program = "" ∧
    (runCommand texts disk).ending.printed program milliseconds
      (runCommand texts disk).report = Usage.helpLines program
  /-- No failure comes from rendering. -/
  worded : (runCommand texts disk).ending ≠ .failed .namelessType
  /-- All that is made of an interface that was read can be rendered. -/
  renders : ∀ request interface, Request.ofWords texts = .ok request →
    Interface.load request.interfaceDirectory request.moduleName request.verbose disk =
      .ok interface →
    ∀ cls ∈ interface.classes, cls.Renders
  /-- A failed run says why, and nothing that it says is that it is complete. -/
  failed : ∀ request failure program milliseconds, Request.ofWords texts = .ok request →
    request.failure? disk = some failure →
    (runCommand texts disk).ending.errorText program = "error: " ++ failure.message ++ "\n" ∧
      Report.Open ((runCommand texts disk).ending.printed program milliseconds
        (runCommand texts disk).report)
  /-- Nothing is written before the interface is accepted, or for a check. -/
  unchanged : ((∃ code, (runCommand texts disk).ending.departure = .exits code) ∨
      "--check" ∈ texts.takeWhile (· != markText) ∨
      ∃ request, Request.ofWords texts = .ok request ∧ (request.checkOnly = true ∨
        ∃ failure, Interface.load request.interfaceDirectory request.moduleName request.verbose
          disk = .error failure)) →
    (runCommand texts disk).disk = disk

/-- How a command is left is told by its request and by whether that fails. -/
theorem departure_cases (texts : List String) (disk : Disk) :
    (Request.ofWords texts = .error .help ∧
      (runCommand texts disk).ending.departure = .exits 0) ∨
    (∃ problem, Request.ofWords texts = .error (.usage problem) ∧
      (runCommand texts disk).ending.departure = .exits 2) ∨
    (∃ request failure, Request.ofWords texts = .ok request ∧
      request.failure? disk = some failure ∧
      (runCommand texts disk).ending.departure = .returns 1) ∨
    ∃ request, Request.ofWords texts = .ok request ∧ request.failure? disk = none ∧
      (runCommand texts disk).ending.departure = .returns 0 := by
  cases read : Request.ofWords texts with
  | error refusal =>
      rw [runCommand_of_error read]
      cases refusal with
      | help => exact .inl ⟨rfl, rfl⟩
      | usage problem => exact .inr (.inl ⟨problem, rfl, rfl⟩)
  | ok request =>
      rw [runCommand_of_ok read, Request.run_ending]
      cases fails : request.failure? disk with
      | some failure => exact .inr (.inr (.inl ⟨request, failure, rfl, fails, rfl⟩))
      | none => exact .inr (.inr (.inr ⟨request, rfl, fails, rfl⟩))

theorem ending_ne_namelessType (texts : List String) (disk : Disk) :
    (runCommand texts disk).ending ≠ .failed .namelessType := by
  cases read : Request.ofWords texts with
  | error refusal =>
      rw [runCommand_of_error read]
      exact Ending.noConfusion
  | ok request =>
      rw [runCommand_of_ok read, Request.run_ending]
      cases failed : request.failure? disk with
      | none => exact Ending.noConfusion
      | some failure =>
          intro same
          exact Request.ne_namelessType failed (Ending.failed.inj same)

end MexGlue
