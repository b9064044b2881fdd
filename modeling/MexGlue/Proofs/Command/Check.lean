import MexGlue.Command.Run
import MexGlue.Proofs.OfText.Image
import MexGlue.Proofs.Toolbox.Stops

/-!
# Checks and generations

Asking for a check is one more setting: a reader with it set goes through the same states with it
set. So a command line with `--check` in front asks for the same as without, but for a check. A check
and a generation whose operations all work come to the same end, since only the uses that a check
finds can stop the generation.
-/

namespace MexGlue

/-- The settings of a check. -/
def Switches.checking (switches : Switches) : Switches := { switches with checkOnly := true }

/-- The same request for a check. -/
def Request.checking (request : Request) : Request := { request with checkOnly := true }

/-- The reader with a check asked for. -/
def CommandReader.checking (reader : CommandReader) : CommandReader :=
  { reader with switches := reader.switches.checking }

namespace Switches

theorem foldl_setFlag_checking (switches : Switches) (flags : List Flag) :
    flags.foldl setFlag switches.checking = (flags.foldl setFlag switches).checking := by
  induction flags generalizing switches with
  | nil => rfl
  | cons flag flags ih =>
      rw [List.foldl_cons, List.foldl_cons, ← ih (switches.setFlag flag)]
      cases flag <;> rfl

theorem setFlags_checking (switches : Switches) (flags : List Flag) :
    switches.checking.setFlags flags = (switches.setFlags flags).map checking := by
  unfold setFlags
  split
  · rfl
  · rw [foldl_setFlag_checking]
    rfl

theorem setValue_checking (switches : Switches) (given : Given) (option : ValueOption) :
    switches.checking.setValue given option = (switches.setValue given option).checking := by
  cases option <;> rfl

end Switches

namespace CommandReader

variable (reader : CommandReader)

theorem closeRun_checking : reader.checking.closeRun = reader.closeRun.checking := rfl

theorem setFlags_checking (flags : List Flag) :
    reader.checking.setFlags flags = (reader.setFlags flags).map checking := by
  unfold setFlags
  rw [show reader.checking.switches = reader.switches.checking from rfl,
    Switches.setFlags_checking]
  cases reader.switches.setFlags flags <;> rfl

theorem setValue_checking (flags : List Flag) (option : ValueOption) (value : String) :
    reader.checking.setValue flags option value =
      (reader.setValue flags option value).map checking := by
  unfold setValue
  rw [show reader.checking.switches = reader.switches.checking from rfl,
    Switches.setFlags_checking]
  cases reader.switches.setFlags flags with
  | error refusal => rfl
  | ok switches =>
      simp only [Except.map, Switches.setValue_checking]
      rfl

theorem use_checking (asked : OptionUse) :
    reader.checking.use asked = (reader.use asked).map checking := by
  cases asked with
  | flags flags => exact setFlags_checking reader flags
  | value flags option given =>
      cases given with
      | none => rfl
      | some value => exact setValue_checking reader flags option value

theorem step_checking (word : Word) :
    reader.checking.step word = (reader.step word).map checking := by
  have waits : reader.checking.awaiting = reader.awaiting := rfl
  unfold step
  rw [waits]
  cases reader.awaiting with
  | some waiting =>
      obtain ⟨flags, option⟩ := waiting
      cases word with
      | plain text => exact setValue_checking reader flags option text
      | mark => rfl
      | behindMark text => rfl
      | option asked => rfl
      | misused ignored => rfl
      | unknown text => rfl
  | none =>
      cases word with
      | plain text => rfl
      | mark => rfl
      | behindMark text => rfl
      | option asked => exact use_checking reader.closeRun asked
      | misused ignored => rfl
      | unknown text => rfl

theorem steps_checking (words : List Word) :
    reader.checking.steps words = (reader.steps words).map checking := by
  induction words generalizing reader with
  | nil => rfl
  | cons word words ih =>
      rw [steps, steps, step_checking]
      cases reader.step word with
      | error refusal => rfl
      | ok next => exact ih next

variable {reader} in
/-- A reader that has read a request would have read the same one for a check. -/
theorem finish_checking {request : Request} (h : reader.finish = .ok request) :
    reader.checking.finish = .ok request.checking := by
  unfold finish at h ⊢
  rw [closeRun_checking]
  simp only at h ⊢
  rw [show reader.closeRun.checking.awaiting = reader.closeRun.awaiting from rfl,
    show reader.closeRun.checking.positionals = reader.closeRun.positionals from rfl,
    show reader.closeRun.checking.extras = reader.closeRun.extras from rfl]
  split at h
  · cases h
  · cases h
  · cases h
  · have checks : reader.closeRun.checking.switches.checkOnly = true := rfl
    split at h
    · cases h
    · rename_i noExtras
      rw [if_neg noExtras, if_neg (by simp [checks])]
      split at h
      · cases h
      · rw [← Except.ok.inj h]
        rfl

end CommandReader

/-- The word for a check in front of a command line adds nothing but the check. -/
theorem Request.ofWords_check {texts : List String} {request : Request}
    (h : ofWords texts = .ok request) : ofWords ("--check" :: texts) = .ok request.checking := by
  unfold ofWords at h ⊢
  cases listed : Word.list texts with
  | error word => rw [listed] at h; cases h
  | ok words =>
      rw [listed] at h
      have classified : Word.list ("--check" :: texts) =
          .ok (.option (.flags [.check]) :: words) := by
        rw [Word.list, if_neg (by decide), listed]
        rfl
      have first : CommandReader.step {} (.option (.flags [.check])) =
          .ok (CommandReader.checking {}) := rfl
      rw [classified]
      simp only [CommandReader.steps, first, CommandReader.steps_checking]
      cases read : CommandReader.steps {} words with
      | error refusal => simp only [read] at h; cases h
      | ok reader =>
          simp only [read] at h
          exact CommandReader.finish_checking h

/-! ## Endings -/

theorem Toolbox.OperationsSucceed.failure_eq_check {toolbox : Toolbox} {disk : Disk}
    (h : toolbox.OperationsSucceed disk)
    (named : ∀ cls ∈ toolbox.interface.classes, cls.NamesConstructorTypes) :
    (toolbox.generate disk).failure = Failure.ofCheck toolbox.interface.verify := by
  rw [h.failure, Toolbox.findSome?_plan named]

/-- What is loaded from a disk was read from a text. -/
theorem Interface.wellFormed_of_load {directory : Path} {name : String} {verbose : Bool}
    {disk : Disk} {interface : Interface}
    (h : load directory name verbose disk = .ok interface) : interface.WellFormed := by
  unfold load ofFile at h
  cases decoded : (disk.read? (file directory name)).bind decode? with
  | none => simp only [decoded] at h; cases h
  | some text =>
      simp only [decoded] at h
      cases read : ofText name verbose text with
      | error failure => rw [read] at h; cases h
      | ok whole =>
          rw [read] at h
          cases h
          exact wellFormed_of_ofText read

section Ending

variable {texts : List String} {request : Request} {interface : Interface} {disk : Disk}

/-- A command that asks for a check ends as the check of the interface that it loads. -/
theorem runCommand_ending_of_check (read : Request.ofWords texts = .ok request)
    (checks : request.checkOnly = true)
    (loaded : Interface.load request.interfaceDirectory request.moduleName request.verbose disk =
      .ok interface) :
    (runCommand texts disk).ending =
      (Failure.ofCheck interface.verify).elim .completed .failed := by
  rw [runCommand, read]
  simp only [Request.run, loaded, checks, if_true, Request.runCheck, Request.check]
  cases interface.verify <;> rfl

/-- A command that asks for a toolbox ends as the generation from the interface that it loads. -/
theorem runCommand_ending_of_generate (read : Request.ofWords texts = .ok request)
    (generates : request.checkOnly = false)
    (loaded : Interface.load request.interfaceDirectory request.moduleName request.verbose disk =
      .ok interface) :
    (runCommand texts disk).ending =
      ((request.toolboxOf interface).generate disk).failure.elim .completed .failed := by
  rw [runCommand, read]
  simp only [Request.run, loaded, generates, Bool.false_eq_true, if_false, Request.runGenerate]

end Ending

/-- If all operations of a run work and all types of constructor arguments have names, the run
reports the missing dependency that the check of the interface reports, and otherwise no failure. So
a command line that makes a toolbox and one that asks for a check of the same interface, such as the
same with `--check` in front, end with the same number and the same error. -/
theorem generate_agrees_with_check :
    (∀ (toolbox : Toolbox) (disk : Disk),
      (∀ cls ∈ toolbox.interface.classes, cls.NamesConstructorTypes) →
      toolbox.OperationsSucceed disk →
      (∀ use, (toolbox.generate disk).failure = some (.missingDependency use) ↔
        toolbox.interface.verify = .error use) ∧
      ((toolbox.generate disk).failure = none ↔ toolbox.interface.verify = .ok ())) ∧
    (∀ (texts : List String) (request : Request) (interface : Interface) (disk : Disk),
      Request.ofWords texts = .ok request → request.checkOnly = false →
      Interface.load request.interfaceDirectory request.moduleName request.verbose disk =
        .ok interface →
      (request.toolboxOf interface).OperationsSucceed disk →
      Request.ofWords ("--check" :: texts) = .ok request.checking ∧
      ∀ checked other, Request.ofWords checked = .ok other → other.checkOnly = true →
        other.directory = request.directory → other.moduleName = request.moduleName →
        other.verbose = request.verbose →
        (runCommand checked disk).ending.exitCode = (runCommand texts disk).ending.exitCode ∧
        ∀ program, (runCommand checked disk).ending.errorText program =
          (runCommand texts disk).ending.errorText program) := by
  constructor
  · intro toolbox disk named succeed
    rw [succeed.failure_eq_check named]
    exact ⟨fun use => Failure.ofCheck_eq_some_iff, Failure.ofCheck_eq_none_iff⟩
  · intro texts request interface disk read generates loaded succeed
    refine ⟨Request.ofWords_check read, fun checked other readOther checks => ?_⟩
    intro directory moduleName verbose
    have named : ∀ cls ∈ interface.classes, cls.NamesConstructorTypes := fun cls member =>
      (Interface.wellFormed_of_load loaded cls member).namesConstructorTypes
    have loadedOther : Interface.load other.interfaceDirectory other.moduleName other.verbose disk =
        .ok interface := by
      rw [Request.interfaceDirectory, directory, moduleName, verbose]
      exact loaded
    have same : (runCommand checked disk).ending = (runCommand texts disk).ending := by
      rw [runCommand_ending_of_check readOther checks loadedOther,
        runCommand_ending_of_generate read generates loaded, succeed.failure_eq_check named]
      rfl
    rw [same]
    exact ⟨rfl, fun _ => rfl⟩

/-- A toolbox whose interface lacks a class fails in generation and in the check alike. -/
theorem generate_agrees_with_check_missing : ∃ disk request interface,
    Request.ofWords ["in", "m", "out"] = .ok request ∧
    Interface.load request.interfaceDirectory request.moduleName request.verbose disk =
      .ok interface ∧
    (request.toolboxOf interface).OperationsSucceed disk ∧
    ((request.toolboxOf interface).generate disk).failure =
      some (.missingDependency ⟨"B", "A"⟩) ∧
    ∀ program, (runCommand ["--check", "in", "m", "out"] disk).ending.errorText program =
      (runCommand ["in", "m", "out"] disk).ending.errorText program := by
  have read : Request.ofWords ["in", "m", "out"] =
    .ok { directory := "in", moduleName := "m", toolbox := "out" } := by decide +kernel
  have loaded : Interface.load (.ofText "in") "m" false
      ⟨[(["in"], .directory), (["in", "m.h"], .file "class A { A(B* b); };".toUTF8)]⟩ =
    .ok { name := "m", classes := [{ name := "A", constructors := [
      ⟨"A", [{ type := "B", name := "b", isPointer := true }]⟩] }] } := by decide +kernel
  have ends := generate_agrees_with_check.2 _ _ _ _ read rfl loaded (by decide +kernel)
  refine ⟨_, _, _, read, loaded, by decide +kernel, ?_, (ends.2 _ _ ends.1 rfl rfl rfl rfl).2⟩
  refine ((generate_agrees_with_check.1 _ _ ?_ ?_).1 _).mpr ?_
  all_goals decide +kernel

end MexGlue
