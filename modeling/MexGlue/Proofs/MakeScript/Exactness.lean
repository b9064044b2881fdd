import MexGlue.Proofs.MakeScript.Commands
import MexGlue.Proofs.Toolbox.Sections

/-!
# The make script compiles exactly the written glue

Run from any directory, the make script of a completed run enters the directory of each class from
the toolbox directory and compiles the C++ files that the run wrote, in the order of writing. Each
section starts in the toolbox directory, wherever the section in front has ended. All of this is about
a make script that no other file has taken the place of.
-/

namespace MexGlue

namespace Class

variable {cls : Class} (libraryNamespace mexFlags : String)

/-- The lines of a class's section of the make script. -/
def scriptLines (cls : Class) : List String :=
  ["%% " ++ cls.matlabName, "cd(toolboxpath)"] ++
    (cls.outerFunctions libraryNamespace).map
      (fun function => MakeScript.compileLine mexFlags function.name) ++
    ["cd " ++ cls.directory] ++
    (cls.innerFunctions libraryNamespace).map
      fun function => MakeScript.compileLine mexFlags function.name

/-- What a class's section of the make script does. -/
def scriptCommands (cls : Class) : List MakeScript.Command :=
  [.other, .toToolbox] ++
    ((cls.outerFunctions libraryNamespace).map fun function => function.name ++ ".cpp").map
      .compile ++
    [.enter cls.directory] ++
    ((cls.innerFunctions libraryNamespace).map fun function => function.name ++ ".cpp").map
      .compile

namespace WellFormed

theorem map_ofText_scriptLines (h : cls.WellFormed) :
    (cls.scriptLines libraryNamespace mexFlags).map MakeScript.Command.ofText =
      cls.scriptCommands libraryNamespace := by
  have title : MakeScript.Command.ofText ("%% " ++ cls.matlabName) = .other :=
    MakeScript.Command.ofText_comment _
  have compiling {functions : List GlueFunction} (stems : ∀ f ∈ functions, IsStem f.name) :
      (functions.map fun f => MakeScript.compileLine mexFlags f.name).map
          MakeScript.Command.ofText =
        (functions.map fun f => f.name ++ ".cpp").map .compile := by
    rw [List.map_map, List.map_map]
    exact List.map_congr_left fun f member =>
      MakeScript.Command.ofText_compileLine mexFlags (stems f member)
  simp only [scriptLines, scriptCommands, List.map_append, List.map_cons, List.map_nil, title,
    MakeScript.Command.ofText_enter,
    compiling fun f member => (h.outerFunction_spec libraryNamespace member).1,
    compiling fun f member => (h.innerFunction_spec libraryNamespace member).1]
  rfl

theorem hasLines_scriptSection (h : cls.WellFormed) (flagsLine : '\n' ∉ mexFlags.toList) :
    Text.HasLines (cls.scriptSection mexFlags) (cls.scriptLines libraryNamespace mexFlags) where
  text_eq := by
    rw [scriptSection, h.namesConstructorTypes.compileCommands? libraryNamespace,
      Option.getD_some, scriptLines]
    simp only [Text.unlines_append, Text.unlines_cons, Text.unlines_nil,
      MakeScript.sectionTitle, MakeScript.returnLine]
    simp [← String.toList_inj]
  free := by
    have name : '\n' ∉ cls.matlabName.toList := h.isStem_matlabName.word.not_mem rfl
    have compiling {functions : List GlueFunction} (stems : ∀ f ∈ functions, IsStem f.name) :
        ∀ line ∈ functions.map fun f => MakeScript.compileLine mexFlags f.name,
          '\n' ∉ line.toList :=
      List.forall_mem_map.mpr fun f member =>
        MakeScript.not_mem_compileLine flagsLine (stems f member)
    simp only [scriptLines, List.forall_mem_append, List.forall_mem_cons]
    refine ⟨⟨⟨⟨?_, by decide, List.forall_mem_nil _⟩, ?_⟩, ?_, List.forall_mem_nil _⟩, ?_⟩
    · simp [name]
    · exact compiling fun f member => (h.outerFunction_spec libraryNamespace member).1
    · simp [Class.directory, name]
    · exact compiling fun f member => (h.innerFunction_spec libraryNamespace member).1

/-- A section is run from the toolbox directory, wherever it starts, and ends in the directory of
the class. -/
theorem run_scriptCommands (h : cls.WellFormed) (toolbox : Path) (state : MakeScript.State) :
    state.run toolbox (cls.scriptCommands libraryNamespace) =
      { here := toolbox.below [cls.directory]
        entered := state.entered ++ [(toolbox, cls.directory)]
        compiled := state.compiled ++ (cls.functions libraryNamespace).map fun function =>
          toolbox.location ++ function.sourcePlace } := by
  have inToolbox : (cls.outerFunctions libraryNamespace).map
        (fun f => (toolbox.join (f.name ++ ".cpp")).location) =
      (cls.outerFunctions libraryNamespace).map fun f => toolbox.location ++ f.sourcePlace := by
    refine List.map_congr_left fun f member => ?_
    obtain ⟨stem, outer⟩ := h.outerFunction_spec libraryNamespace member
    have file : IsComponent (f.name ++ ".cpp") := stem.isComponent (by decide)
    rw [Path.join_of_isComponent file, Path.location_below (by simp [file.goesDown]),
      GlueFunction.sourcePlace, outer, List.nil_append]
  have inDirectory : (cls.innerFunctions libraryNamespace).map
        (fun f => ((toolbox.below [cls.directory]).join (f.name ++ ".cpp")).location) =
      (cls.innerFunctions libraryNamespace).map fun f => toolbox.location ++ f.sourcePlace := by
    refine List.map_congr_left fun f member => ?_
    obtain ⟨stem, inner⟩ := h.innerFunction_spec libraryNamespace member
    have file : IsComponent (f.name ++ ".cpp") := stem.isComponent (by decide)
    rw [Path.join_of_isComponent file, Path.below_below, Path.location_below (by
      simp [file.goesDown, h.isComponent_directory.goesDown]), GlueFunction.sourcePlace, inner]
  have start : state.run toolbox [.other, .toToolbox] = { state with here := toolbox } := rfl
  have enter (reached : MakeScript.State) : reached.run toolbox [.enter cls.directory] =
      { reached with
        here := reached.here.below [cls.directory]
        entered := reached.entered ++ [(reached.here, cls.directory)] } := by
    rw [← Path.join_of_isComponent h.isComponent_directory]
    rfl
  simp only [scriptCommands, MakeScript.State.run_append, MakeScript.State.run_compile, start, enter]
  simp only [List.map_map, Function.comp_def, inToolbox, inDirectory, functions, List.map_append,
    List.append_assoc]

end WellFormed

/-- The sections of all classes enter their directories one after the other, each from the toolbox
directory. -/
theorem run_flatMap_scriptCommands {classes : List Class} (h : ∀ cls ∈ classes, cls.WellFormed)
    (toolbox : Path) (state : MakeScript.State) :
    ∃ here, state.run toolbox (classes.flatMap (scriptCommands libraryNamespace)) =
      { here := here
        entered := state.entered ++ classes.map fun cls => (toolbox, cls.directory)
        compiled := state.compiled ++ classes.flatMap fun cls =>
          (cls.functions libraryNamespace).map fun function =>
            toolbox.location ++ function.sourcePlace } := by
  induction classes generalizing state with
  | nil => exact ⟨state.here, by simp [MakeScript.State.run]⟩
  | cons cls classes ih =>
      obtain ⟨first, later⟩ := List.forall_mem_cons.mp h
      obtain ⟨here, behind⟩ := ih later _
      refine ⟨here, ?_⟩
      rw [List.flatMap_cons, MakeScript.State.run_append, first.run_scriptCommands, behind]
      simp [List.append_assoc]

end Class

/-! ## Completed runs -/

namespace MakeScript

/-- Whether the run of a make script has entered only directories right below the toolbox directory
that are there, has compiled exactly these C++ files, and ends in the toolbox directory. -/
structure CompilesExactly (directory : Path) (disk : Disk) (files : List Location)
    (reached : State) : Prop where
  entered : ∀ entry ∈ reached.entered, entry.1 = directory ∧
    disk.find? (entry.1.join entry.2).location = some .directory
  compiled : reached.compiled = files
  ends : reached.here = directory

/-- The start of a make script neither moves nor compiles. -/
theorem run_header (toolbox : Path) (state : State) :
    ∃ lines, Text.HasLines header lines ∧
      state.run toolbox (lines.map Command.ofText) = state := by
  refine ⟨_, ⟨rfl, by decide⟩, ?_⟩
  exact state.run_of_forall_other toolbox (by decide +kernel)

end MakeScript

namespace Toolbox

variable {toolbox : Toolbox} {disk : Disk}

/-- All that a plan appends to the make script, run from some directory. -/
theorem runText_plan (wellFormed : toolbox.interface.WellFormed)
    (flagsLine : '\n' ∉ toolbox.options.mexFlags.toList) (start : Path) :
    MakeScript.runText toolbox.directory start
        (String.join (toolbox.plan.map Step.scriptText)) =
      { here := toolbox.directory
        entered := toolbox.interface.classes.map fun cls => (toolbox.directory, cls.directory)
        compiled := toolbox.interface.classes.flatMap fun cls =>
          (cls.functions toolbox.options.libraryNamespace).map fun function =>
            toolbox.directory.location ++ function.sourcePlace } := by
  obtain ⟨headerLines, header, started⟩ :=
    MakeScript.run_header toolbox.directory ⟨start, [], []⟩
  have sections := Text.hasLines_join fun cls member =>
    (wellFormed cls member).hasLines_scriptSection toolbox.options.libraryNamespace
      toolbox.options.mexFlags flagsLine
  have trailer : Text.HasLines MakeScript.trailer ["cd(toolboxpath)", "", "echo off"] :=
    ⟨rfl, by decide⟩
  have whole := (header.append sections).append trailer
  have commands : (toolbox.interface.classes.flatMap
        (Class.scriptLines toolbox.options.libraryNamespace toolbox.options.mexFlags)).map
          MakeScript.Command.ofText =
      toolbox.interface.classes.flatMap
        (Class.scriptCommands toolbox.options.libraryNamespace) := by
    rw [List.map_flatMap]
    exact List.flatMap_congr fun cls member =>
      (wellFormed cls member).map_ofText_scriptLines toolbox.options.libraryNamespace
        toolbox.options.mexFlags
  have ending (reached : MakeScript.State) : reached.run toolbox.directory
      (["cd(toolboxpath)", "", "echo off", ""].map MakeScript.Command.ofText) =
        { reached with here := toolbox.directory } := rfl
  obtain ⟨here, compiled⟩ := Class.run_flatMap_scriptCommands toolbox.options.libraryNamespace
    wellFormed toolbox.directory ⟨start, [], []⟩
  rw [join_scriptText_plan, MakeScript.runText, whole.lines, List.append_assoc, List.append_assoc,
    List.map_append, List.map_append, MakeScript.State.run_append, started,
    MakeScript.State.run_append, commands, compiled]
  exact (ending _).trans (by simp)

/-- If no other file has its place, the make script that a completed run leaves compiles exactly the C++
files that the run wrote, wherever it is started. -/
theorem generate_script_compilesExactly {name text : String} {verbose : Bool}
    (read : Interface.ofText name verbose text = .ok toolbox.interface)
    (flagsLine : '\n' ∉ toolbox.options.mexFlags.toList) (apart : toolbox.WritesApart)
    (completes : (toolbox.generate disk).failure = none) :
    ∃ content,
      (toolbox.generate disk).disk.find? toolbox.scriptPath.location =
        some (.file content.toUTF8) ∧
      ∀ start, MakeScript.CompilesExactly toolbox.directory (toolbox.generate disk).disk
        (toolbox.writtenSources disk) (MakeScript.runText toolbox.directory start content) := by
  have wellFormed := Interface.wellFormed_of_ofText read
  obtain ⟨begun, reached, completed⟩ := exists_completes completes
  have script := completed.find?_aggregate wellFormed .script fun step inPlan write inWrites =>
    (apart step inPlan write inWrites).1
  refine ⟨_, script, fun start => ?_⟩
  rw [Step.textFor, runText_plan wellFormed flagsLine start]
  refine ⟨List.forall_mem_map.mpr fun cls member => ⟨rfl, ?_⟩,
    (writtenSources_of_completes completes wellFormed).symm, rfl⟩
  have directory := (wellFormed cls member).isComponent_directory
  rw [Path.join_of_isComponent directory, Path.location_below (by simp [directory.goesDown])]
  exact completed.find?_classDirectory wellFormed member

/-- Two classes with methods, one of them in a namespace, compiled with flags. -/
theorem generate_script_compilesExactly_flags : ∃ (toolbox : Toolbox) (disk : Disk),
    Interface.ofText "m" false
        "class A { A(); void f(); static void F(); }; namespace n { class B { void f(); }; }///\\namespace" =
      .ok toolbox.interface ∧
    '\n' ∉ toolbox.options.mexFlags.toList ∧ toolbox.WritesApart ∧
    (toolbox.generate disk).failure = none ∧
    ∃ content,
      (toolbox.generate disk).disk.find? toolbox.scriptPath.location =
        some (.file content.toUTF8) ∧
      ∀ start, MakeScript.CompilesExactly toolbox.directory (toolbox.generate disk).disk
        (toolbox.writtenSources disk) (MakeScript.runText toolbox.directory start content) := by
  refine ⟨{
    directory := .ofText "out"
    interface := {
      name := "m"
      classes := [
        { name := "A"
          constructors := [⟨"A", []⟩]
          methods := [{ name := "f" }]
          staticMethods := [{ name := "F" }] },
        { name := "B", namespaces := ["n"], methods := [{ name := "f" }] }] }
    options := { mexFlags := "-O -g" } },
    {}, ?read, ?flagsLine, ?apart, ?completes,
    generate_script_compilesExactly ?read ?flagsLine ?apart ?completes⟩
  all_goals decide +kernel

/-! ## Scripts that are written over -/

section Overwritten

variable {cls : Class} (libraryNamespace : String) {mexFlags : String}

theorem ofText_zeros_comment (count : Nat) (name : String) :
    MakeScript.Command.ofText (String.ofList (List.replicate count '\x00') ++ ("%% " ++ name)) =
      .other := by
  cases count with
  | zero => exact MakeScript.Command.ofText_comment name
  | succ count =>
      have line : (String.ofList (List.replicate (count + 1) '\x00') ++ ("%% " ++ name)).toList =
          '\x00' :: (List.replicate count '\x00' ++ ("%% " ++ name).toList) := by
        rw [String.toList_append, String.toList_ofList, List.replicate_succ, List.cons_append]
      have notReturn :
          String.ofList (List.replicate (count + 1) '\x00') ++ ("%% " ++ name) ≠ "cd(toolboxpath)" := by
        intro same
        rw [same] at line
        exact absurd line (by simp)
      rw [MakeScript.Command.ofText, if_neg notReturn, line]
      rfl

/-- Zeros in front of a section change nothing about what it compiles. -/
theorem compiled_section (h : cls.WellFormed) (flagsLine : '\n' ∉ mexFlags.toList) {front : String}
    {frontLines : List String} (written : Text.HasLines front frontLines)
    (silent : ∀ line ∈ frontLines, MakeScript.Command.ofText line = .other) (count : Nat)
    (directory start : Path) :
    (MakeScript.runText directory start (front ++ String.ofList (List.replicate count '\x00') ++
        (cls.scriptSection mexFlags ++ MakeScript.trailer))).compiled =
      (cls.functions libraryNamespace).map fun function =>
        directory.location ++ function.sourcePlace := by
  let zeros := String.ofList (List.replicate count '\x00')
  obtain ⟨behind, lines⟩ : ∃ behind, cls.scriptLines libraryNamespace mexFlags =
      ("%% " ++ cls.matlabName) :: behind := ⟨_, rfl⟩
  have own := h.hasLines_scriptSection libraryNamespace mexFlags flagsLine
  have commands := h.map_ofText_scriptLines libraryNamespace mexFlags
  rw [lines] at own commands
  obtain ⟨titleLine, behindLines⟩ := List.forall_mem_cons.mp own.free
  have zeroed : Text.HasLines (zeros ++ cls.scriptSection mexFlags)
      ((zeros ++ ("%% " ++ cls.matlabName)) :: behind) := by
    refine ⟨?_, List.forall_mem_cons.mpr ⟨?_, behindLines⟩⟩
    · rw [own.text_eq, Text.unlines_cons, Text.unlines_cons]
      simp only [String.append_assoc]
    · rw [String.toList_append, List.mem_append, not_or, String.toList_ofList]
      exact ⟨fun member => absurd (List.eq_of_mem_replicate member) (by decide), titleLine⟩
  have sameCommands : ((zeros ++ ("%% " ++ cls.matlabName)) :: behind).map
      MakeScript.Command.ofText = cls.scriptCommands libraryNamespace := by
    rw [← commands, List.map_cons, List.map_cons, ofText_zeros_comment,
      MakeScript.Command.ofText_comment]
  have trailer : Text.HasLines MakeScript.trailer ["cd(toolboxpath)", "", "echo off"] :=
    ⟨rfl, by decide⟩
  have whole := (written.append zeroed).append trailer
  have text : front ++ zeros ++ (cls.scriptSection mexFlags ++ MakeScript.trailer) =
      front ++ (zeros ++ cls.scriptSection mexFlags) ++ MakeScript.trailer := by
    simp only [String.append_assoc]
  rw [text, MakeScript.runText, whole.lines, List.append_assoc, List.append_assoc, List.map_append,
    List.map_append, MakeScript.State.run_append,
    MakeScript.State.run_of_forall_other _ _ (List.forall_mem_map.mpr silent),
    MakeScript.State.run_append, sameCommands, h.run_scriptCommands]
  rfl

end Overwritten

def longFlag : String :=
  "xxxxxxxxxxxxxxxxxxxxxxxxxxxxxxxxxxxxxxxxxxxxxxxxxxxxxxxxxxxxxxxx"

/-- Flags of the size of a chunk. -/
def longFlags : String := String.join (List.replicate 128 longFlag)

theorem newline_notMem_longFlags : '\n' ∉ longFlags.toList := by
  have each : '\n' ∉ longFlag.toList := by decide
  have repeated (count : Nat) : '\n' ∉ (String.join (List.replicate count longFlag)).toList := by
    induction count with
    | zero => decide
    | succ count ih =>
        rw [List.replicate_succ, String.join_cons, String.toList_append, List.mem_append, not_or]
        exact ⟨each, ih⟩
  exact repeated 128

def withConstructor : Class where
  name := "Z"
  constructors := [⟨"Z", []⟩]

def withNamespace : Class where
  name := "A"
  namespaces := ["make"]
  staticMethods := [{ name := "B" }]

/-- A toolbox whose make script has the place of the stub of a static method. -/
def withSharedScript : Toolbox where
  directory := .ofText "T"
  interface := {
    name := "A_B"
    classes := [withConstructor, withNamespace] }
  options := { mexFlags := longFlags }

theorem plan_withSharedScript : withSharedScript.plan = withSharedScript.plan.take 13 ++
    .writeFile (stubPath withSharedScript.directory "make_A_B") (stub "make_A_B" []) ::
      withSharedScript.plan.drop 14 := rfl

/-- Behind the stub follow the section of its class and the last lines. -/
theorem join_textFor_behindStub :
    String.join ((withSharedScript.plan.drop 14).map (Step.textFor .script)) =
      withNamespace.scriptSection longFlags ++ MakeScript.trailer := by
  have inClass := join_scriptText_classSteps withSharedScript withNamespace
  have split : withSharedScript.classSteps withNamespace =
      (withSharedScript.classSteps withNamespace).take 3 ++
        (withSharedScript.plan.drop 14).take 6 := rfl
  have behind : withSharedScript.plan.drop 14 =
      (withSharedScript.plan.drop 14).take 6 ++ withSharedScript.closingSteps := rfl
  have inFront : String.join (((withSharedScript.classSteps withNamespace).take 3).map
      Step.scriptText) = "" := rfl
  rw [split, List.map_append, String.join_append, inFront, String.empty_append] at inClass
  rw [behind, List.map_append, String.join_append]
  exact congrArg₂ (· ++ ·) inClass (by simp [closingSteps, Step.textFor, Step.scriptText])

/-- When the stub is written, all that was appended to the make script is sent, and that is more than
the stub. -/
theorem flushed_inFrontOfStub {start middle : Progress}
    (begun : withSharedScript.start? {} = some start)
    (taken : Step.takeAll false start (withSharedScript.plan.take 13) = (middle, none)) :
    middle.script.buffer = {} ∧ ∃ sent, middle.script.sink = .file sent ∧
      (stub "make_A_B" []).utf8ByteSize ≤ sent := by
  -- The text of the first class fills a chunk.
  have chunk : withSharedScript.plan.take 13 = withSharedScript.plan.take 8 ++
      Step.ofRendering .appendToScript (withConstructor.compileCommands? longFlags) ::
        (withSharedScript.plan.take 13).drop 9 := rfl
  have settled : middle.script.buffer = {} := by
    rw [chunk] at taken
    exact Step.takeAll_buffer .script taken (by decide +kernel) (by decide +kernel)
  obtain ⟨sent, whole, hasSent⟩ := Step.takeAll_continues .script (opened_of_start? begun)
    (by decide +kernel) (fills_of_start? begun .script) taken
  have header : withSharedScript.plan.take 13 =
      .appendToScript MakeScript.header :: (withSharedScript.plan.take 13).drop 1 := rfl
  have waiting : (middle.file .script).buffer.waiting = "" := settled ▸ rfl
  rw [waiting, String.append_empty, String.empty_append, header, List.map_cons, String.join_cons,
    Step.textFor, Step.scriptText] at whole
  have larger : (stub "make_A_B" []).utf8ByteSize ≤ sent.utf8ByteSize := by
    rw [← whole, String.utf8ByteSize_append]
    exact Nat.le_add_right_of_le (by decide +kernel)
  refine ⟨settled, ?_⟩
  cases sink : middle.script.sink with
  | file size =>
      rw [OpenFile.HasSent, Progress.file, sink, Nat.zero_add] at hasSent
      exact ⟨size, rfl, hasSent.1 ▸ larger⟩
  | device =>
      rw [OpenFile.HasSent, Progress.file, sink] at hasSent
      rw [hasSent] at larger
      exact absurd larger (by decide +kernel)

/-- What was sent of the make script is lost to the stub, and zeros stand in front of the rest. -/
theorem find?_script_withSharedScript (completes : (withSharedScript.generate {}).failure = none) :
    ∃ count, (withSharedScript.generate {}).disk.find? withSharedScript.scriptPath.location =
      some (.file (stub "make_A_B" [] ++ String.ofList (List.replicate count '\x00') ++
        (withNamespace.scriptSection longFlags ++ MakeScript.trailer)).toUTF8) := by
  obtain ⟨start, reached, completed⟩ := exists_completes completes
  have taken := completed.taken
  rw [plan_withSharedScript] at taken
  have nonempty : withNamespace.scriptSection longFlags ++ MakeScript.trailer ≠ "" := fun empty =>
    absurd (String.append_eq_empty_iff.mp empty).2 (by decide)
  obtain ⟨middle, offset, first, atOffset, final⟩ := find?_finish_of_writeFile .script
    completed.begins taken (by decide +kernel) (by decide +kernel) (by decide +kernel)
    (join_textFor_behindStub ▸ nonempty) completed.closes none
  obtain ⟨settled, sent, sink, beyond⟩ := flushed_inFrontOfStub completed.begins first
  rw [← atOffset sent sink] at beyond
  have waiting : (middle.file .script).buffer.waiting = "" := settled ▸ rfl
  rw [waiting, String.empty_append, join_textFor_behindStub, overwrite_beyond nonempty beyond] at final
  rw [completed.outcome]
  exact ⟨_, final⟩

/-- A stub goes to the place of the make script when half of that is sent. Only what is compiled behind
it is compiled, one of two files. -/
theorem script_writtenOver : ∃ (toolbox : Toolbox) (disk : Disk),
    Interface.ofText "A_B" false
        "class Z { Z(); }; namespace make { class A { static void B(); }; }///\\namespace" =
      .ok toolbox.interface ∧
    '\n' ∉ toolbox.options.mexFlags.toList ∧ (toolbox.generate disk).failure = none ∧
    ¬ ∃ content,
      (toolbox.generate disk).disk.find? toolbox.scriptPath.location =
        some (.file content.toUTF8) ∧
      ∀ start, MakeScript.CompilesExactly toolbox.directory (toolbox.generate disk).disk
        (toolbox.writtenSources disk) (MakeScript.runText toolbox.directory start content) := by
  have read : Interface.ofText "A_B" false
      "class Z { Z(); }; namespace make { class A { static void B(); }; }///\\namespace" =
    .ok withSharedScript.interface := by decide +kernel
  have completes : (withSharedScript.generate {}).failure = none := by decide +kernel
  have wellFormed := Interface.wellFormed_of_ofText read
  refine ⟨withSharedScript, {}, read, newline_notMem_longFlags, completes, ?_⟩
  rintro ⟨content, found, exactly⟩
  obtain ⟨count, final⟩ := find?_script_withSharedScript completes
  obtain rfl := String.toByteArray_inj.mp (Node.file.inj (Option.some.inj (found.symm.trans final)))
  have compiled := (exactly withSharedScript.directory).compiled
  have stubLines : Text.HasLines (stub "make_A_B" []) ["% " ++ banner,
      "function result = make_A_B()", "  error('need to compile make_A_B.cpp');", "end"] :=
    ⟨by decide +kernel, by decide +kernel⟩
  rw [compiled_section "" (wellFormed withNamespace (by simp [withSharedScript]))
    newline_notMem_longFlags stubLines (by decide +kernel),
    writtenSources_of_completes completes wellFormed] at compiled
  exact absurd compiled (by decide +kernel)

end Toolbox

end MexGlue
