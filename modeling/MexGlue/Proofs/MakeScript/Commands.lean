import MexGlue.Glue.MakeScript
import MexGlue.Proofs.Text.Parts
import MexGlue.Proofs.Toolbox.Completed

/-!
# Running a make script

What matters of a make script is where its commands are run: a line can return to the toolbox
directory, enter a directory below the current one, or compile a C++ file of the current one. A run
keeps record of the directories that it entered, each with the one that it was entered from, and of
the files that it compiled.
-/

namespace MexGlue.MakeScript

inductive Command where
  | toToolbox
  | enter (name : String)
  | compile (source : String)
  /-- A line that neither moves nor compiles. -/
  | other
  deriving DecidableEq, Repr

/-- What a line of a make script does. What is compiled is named last, behind the flags. -/
def Command.ofText (line : String) : Command :=
  if line = "cd(toolboxpath)" then .toToolbox
  else
    match line.toList with
    | 'c' :: 'd' :: ' ' :: name => .enter (String.ofList name)
    | 'm' :: 'e' :: 'x' :: ' ' :: behind =>
        match (Text.words (String.ofList behind)).getLast? with
        | some source => if isSourceName source then .compile source else .other
        | none => .other
    | _ => .other

/-- How far the run of a make script has come. -/
structure State where
  here : Path
  /-- The names of directories entered, each behind the directory that it was entered from. -/
  entered : List (Path × String) := []
  compiled : List Location := []
  deriving DecidableEq, Repr

namespace State

def step (toolbox : Path) (state : State) : Command → State
  | .toToolbox => { state with here := toolbox }
  | .enter name =>
      { state with
        here := state.here.join name
        entered := state.entered ++ [(state.here, name)] }
  | .compile source =>
      { state with compiled := state.compiled ++ [(state.here.join source).location] }
  | .other => state

def run (toolbox : Path) (state : State) (commands : List Command) : State :=
  commands.foldl (step toolbox) state

variable (toolbox : Path) (state : State)

theorem run_append (first second : List Command) :
    state.run toolbox (first ++ second) = (state.run toolbox first).run toolbox second :=
  List.foldl_append

/-- Commands that compile stay where they are. -/
theorem run_compile (sources : List String) :
    state.run toolbox (sources.map .compile) =
      { state with
        compiled := state.compiled ++ sources.map fun source => (state.here.join source).location }
    := by
  induction sources generalizing state with
  | nil => simp [run]
  | cons source sources ih =>
      rw [List.map_cons, run, List.foldl_cons, ← run, ih]
      simp [step]

theorem run_of_forall_other {commands : List Command} (h : ∀ command ∈ commands, command = .other) :
    state.run toolbox commands = state := by
  induction commands with
  | nil => rfl
  | cons command commands ih =>
      obtain ⟨rfl, later⟩ := List.forall_mem_cons.mp h
      exact ih later

end State

/-- Runs the text of a make script of this toolbox from some directory. -/
def runText (toolbox start : Path) (text : String) : State :=
  State.run toolbox ⟨start, [], []⟩ ((Text.lines text).map Command.ofText)

/-! ## Single lines -/

theorem Command.ofText_enter (name : String) : ofText ("cd " ++ name) = .enter name := by
  have line : ("cd " ++ name).toList = 'c' :: 'd' :: ' ' :: name.toList := by simp
  have notReturn : "cd " ++ name ≠ "cd(toolboxpath)" := by
    intro same
    rw [same] at line
    exact absurd line (by simp)
  rw [ofText, if_neg notReturn, line]
  simp

theorem Command.ofText_comment (text : String) : ofText ("%% " ++ text) = .other := by
  have line : ("%% " ++ text).toList = '%' :: '%' :: ' ' :: text.toList := by simp
  have notReturn : "%% " ++ text ≠ "cd(toolboxpath)" := by
    intro same
    rw [same] at line
    exact absurd line (by simp)
  rw [ofText, if_neg notReturn, line]
  rfl

theorem not_mem_compileLine {mexFlags name : String} (flagsLine : '\n' ∉ mexFlags.toList)
    (stem : IsStem name) : '\n' ∉ (compileLine mexFlags name).toList := by
  have free : '\n' ∉ name.toList := stem.word.not_mem rfl
  by_cases noFlags : mexFlags = "" <;> simp [compileLine, noFlags, flagsLine, free]

/-- Whatever the flags are, the last word of the line is what it compiles. -/
theorem Command.ofText_compileLine (mexFlags : String) {name : String} (stem : IsStem name) :
    ofText (compileLine mexFlags name) = .compile (name ++ ".cpp") := by
  have source : Text.IsUnbroken (name ++ ".cpp") := by
    refine ⟨fun empty => stem.nonempty (String.append_eq_empty_iff.mp empty).1, ?_⟩
    rw [String.toList_append, List.mem_append, not_or]
    exact ⟨stem.word.not_mem rfl, by decide⟩
  have line : ∃ behind, compileLine mexFlags name = "mex " ++ behind ∧
      (Text.words behind).getLast? = some (name ++ ".cpp") := by
    by_cases noFlags : mexFlags = ""
    · exact ⟨name ++ ".cpp", by simp [compileLine, noFlags, String.append_assoc],
        by rw [source.words]; rfl⟩
    · refine ⟨mexFlags ++ " " ++ (name ++ ".cpp"), ?_, ?_⟩
      · simp [compileLine, noFlags, String.append_assoc]
      · rw [Text.words_append, source.words, List.getLast?_concat]
  obtain ⟨behind, same, last⟩ := line
  have spelled : ("mex " ++ behind).toList = 'm' :: 'e' :: 'x' :: ' ' :: behind.toList := by simp
  have notReturn : "mex " ++ behind ≠ "cd(toolboxpath)" := by
    intro isReturn
    rw [isReturn] at spelled
    exact absurd spelled (by simp)
  rw [same, ofText, if_neg notReturn, spelled]
  simp only [String.ofList_toList, last, isSourceName_cpp, if_true]

end MexGlue.MakeScript
