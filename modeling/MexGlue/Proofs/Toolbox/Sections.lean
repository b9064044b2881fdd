import MexGlue.Proofs.Toolbox.Completed

/-!
# What a plan appends to the two open files

Only the first and the last steps of a plan and the sections of the classes have a text for the make
script or the Makefile. So each of the two files is its start, the sections in the order of the
classes, and its end.
-/

namespace MexGlue

theorem join_map_flatMap {α β : Type} (items : List α) (steps : α → List β) (text : β → String) :
    String.join ((items.flatMap steps).map text) =
      String.join (items.map fun item => String.join ((steps item).map text)) := by
  induction items with
  | nil => rfl
  | cons item items ih => simp [ih]

namespace Step

/-- Whether steps append nothing to the two open files. -/
def Quiet (steps : List Step) : Prop :=
  ∀ step ∈ steps, step.scriptText = "" ∧ step.makefileText = ""

theorem Quiet.append {first second : List Step} (h : Quiet first) (h' : Quiet second) :
    Quiet (first ++ second) := fun step member =>
  (List.mem_append.mp member).elim (h step) (h' step)

theorem quiet_flatMap {α : Type} {items : List α} {steps : α → List Step}
    (h : ∀ item, Quiet (steps item)) : Quiet (items.flatMap steps) := by
  intro step member
  obtain ⟨item, -, inSteps⟩ := List.mem_flatMap.mp member
  exact h item step inSteps

theorem Quiet.join {steps : List Step} (h : Quiet steps) :
    String.join (steps.map scriptText) = "" ∧ String.join (steps.map makefileText) = "" :=
  ⟨join_map_eq_empty fun step member => (h step member).1,
    join_map_eq_empty fun step member => (h step member).2⟩

theorem quiet_rendered (path : Path) (rendered : Option String) :
    Quiet [ofRendering (.writeFile path) rendered] := by
  intro step member
  rw [List.mem_singleton.mp member]
  cases rendered <;> exact ⟨rfl, rfl⟩

end Step

namespace Class

/-- A class's section of the make script. -/
def scriptSection (mexFlags : String) (cls : Class) : String :=
  MakeScript.sectionTitle cls ++ MakeScript.returnLine ++ (cls.compileCommands? mexFlags).getD ""

/-- A class's section of the Makefile. -/
def makefileSection (cls : Class) : String := Makefile.sectionTitle cls ++ cls.rules?.getD ""

end Class

namespace Toolbox

variable (toolbox : Toolbox) (cls : Class)

theorem quiet_verifySteps (known : List String) : Step.Quiet (verifySteps known cls) := by
  unfold verifySteps
  cases cls.verify known with
  | ok _ => exact nofun
  | error use => exact List.forall_mem_singleton.mpr ⟨rfl, rfl⟩

theorem quiet_constructorSteps (ctor : Constructor) :
    Step.Quiet (toolbox.constructorSteps cls ctor) := by
  unfold constructorSteps
  cases cls.constructorName? ctor with
  | none => exact List.forall_mem_singleton.mpr ⟨rfl, rfl⟩
  | some name => exact (Step.quiet_rendered _ _).append (Step.quiet_rendered _ _)

theorem quiet_glueSteps : Step.Quiet (toolbox.glueSteps cls) := by
  have start : Step.Quiet [.makeDirectory (toolbox.classDirectory cls),
      Step.ofRendering (.writeFile (toolbox.proxyPath cls)) cls.proxy?] :=
    List.forall_mem_cons.mpr ⟨⟨rfl, rfl⟩, Step.quiet_rendered _ _⟩
  refine (((start.append (quiet_verifySteps cls _)).append
    (Step.quiet_flatMap (quiet_constructorSteps toolbox cls))).append
    (Step.quiet_flatMap fun method => ?_)).append (Step.quiet_flatMap fun method => ?_)
  · simp [Step.Quiet, staticMethodSteps, Step.scriptText, Step.makefileText]
  · simp [Step.Quiet, methodSteps, Step.scriptText, Step.makefileText]

theorem join_scriptText_classSteps :
    String.join ((toolbox.classSteps cls).map Step.scriptText) =
      cls.scriptSection toolbox.options.mexFlags := by
  rw [classSteps, List.map_append, String.join_append, (quiet_glueSteps toolbox cls).join.1,
    String.empty_append, Class.scriptSection, sectionSteps]
  cases cls.compileCommands? toolbox.options.mexFlags <;> cases cls.rules? <;>
    simp [Step.ofRendering, Step.scriptText, String.append_assoc]

theorem join_makefileText_classSteps :
    String.join ((toolbox.classSteps cls).map Step.makefileText) = cls.makefileSection := by
  rw [classSteps, List.map_append, String.join_append, (quiet_glueSteps toolbox cls).join.2,
    String.empty_append, Class.makefileSection, sectionSteps]
  cases cls.compileCommands? toolbox.options.mexFlags <;> cases cls.rules? <;>
    simp [Step.ofRendering, Step.makefileText]

/-- All that a plan appends to the make script. -/
theorem join_scriptText_plan :
    String.join (toolbox.plan.map Step.scriptText) =
      MakeScript.header ++
        String.join (toolbox.interface.classes.map
          (Class.scriptSection toolbox.options.mexFlags)) ++ MakeScript.trailer := by
  simp only [plan, List.map_append, String.join_append, join_map_flatMap,
    join_scriptText_classSteps]
  simp [openingSteps, closingSteps, Step.scriptText]

/-- All that a plan appends to the Makefile. -/
theorem join_makefileText_plan :
    String.join (toolbox.plan.map Step.makefileText) =
      Makefile.header toolbox.options.mexExtension toolbox.options.makefileFlags
          toolbox.interface.classes ++
        String.join (toolbox.interface.classes.map Class.makefileSection) ++
        Makefile.cleanRule toolbox.interface.classes := by
  simp only [plan, List.map_append, String.join_append, join_map_flatMap,
    join_makefileText_classSteps]
  simp [openingSteps, closingSteps, Step.makefileText]

end Toolbox

end MexGlue
