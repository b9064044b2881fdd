import MexGlue.Proofs.Toolbox.Operations
import MexGlue.Proofs.Toolbox.Rendering

/-!
# Where a plan stops

A plan has a step that stops the run where a constructor has no name or a class does not pass its
check. If all constructors have names, only checks are left, and they stop a plan at the use that
the check of the whole interface reports.
-/

namespace MexGlue

/-- Why a run ends at a check with this result, if it does. -/
def Failure.ofCheck : Except TypeUse Unit → Option Failure
  | .ok () => none
  | .error use => some (.missingDependency use)

namespace Failure

@[simp] theorem ofCheck_eq_none_iff {result : Except TypeUse Unit} :
    ofCheck result = none ↔ result = .ok () := by
  cases result <;> simp [ofCheck]

theorem ofCheck_eq_some_iff {result : Except TypeUse Unit} {use : TypeUse} :
    ofCheck result = some (.missingDependency use) ↔ result = .error use := by
  cases result <;> simp [ofCheck]

theorem ofCheck_check (known : List String) (uses : List TypeUse) :
    ofCheck (TypeUse.check known uses) =
      (uses.find? fun use => !known.contains use.typeName).map .missingDependency := by
  unfold TypeUse.check
  cases uses.find? fun use => !known.contains use.typeName <;> rfl

/-- The check of an interface ends as that of its first class that does not pass. -/
theorem ofCheck_verify (interface : Interface) : ofCheck interface.verify =
    interface.classes.findSome? fun cls => ofCheck (cls.verify interface.knownTypes) := by
  rw [Interface.verify, ofCheck_check, List.find?_flatMap, List.map_findSome?]
  congr 1
  funext cls
  rw [Class.verify, ofCheck_check]
  rfl

end Failure

namespace Step

/-- Whether no step is there to stop the run. -/
def GoOn (steps : List Step) : Prop := ∀ step ∈ steps, step.failure? = none

@[simp] theorem goOn_nil : GoOn [] := nofun

@[simp] theorem goOn_cons {step : Step} {steps : List Step} :
    GoOn (step :: steps) ↔ step.failure? = none ∧ GoOn steps := by
  simp [GoOn]

@[simp] theorem goOn_append {first second : List Step} :
    GoOn (first ++ second) ↔ GoOn first ∧ GoOn second := by
  simp [GoOn, or_imp, forall_and]

theorem goOn_flatMap {α : Type} {items : List α} {steps : α → List Step}
    (h : ∀ item ∈ items, GoOn (steps item)) : GoOn (items.flatMap steps) := by
  intro step member
  obtain ⟨item, inItems, inSteps⟩ := List.mem_flatMap.mp member
  exact h item inItems step inSteps

/-- The first stop is the first one among those of the single items. -/
theorem findSome?_flatMap {α : Type} {items : List α} {steps : α → List Step}
    {failure : α → Option Failure}
    (h : ∀ item ∈ items, (steps item).findSome? failure? = failure item) :
    (items.flatMap steps).findSome? failure? = items.findSome? failure := by
  induction items with
  | nil => rfl
  | cons item items ih =>
      obtain ⟨first, later⟩ := List.forall_mem_cons.mp h
      rw [List.flatMap_cons, List.findSome?_append, first, ih later, List.findSome?_cons]
      cases failure item <;> rfl

theorem GoOn.findSome? {steps : List Step} (h : GoOn steps) : steps.findSome? failure? = none :=
  List.findSome?_eq_none_iff.mpr h

/-- Steps that are all taken are none that stop. -/
theorem goOn_of_takeAll {verbose : Bool} {progress reached : Progress} {steps : List Step}
    (h : takeAll verbose progress steps = (reached, none)) : GoOn steps := by
  induction steps generalizing progress with
  | nil => exact goOn_nil
  | cons step steps ih =>
      obtain ⟨next, taken, rest⟩ := takeAll_cons_eq_none.mp h
      refine goOn_cons.mpr ⟨?_, ih rest⟩
      rcases take_eq_none taken with ⟨_, rfl, -⟩ | ⟨_, _, rfl, -⟩ | ⟨_, _, _, rfl, -⟩ |
        ⟨_, _, _, rfl, -⟩ <;> rfl

end Step

namespace Toolbox

variable {toolbox : Toolbox} {cls : Class}

/-- What is done for a class before it is checked. -/
def startSteps (toolbox : Toolbox) (cls : Class) : List Step :=
  [.makeDirectory (toolbox.classDirectory cls),
    Step.ofRendering (.writeFile (toolbox.proxyPath cls)) cls.proxy?]

/-- What is done for a class once it has passed its check. -/
def memberSteps (toolbox : Toolbox) (cls : Class) : List Step :=
  cls.constructors.flatMap (toolbox.constructorSteps cls) ++
    cls.staticMethods.flatMap (toolbox.staticMethodSteps cls) ++
    cls.methods.flatMap (toolbox.methodSteps cls) ++ toolbox.sectionSteps cls

theorem classSteps_eq (toolbox : Toolbox) (cls : Class) : toolbox.classSteps cls =
    toolbox.startSteps cls ++ (verifySteps toolbox.interface.knownTypes cls ++
      toolbox.memberSteps cls) := by
  simp only [classSteps, glueSteps, startSteps, memberSteps, List.append_assoc]

theorem goOn_openingSteps (toolbox : Toolbox) : Step.GoOn toolbox.openingSteps := by
  simp [openingSteps, Step.failure?]

theorem goOn_closingSteps (toolbox : Toolbox) : Step.GoOn toolbox.closingSteps := by
  simp [closingSteps, Step.failure?]

theorem goOn_startSteps (h : cls.NamesConstructorTypes) : Step.GoOn (toolbox.startSteps cls) := by
  obtain ⟨proxy, rendered⟩ := h.exists_proxy?
  simp [startSteps, rendered, Step.ofRendering, Step.failure?]

theorem goOn_constructorSteps (h : cls.NamesConstructorTypes) {ctor : Constructor}
    (member : ctor ∈ cls.constructors) : Step.GoOn (toolbox.constructorSteps cls ctor) := by
  obtain ⟨name, named⟩ := h.exists_constructorName? member
  simp [constructorSteps, Class.constructorStub?, Class.constructorFile?, named, Step.ofRendering,
    Step.failure?]

theorem goOn_sectionSteps (h : cls.NamesConstructorTypes) :
    Step.GoOn (toolbox.sectionSteps cls) := by
  obtain ⟨commands, commandsRendered⟩ :=
    h.exists_compileCommands? toolbox.options.mexFlags
  obtain ⟨rules, rulesRendered⟩ := h.exists_rules?
  simp [sectionSteps, commandsRendered, rulesRendered, Step.ofRendering, Step.failure?]

/-- Past its check, a class whose constructors have names stops nothing. -/
theorem goOn_memberSteps (h : cls.NamesConstructorTypes) :
    Step.GoOn (toolbox.memberSteps cls) := by
  rw [memberSteps]
  simp only [Step.goOn_append]
  refine ⟨⟨⟨?_, ?_⟩, ?_⟩, goOn_sectionSteps h⟩
  · exact Step.goOn_flatMap fun ctor member => goOn_constructorSteps h member
  · exact Step.goOn_flatMap fun method _ => by simp [staticMethodSteps, Step.failure?]
  · exact Step.goOn_flatMap fun method _ => by simp [methodSteps, Step.failure?]

theorem findSome?_verifySteps (known : List String) (cls : Class) :
    (verifySteps known cls).findSome? Step.failure? = Failure.ofCheck (cls.verify known) := by
  unfold verifySteps
  cases cls.verify known <;> rfl

theorem findSome?_classSteps (h : cls.NamesConstructorTypes) :
    (toolbox.classSteps cls).findSome? Step.failure? =
      Failure.ofCheck (cls.verify toolbox.interface.knownTypes) := by
  rw [classSteps_eq, List.findSome?_append, List.findSome?_append, (goOn_startSteps h).findSome?,
    (goOn_memberSteps h).findSome?, findSome?_verifySteps, Option.none_or, Option.or_none]

theorem goOn_classSteps (h : cls.NamesConstructorTypes)
    (passes : cls.verify toolbox.interface.knownTypes = .ok ()) :
    Step.GoOn (toolbox.classSteps cls) := by
  refine List.findSome?_eq_none_iff.mp ?_
  rw [findSome?_classSteps h, Failure.ofCheck_eq_none_iff, passes]

/-- The first stop of a plan is where the check of the interface fails. -/
theorem findSome?_plan (h : ∀ cls ∈ toolbox.interface.classes, cls.NamesConstructorTypes) :
    toolbox.plan.findSome? Step.failure? = Failure.ofCheck toolbox.interface.verify := by
  have classes : (toolbox.interface.classes.flatMap toolbox.classSteps).findSome? Step.failure? =
      toolbox.interface.classes.findSome? fun cls =>
        Failure.ofCheck (cls.verify toolbox.interface.knownTypes) :=
    Step.findSome?_flatMap fun cls member => findSome?_classSteps (h cls member)
  rw [plan, List.findSome?_append, List.findSome?_append, (goOn_openingSteps toolbox).findSome?,
    (goOn_closingSteps toolbox).findSome?, classes, Failure.ofCheck_verify, Option.none_or,
    Option.or_none]

end Toolbox

end MexGlue
