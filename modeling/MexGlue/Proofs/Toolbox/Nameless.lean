import MexGlue.Proofs.Glue.Careful
import MexGlue.Proofs.Toolbox.Regeneration

/-!
# A run that comes to a type without a name

A class with such a type in a constructor has no proxy. Its directory is made all the same, and then
the run stops: it writes nothing for the class and does not check it. The classes in front of it are
done with by then, and nothing that stands behind it matters.
-/

namespace MexGlue

namespace Toolbox

variable {toolbox : Toolbox} {disk : Disk} {earlier later : List Class} {cls : Class}

/-- The operations of a run up to the directory of a class with these ones in front of it. -/
def operationsBeforeProxy (toolbox : Toolbox) (earlier : List Class) (cls : Class) :
    List Operation :=
  openingOperations ++ (toolbox.openingSteps.map .step ++
    earlier.flatMap toolbox.classOperations ++ [.step (.makeDirectory (toolbox.classDirectory cls))])

/-- The steps that these operations take. -/
def stepsBeforeProxy (toolbox : Toolbox) (earlier : List Class) (cls : Class) : List Step :=
  toolbox.openingSteps ++ earlier.flatMap toolbox.classSteps ++
    [.makeDirectory (toolbox.classDirectory cls)]

theorem does_stepsBeforeProxy (toolbox : Toolbox) (earlier : List Class) (cls : Class) :
    toolbox.Does
      (toolbox.openingSteps.map .step ++ earlier.flatMap toolbox.classOperations ++
        [.step (.makeDirectory (toolbox.classDirectory cls))])
      (toolbox.stepsBeforeProxy earlier cls) :=
  ((does_map_step toolbox _).append (does_flatMap (does_classOperations toolbox))).append
    (does_map_step toolbox [.makeDirectory (toolbox.classDirectory cls)])

/-- A class without a proxy stops the run behind its directory. -/
theorem startSteps_of_nameless (h : ¬cls.NamesConstructorTypes) :
    toolbox.startSteps cls =
      [.makeDirectory (toolbox.classDirectory cls), .stop .namelessType] := by
  rw [startSteps, Class.proxy?_eq_none h]
  rfl

theorem exists_operations_split (split : toolbox.interface.classes = earlier ++ cls :: later)
    (h : ¬cls.NamesConstructorTypes) :
    ∃ behind, toolbox.operations = toolbox.operationsBeforeProxy earlier cls ++
      .step (.stop .namelessType) :: .check cls :: behind := by
  simp only [operations, openOperations, split, List.flatMap_append, List.flatMap_cons,
    classOperations, startSteps_of_nameless h, operationsBeforeProxy, List.append_assoc,
    List.map_cons, List.map_nil, List.cons_append, List.nil_append]
  exact ⟨_, rfl⟩

theorem exists_plan_split (split : toolbox.interface.classes = earlier ++ cls :: later)
    (h : ¬cls.NamesConstructorTypes) :
    ∃ behind, toolbox.plan =
      toolbox.stepsBeforeProxy earlier cls ++ .stop .namelessType :: behind := by
  simp only [plan, split, List.flatMap_append, List.flatMap_cons, classSteps_eq,
    startSteps_of_nameless h, stepsBeforeProxy, List.append_assoc, List.cons_append,
    List.nil_append]
  exact ⟨_, rfl⟩

theorem goOn_stepsBeforeProxy (passed : ∀ other ∈ earlier, other.NamesConstructorTypes ∧
    other.verify toolbox.interface.knownTypes = .ok ()) :
    Step.GoOn (toolbox.stepsBeforeProxy earlier cls) := by
  have classes : Step.GoOn (earlier.flatMap toolbox.classSteps) :=
    Step.goOn_flatMap fun other member => goOn_classSteps (passed other member).1
      (passed other member).2
  simp [stepsBeforeProxy, goOn_openingSteps, classes, Step.failure?]

/-! ## The run -/

/-- What it is for a run to stop at a class, with these ones in front of it, before its proxy is
written. -/
structure StopsBeforeProxy (toolbox : Toolbox) (disk : Disk) (earlier : List Class) (cls : Class)
    (state : RunState) : Prop where
  /-- All works up to the directory of the class, for which nothing else is done. -/
  performed : toolbox.performAll (.initial disk) (toolbox.operationsBeforeProxy earlier cls) =
    (state, none)
  /-- The proxy is what stops the run, in front of the check. -/
  next : ∃ behind, toolbox.operations = toolbox.operationsBeforeProxy earlier cls ++
    .step (.stop .namelessType) :: .check cls :: behind
  unchecked : Operation.check cls ∉ toolbox.operationsBeforeProxy earlier cls
  ends : toolbox.generate disk = (toolbox.exit state).outcome (some .namelessType)
  directory : ∀ location ∈ (toolbox.classDirectory cls).trail,
    (toolbox.generate disk).disk.find? location = some .directory

theorem OperationsSucceed.exists_takeAll_beforeProxy (succeed : toolbox.OperationsSucceed disk)
    (split : toolbox.interface.classes = earlier ++ cls :: later)
    (passed : ∀ other ∈ earlier, other.NamesConstructorTypes ∧
      other.verify toolbox.interface.knownTypes = .ok ())
    (nameless : ¬cls.NamesConstructorTypes) :
    ∃ start reached, toolbox.start? disk = some start ∧
      Step.takeAll toolbox.interface.verbose start (toolbox.stepsBeforeProxy earlier cls) =
        (reached, none) := by
  obtain ⟨start, begun, works, -⟩ := succeed.exists_start?
  obtain ⟨behind, planned⟩ := exists_plan_split split nameless
  rw [planned] at works
  obtain ⟨reached, taken, -⟩ := Step.takeAll_of_stop works (goOn_stepsBeforeProxy passed)
  exact ⟨start, reached, begun, taken⟩

theorem find?_of_takeAll_beforeProxy {start reached : Progress}
    (taken : Step.takeAll toolbox.interface.verbose start (toolbox.stepsBeforeProxy earlier cls) =
      (reached, none)) {location : Location}
    (inTrail : location ∈ (toolbox.classDirectory cls).trail) :
    reached.disk.find? location = some .directory := by
  rw [stepsBeforeProxy, Step.takeAll_append] at taken
  rcases front : Step.takeAll toolbox.interface.verbose start
    (toolbox.openingSteps ++ earlier.flatMap toolbox.classSteps) with ⟨middle, _ | failure⟩
  · rw [front] at taken
    obtain ⟨next, made, rest⟩ := Step.takeAll_cons_eq_none.mp taken
    cases rest
    obtain ⟨path, same, works, rfl⟩ | ⟨_, _, other, -⟩ | ⟨_, _, _, other, -⟩ | ⟨_, _, _, other, -⟩ :=
      Step.take_eq_none made
    · cases same
      exact Disk.find?_makeDirectories_of_mem works inTrail
    all_goals cases other
  · rw [front] at taken
    cases taken

/-- A class is not checked for those in front of it that pass. -/
theorem check_notMem_operationsBeforeProxy
    (named : ∀ other ∈ earlier, other.NamesConstructorTypes)
    (nameless : ¬cls.NamesConstructorTypes) :
    Operation.check cls ∉ toolbox.operationsBeforeProxy earlier cls := by
  intro member
  simp only [operationsBeforeProxy, openingOperations, classOperations, List.mem_append,
    List.mem_flatMap, List.mem_cons, List.mem_map, List.not_mem_nil, reduceCtorEq, and_false,
    exists_false, false_or, or_false, Operation.check.injEq] at member
  obtain ⟨other, inEarlier, rfl⟩ := member
  exact nameless (named cls inEarlier)

/-- A class with a type without a name stops a run in which every operation works. -/
theorem OperationsSucceed.exists_stopsBeforeProxy (succeed : toolbox.OperationsSucceed disk)
    (split : toolbox.interface.classes = earlier ++ cls :: later)
    (passed : ∀ other ∈ earlier, other.NamesConstructorTypes ∧
      other.verify toolbox.interface.knownTypes = .ok ())
    (nameless : ¬cls.NamesConstructorTypes) :
    ∃ state, toolbox.StopsBeforeProxy disk earlier cls state := by
  obtain ⟨start, reached, begun, taken⟩ :=
    succeed.exists_takeAll_beforeProxy split passed nameless
  obtain ⟨behind, next⟩ := exists_operations_split split nameless
  have performed : toolbox.performAll (.initial disk) (toolbox.operationsBeforeProxy earlier cls) =
      (reached.runState, none) := by
    rw [operationsBeforeProxy, performAll_append, performAll_openingOperations begun]
    simp only
    rw [does_stepsBeforeProxy toolbox earlier cls start, taken]
  have stops : (toolbox.perform reached.runState (.step (.stop .namelessType))).2 =
      some .namelessType := rfl
  have ends : toolbox.generate disk =
      (toolbox.exit reached.runState).outcome (some .namelessType) := by
    rw [generate_eq_operations, next, performAll_of_fails performed stops]
    rfl
  refine ⟨reached.runState, performed, ⟨behind, next⟩, ?_, ends, fun location inTrail => ?_⟩
  · exact check_notMem_operationsBeforeProxy (fun other member => (passed other member).1) nameless
  · rw [ends]
    exact (sameKinds_exit toolbox reached.runState).symm.grows.directory
      (find?_of_takeAll_beforeProxy taken inTrail)

end Toolbox

/-- Rendering a class fails exactly where a constructor has an argument whose type has no name. The
first such class of an interface stops a run in which every operation works, before its proxy is
written and before it is checked. -/
theorem namelessTypes_exact :
    (∀ (cls : Class) (libraryNamespace mexFlags : String),
      cls.RendersExactly libraryNamespace mexFlags) ∧
    ∀ (toolbox : Toolbox) (disk : Disk) (earlier later : List Class) (cls : Class),
      toolbox.interface.classes = earlier ++ cls :: later →
      (∀ other ∈ earlier, other.NamesConstructorTypes ∧
        other.verify toolbox.interface.knownTypes = .ok ()) →
      ¬cls.NamesConstructorTypes → toolbox.OperationsSucceed disk →
      ∃ state, toolbox.StopsBeforeProxy disk earlier cls state := by
  refine ⟨Class.rendersExactly, fun toolbox disk earlier later cls split passed nameless works => ?_⟩
  exact works.exists_stopsBeforeProxy split passed nameless

/-- The second of two classes has a constructor argument without a type. It would not pass its
check either. -/
theorem namelessTypes_exact_second :
    ∃ (toolbox : Toolbox) (disk : Disk) (first second : Class) (state : RunState),
      toolbox.interface.classes = [first, second] ∧ first.NamesConstructorTypes ∧
      first.verify toolbox.interface.knownTypes = .ok () ∧ ¬second.NamesConstructorTypes ∧
      toolbox.OperationsSucceed disk ∧
      second.verify toolbox.interface.knownTypes = .error ⟨"", "B"⟩ ∧
      toolbox.StopsBeforeProxy disk [first] second state := by
  let first : Class := { name := "A", constructors := [⟨"A", [{ type := "int", name := "n" }]⟩] }
  let second : Class := { name := "B", constructors := [⟨"B", [{ type := "", name := "n" }]⟩] }
  let toolbox : Toolbox :=
    { directory := .ofText "out", interface := { name := "m", classes := [first, second] } }
  have named : first.NamesConstructorTypes := by decide +kernel
  have passes : first.verify toolbox.interface.knownTypes = .ok () := rfl
  have nameless : ¬second.NamesConstructorTypes := by decide +kernel
  have works : toolbox.OperationsSucceed {} := by decide +kernel
  have fails : second.verify toolbox.interface.knownTypes = .error ⟨"", "B"⟩ := rfl
  obtain ⟨state, stops⟩ := namelessTypes_exact.2 toolbox {} [first] [] second rfl
    (List.forall_mem_singleton.mpr ⟨named, passes⟩) nameless works
  exact ⟨toolbox, {}, first, second, state, rfl, named, passes, nameless, works, fails, stops⟩

end MexGlue
