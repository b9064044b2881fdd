import MexGlue.Proofs.Toolbox.Layout
import MexGlue.Proofs.Toolbox.Stops

/-!
# What the steps of a plan build

Every part of a plan builds a part of the layout: the directories that its steps make, the files that
they write and the texts that they append, each in the order of the steps. Parts behind each other
build their layouts behind each other. The classes of an interface that was read have word names, so
every path of their glue leads below the toolbox directory, whatever that is.
-/

namespace MexGlue

/-- What is written to put a file in its place. -/
def Artifact.write (directory : Path) (artifact : Artifact) : Location × String :=
  (directory.location ++ artifact.place, artifact.text)

@[simp] theorem Artifact.write_fst (directory : Path) (artifact : Artifact) :
    (artifact.write directory).1 = directory.location ++ artifact.place := rfl

@[simp] theorem Artifact.write_snd (directory : Path) (artifact : Artifact) :
    (artifact.write directory).2 = artifact.text := rfl

namespace Step

/-- Whether steps make the directories of a layout, write its files and append its texts, in a
toolbox with this directory. -/
structure Builds (directory : Path) (steps : List Step) (layout : Layout) : Prop where
  texts : ∀ step ∈ steps, step.WritesText
  directories : steps.flatMap Step.directories = layout.directories.flatMap fun name =>
    directory.trail ++ [directory.location ++ [name]]
  writes : steps.flatMap Step.writes = layout.artifacts.map (Artifact.write directory)
  script : String.join (steps.map scriptText) = layout.script
  makefile : String.join (steps.map makefileText) = layout.makefile

/-- Whether there is a layout and steps build it. -/
def Makes (directory : Path) (steps : List Step) (layout? : Option Layout) : Prop :=
  ∃ layout, layout? = some layout ∧ Builds directory steps layout

variable {directory : Path}

theorem Builds.append {first second : List Step} {layout layout' : Layout}
    (h : Builds directory first layout) (h' : Builds directory second layout') :
    Builds directory (first ++ second) (layout.append layout') where
  texts step member := (List.mem_append.mp member).elim (h.texts step) (h'.texts step)
  directories := by
    rw [List.flatMap_append, h.directories, h'.directories, Layout.append, List.flatMap_append]
  writes := by rw [List.flatMap_append, h.writes, h'.writes, Layout.append, List.map_append]
  script := by rw [List.map_append, String.join_append, h.script, h'.script, Layout.append]
  makefile := by rw [List.map_append, String.join_append, h.makefile, h'.makefile, Layout.append]

theorem Makes.append {first second : List Step} {layouts layouts' : List (Option Layout)}
    (h : Makes directory first (Layout.concat? layouts))
    (h' : Makes directory second (Layout.concat? layouts')) :
    Makes directory (first ++ second) (Layout.concat? (layouts ++ layouts')) := by
  obtain ⟨layout, found, builds⟩ := h
  obtain ⟨layout', found', builds'⟩ := h'
  refine ⟨layout.append layout', ?_, builds.append builds'⟩
  rw [Layout.concat?_append, found, found']
  rfl

/-- A single part of a layout is a whole one. -/
theorem Makes.single {steps : List Step} {layout? : Option Layout}
    (h : Makes directory steps layout?) : Makes directory steps (Layout.concat? [layout?]) := by
  rw [Layout.concat?_singleton]
  exact h

theorem makes_flatMap {α : Type} {items : List α} {steps : α → List Step}
    {layout? : α → Option Layout} (h : ∀ item ∈ items, Makes directory (steps item) (layout? item)) :
    Makes directory (items.flatMap steps) (Layout.concat? (items.map layout?)) := by
  induction items with
  | nil => exact ⟨{}, rfl, nofun, rfl, rfl, rfl, rfl⟩
  | cons item items ih =>
      obtain ⟨first, later⟩ := List.forall_mem_cons.mp h
      exact first.single.append (ih later)

end Step

namespace Toolbox

variable {toolbox : Toolbox} {cls : Class} {name : String}

/-! ## Paths -/

section Paths

variable {directory : Path}

theorem stubPath_eq (stem : IsStem name) :
    stubPath directory name = directory.below [name ++ ".m"] :=
  Path.join_of_isComponent (stem.isComponent (by decide))

theorem cppPath_eq (stem : IsStem name) :
    cppPath directory name = directory.below [name ++ ".cpp"] :=
  Path.join_of_isComponent (stem.isComponent (by decide))

theorem classDirectory_eq (h : cls.WellFormed) :
    toolbox.classDirectory cls = toolbox.directory.below [cls.directory] :=
  Path.join_of_isComponent h.isComponent_directory

theorem proxyPath_eq (h : cls.WellFormed) :
    toolbox.proxyPath cls = toolbox.directory.below [cls.directory, cls.matlabName ++ ".m"] := by
  rw [proxyPath, classDirectory_eq h,
    Path.join_of_isComponent (h.isStem_matlabName.isComponent (by decide)), Path.below_below]
  rfl

/-- Two files with one stem, in the toolbox directory or below it. -/
theorem builds_ofFunction (directory : Path) (inside : Location) {stub cppFile : String}
    (goesDown : ∀ part ∈ inside, part ≠ Path.up) (stem : IsStem name) (stubText : stub ≠ "")
    (cppText : cppFile ≠ "") :
    Step.Builds directory
      [.writeFile (stubPath (directory.below inside) name) stub,
        .writeFile (cppPath (directory.below inside) name) cppFile]
      (.ofFunction inside name stub cppFile) := by
  have below {ending : String} (noSlash : '/' ∉ ending.toList) :
      (directory.below (inside ++ [name ++ ending])).location =
        directory.location ++ (inside ++ [name ++ ending]) := by
    refine Path.location_below fun part member => ?_
    rcases List.mem_append.mp member with above | last
    · exact goesDown part above
    · rw [List.mem_singleton.mp last]
      exact (stem.isComponent noSlash).goesDown
  rw [stubPath_eq stem, cppPath_eq stem, Path.below_below, Path.below_below]
  refine ⟨?_, rfl, ?_, rfl, rfl⟩
  · simp [Step.WritesText, stubText, cppText]
  · simp [Step.writes, Layout.ofFunction, Artifact.write, below]

end Paths

/-! ## Parts of a plan -/

/-- A text for each of the two open files. -/
theorem builds_texts (directory : Path) (script makefile : String) :
    Step.Builds directory [.appendToScript script, .appendToMakefile makefile]
      { script := script, makefile := makefile } := by
  refine ⟨?_, rfl, rfl, ?_, ?_⟩
  · simp [Step.WritesText]
  · simp [Step.scriptText]
  · simp [Step.makefileText]

theorem makes_openingSteps (toolbox : Toolbox) :
    Step.Makes toolbox.directory toolbox.openingSteps (some toolbox.openingLayout) :=
  ⟨_, rfl, builds_texts _ _ _⟩

theorem makes_closingSteps (toolbox : Toolbox) :
    Step.Makes toolbox.directory toolbox.closingSteps (some toolbox.closingLayout) :=
  ⟨_, rfl, builds_texts _ _ _⟩

theorem makes_startSteps (toolbox : Toolbox) (h : cls.WellFormed) :
    Step.Makes toolbox.directory (toolbox.startSteps cls) cls.proxyLayout? := by
  obtain ⟨proxy, rendered⟩ := h.namesConstructorTypes.exists_proxy?
  have goesDown : ∀ part ∈ [cls.directory, cls.matlabName ++ ".m"], part ≠ Path.up := by
    have file : IsComponent (cls.matlabName ++ ".m") :=
      h.isStem_matlabName.isComponent (by decide)
    simp [h.isComponent_directory.goesDown, file.goesDown]
  refine ⟨_, by rw [Class.proxyLayout?, rendered]; rfl, ?_⟩
  rw [startSteps, rendered, classDirectory_eq h, proxyPath_eq h]
  refine ⟨?_, ?_, ?_, rfl, rfl⟩
  · simp [Step.ofRendering, Step.WritesText, Class.proxy_ne_empty rendered]
  · simp [Step.ofRendering, Step.directories,
      Path.trail_below_singleton h.isComponent_directory.goesDown]
  · simp [Step.ofRendering, Step.writes, Artifact.write, Path.location_below goesDown]

theorem makes_constructorSteps (h : cls.WellFormed) {ctor : Constructor}
    (member : ctor ∈ cls.constructors) :
    Step.Makes toolbox.directory (toolbox.constructorSteps cls ctor)
      (cls.constructorLayout? toolbox.options.libraryNamespace ctor) := by
  obtain ⟨name, named, stem⟩ := h.exists_constructorName? member
  refine ⟨.ofFunction [] name (stub name (ctor.args.map Argument.name))
    (cls.mexFile toolbox.options.libraryNamespace (cls.constructorBody ctor name)), ?_, ?_⟩
  · simp only [Class.constructorLayout?, Class.constructorStub?, Class.constructorFile?, named]
    rfl
  · have builds := builds_ofFunction toolbox.directory [] (by simp) stem
      (stub_ne_empty name (ctor.args.map Argument.name))
      (cls.mexFile_ne_empty toolbox.options.libraryNamespace (cls.constructorBody ctor name))
    rw [Path.below_nil] at builds
    simp only [constructorSteps, Class.constructorStub?, Class.constructorFile?, named]
    exact builds

theorem makes_staticMethodSteps (h : cls.WellFormed) {method : StaticMethod}
    (member : method ∈ cls.staticMethods) :
    Step.Makes toolbox.directory (toolbox.staticMethodSteps cls method)
      (some (cls.staticMethodLayout toolbox.options.libraryNamespace method)) := by
  have stem := h.isStem_staticMethodName member
  have builds := builds_ofFunction toolbox.directory [] (by simp) stem
    (stub_ne_empty (cls.staticMethodName method) (method.args.map Argument.name))
    (cls.mexFile_ne_empty toolbox.options.libraryNamespace (cls.staticMethodBody method))
  rw [Path.below_nil] at builds
  exact ⟨_, rfl, builds⟩

theorem makes_methodSteps (h : cls.WellFormed) {method : Method} (member : method ∈ cls.methods) :
    Step.Makes toolbox.directory (toolbox.methodSteps cls method)
      (some (cls.methodLayout toolbox.options.libraryNamespace method)) := by
  refine ⟨_, rfl, ?_⟩
  rw [methodSteps, classDirectory_eq h]
  refine builds_ofFunction toolbox.directory [cls.directory] ?_
    (h.methods method member).1.isStem (stub_ne_empty _ _) (cls.mexFile_ne_empty _ _)
  simp [h.isComponent_directory.goesDown]

theorem makes_sectionSteps (toolbox : Toolbox) (h : cls.WellFormed) :
    Step.Makes toolbox.directory (toolbox.sectionSteps cls)
      (cls.sectionLayout? toolbox.options.mexFlags) := by
  obtain ⟨commands, commandsRendered⟩ :=
    h.namesConstructorTypes.exists_compileCommands? toolbox.options.mexFlags
  obtain ⟨rules, rulesRendered⟩ := h.namesConstructorTypes.exists_rules?
  refine ⟨_, by simp only [Class.sectionLayout?, commandsRendered, rulesRendered]; rfl, ?_⟩
  rw [sectionSteps, commandsRendered, rulesRendered]
  refine ⟨?_, rfl, rfl, ?_, ?_⟩
  · simp [Step.ofRendering, Step.WritesText]
  · simp [Step.ofRendering, Step.scriptText, String.append_assoc]
  · simp [Step.ofRendering, Step.makefileText]

/-- What is done for a class apart from its check builds its part of the toolbox. -/
theorem makes_uncheckedSteps (toolbox : Toolbox) (h : cls.WellFormed) :
    Step.Makes toolbox.directory (toolbox.startSteps cls ++ toolbox.memberSteps cls)
      (cls.layout? toolbox.options) := by
  have parts := ((((makes_startSteps toolbox h).single.append
    (Step.makes_flatMap fun ctor member => makes_constructorSteps h member)).append
    (Step.makes_flatMap fun method member => makes_staticMethodSteps h member)).append
    (Step.makes_flatMap fun method member => makes_methodSteps h member)).append
    (makes_sectionSteps toolbox h).single
  have steps : toolbox.startSteps cls ++ toolbox.memberSteps cls = toolbox.startSteps cls ++
      cls.constructors.flatMap (toolbox.constructorSteps cls) ++
      cls.staticMethods.flatMap (toolbox.staticMethodSteps cls) ++
      cls.methods.flatMap (toolbox.methodSteps cls) ++ toolbox.sectionSteps cls := by
    simp only [memberSteps, List.append_assoc]
  rw [steps]
  exact parts

/-- The steps of a class that passes its check build its part of the toolbox. -/
theorem makes_classSteps (h : cls.WellFormed)
    (passes : cls.verify toolbox.interface.knownTypes = .ok ()) :
    Step.Makes toolbox.directory (toolbox.classSteps cls) (cls.layout? toolbox.options) := by
  rw [classSteps_eq, verifySteps, passes]
  exact makes_uncheckedSteps toolbox h

/-! ## The plan -/

/-- Behind the starts of the make script and the Makefile, neither of them is empty. -/
theorem nonempty_of_concat? {parts : List (Option Layout)} {layout : Layout}
    (h : Layout.concat? (some toolbox.openingLayout :: parts) = some layout) :
    layout.script ≠ "" ∧ layout.makefile ≠ "" := by
  obtain ⟨rest, -, rfl⟩ := Option.map_eq_some_iff.mp h
  have script : toolbox.openingLayout.script ≠ "" := Text.unlines_ne_empty (by simp)
  have makefile : toolbox.openingLayout.makefile ≠ "" := Text.unlines_ne_empty (by simp)
  constructor
  · exact fun empty => script (String.append_eq_empty_iff.mp empty).1
  · exact fun empty => makefile (String.append_eq_empty_iff.mp empty).1

theorem makes_classesSteps {classes : List Class} (h : ∀ cls ∈ classes, cls.WellFormed)
    (pass : ∀ cls ∈ classes, cls.verify toolbox.interface.knownTypes = .ok ()) :
    Step.Makes toolbox.directory (toolbox.openingSteps ++ classes.flatMap toolbox.classSteps)
      (Layout.concat? ([some toolbox.openingLayout] ++
        classes.map (Class.layout? toolbox.options))) :=
  (makes_openingSteps toolbox).single.append
    (Step.makes_flatMap fun cls member => makes_classSteps (h cls member) (pass cls member))

theorem makes_plan (h : toolbox.interface.WellFormed)
    (pass : ∀ cls ∈ toolbox.interface.classes,
      cls.verify toolbox.interface.knownTypes = .ok ()) :
    Step.Makes toolbox.directory toolbox.plan toolbox.layout? :=
  (makes_classesSteps h pass).append (makes_closingSteps toolbox).single

/-- The steps in front of the check of a class. -/
def stepsUntil (toolbox : Toolbox) (number : Nat) (cls : Class) : List Step :=
  toolbox.openingSteps ++ (toolbox.interface.classes.take number).flatMap toolbox.classSteps ++
    toolbox.startSteps cls

theorem makes_stepsUntil (h : toolbox.interface.WellFormed) {number : Nat}
    (member : cls ∈ toolbox.interface.classes)
    (earlier : ∀ other ∈ toolbox.interface.classes.take number,
      other.verify toolbox.interface.knownTypes = .ok ()) :
    Step.Makes toolbox.directory (toolbox.stepsUntil number cls)
      (toolbox.layoutUntil? number cls) := by
  have classes := makes_classesSteps (fun other inTake => h other (List.mem_of_mem_take inTake))
    earlier
  exact classes.append (makes_startSteps toolbox (h cls member)).single

theorem goOn_stepsUntil (h : toolbox.interface.WellFormed) {number : Nat}
    (member : cls ∈ toolbox.interface.classes)
    (earlier : ∀ other ∈ toolbox.interface.classes.take number,
      other.verify toolbox.interface.knownTypes = .ok ()) :
    Step.GoOn (toolbox.stepsUntil number cls) := by
  rw [stepsUntil, Step.goOn_append, Step.goOn_append]
  refine ⟨⟨goOn_openingSteps toolbox, Step.goOn_flatMap fun other inTake => ?_⟩, ?_⟩
  · exact goOn_classSteps (h other (List.mem_of_mem_take inTake)).namesConstructorTypes
      (earlier other inTake)
  · exact goOn_startSteps (h cls member).namesConstructorTypes

/-- A plan with a class that does not pass its check stops right behind the class's proxy. -/
theorem exists_plan_eq {number : Nat} {use : TypeUse}
    (atNumber : toolbox.interface.classes[number]? = some cls)
    (fails : cls.verify toolbox.interface.knownTypes = .error use) :
    ∃ rest, toolbox.plan =
      toolbox.stepsUntil number cls ++ .stop (.missingDependency use) :: rest := by
  obtain ⟨bound, found⟩ := List.getElem?_eq_some_iff.mp atNumber
  have whole : toolbox.interface.classes.take number ++
      cls :: toolbox.interface.classes.drop (number + 1) = toolbox.interface.classes := by
    rw [← found, List.getElem_cons_drop, List.take_append_drop]
  have classes : toolbox.interface.classes.flatMap toolbox.classSteps =
      (toolbox.interface.classes.take number).flatMap toolbox.classSteps ++
        (toolbox.classSteps cls ++
          (toolbox.interface.classes.drop (number + 1)).flatMap toolbox.classSteps) := by
    rw [← List.flatMap_cons, ← List.flatMap_append, whole]
  have split : toolbox.classSteps cls = toolbox.startSteps cls ++
      .stop (.missingDependency use) :: toolbox.memberSteps cls := by
    rw [classSteps_eq, verifySteps, fails]
    rfl
  refine ⟨toolbox.memberSteps cls ++
    (toolbox.interface.classes.drop (number + 1)).flatMap toolbox.classSteps ++
    toolbox.closingSteps, ?_⟩
  rw [plan, classes, split, stepsUntil]
  simp only [List.append_assoc, List.cons_append]

end Toolbox

end MexGlue
