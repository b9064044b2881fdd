import Mathlib.Data.List.Basic
import MexGlue.Proofs.Text.Parts
import MexGlue.Proofs.Toolbox.Building

/-!
# The functions of a class

A class has a list of wrapped functions: its constructors, its static methods and its methods. Each
has a stub and a C++ file beside each other, and what the make script and the Makefile compile for a
class goes through the same list. All of it is there if the constructors have names.
-/

namespace MexGlue

theorem mapM_eq_some_map {α β : Type} {f : α → Option β} {g : α → β} {xs : List α}
    (h : ∀ x ∈ xs, f x = some (g x)) : xs.mapM f = some (xs.map g) := by
  induction xs with
  | nil => rfl
  | cons x xs ih =>
      obtain ⟨first, later⟩ := List.forall_mem_cons.mp h
      simp [List.mapM_cons, first, ih later]

/-! ## Words -/

theorem IsName.isStem {name : String} (h : IsName name) : IsStem name :=
  Or.elim h IsLowerName.isStem IsUpperName.isStem

theorem holdsWordChars_repr (n : Nat) : HoldsWordChars n.repr := by
  intro c member
  rw [Nat.toList_repr] at member
  have digit := Nat.isDigit_of_mem_toDigits (by decide) (by decide) member
  simp [Pattern.isWordChar, Char.isAlphanum, digit]

theorem holdsWordChars_qualify {delimiter name : String} {namespaces : List String}
    (joint : HoldsWordChars delimiter)
    (words : ∀ part ∈ namespaces ++ [name], HoldsWordChars part) :
    HoldsWordChars (qualify delimiter namespaces name) := by
  intro c member
  by_contra mark
  rw [Bool.not_eq_true] at mark
  exact Text.not_mem_intercalate (joint.not_mem mark)
    (fun part inParts => (words part inParts).not_mem mark) member

/-! ## Functions and their files -/

/-- A wrapped function: the directory of its files inside the toolbox, its name, and the texts of its
stub and its C++ file. -/
structure GlueFunction where
  inside : Location
  name : String
  stub : String
  source : String
  deriving DecidableEq, Repr

namespace GlueFunction

def stubPlace (function : GlueFunction) : Location := function.inside ++ [function.name ++ ".m"]

def sourcePlace (function : GlueFunction) : Location :=
  function.inside ++ [function.name ++ ".cpp"]

/-- What is compiled for a function, as a path inside the toolbox. -/
def target (function : GlueFunction) : String :=
  "/".intercalate (function.inside ++ [function.name])

def artifacts (function : GlueFunction) : List Artifact :=
  [⟨function.stubPlace, function.stub⟩, ⟨function.sourcePlace, function.source⟩]

end GlueFunction

namespace Class

variable {cls : Class} {ctor : Constructor}

/-! ## Constructors with names -/

/-- The name of a constructor that has one. -/
def constructorName (cls : Class) (ctor : Constructor) : String :=
  (cls.constructorName? ctor).getD ""

/-- The line of a proxy that tries a constructor with a name. -/
def dispatchLine (cls : Class) (ctor : Constructor) : String :=
  (cls.dispatchLine? ctor).getD ""

theorem NamesConstructorTypes.constructorName? (h : cls.NamesConstructorTypes)
    (member : ctor ∈ cls.constructors) :
    cls.constructorName? ctor = some (cls.constructorName ctor) := by
  obtain ⟨name, found⟩ := h.exists_constructorName? member
  rw [constructorName, found, Option.getD_some]

theorem NamesConstructorTypes.constructorNames? (h : cls.NamesConstructorTypes) :
    cls.constructorNames? = some (cls.constructors.map cls.constructorName) :=
  mapM_eq_some_map fun _ member => h.constructorName? member

theorem NamesConstructorTypes.dispatchLine? (h : cls.NamesConstructorTypes)
    (member : ctor ∈ cls.constructors) :
    cls.dispatchLine? ctor = some ("      if " ++ " && ".intercalate ctor.guards ++
      ", obj.self = " ++ cls.constructorName ctor ++ "(" ++ ctor.passedParameters ++ "); end") := by
  rw [Class.dispatchLine?, h.constructorName? member, Option.map_some]

theorem NamesConstructorTypes.proxy? (h : cls.NamesConstructorTypes) :
    cls.proxy? =
      some (Text.unlines (cls.proxyWith (cls.constructors.map cls.dispatchLine))) := by
  have lines : cls.constructors.mapM cls.dispatchLine? =
      some (cls.constructors.map cls.dispatchLine) :=
    mapM_eq_some_map fun ctor member => by
      rw [dispatchLine, h.dispatchLine? member, Option.getD_some]
  rw [Class.proxy?, lines, Option.map_some]

/-! ## Functions -/

def constructorFunction (libraryNamespace : String) (cls : Class) (ctor : Constructor) :
    GlueFunction where
  inside := []
  name := cls.constructorName ctor
  stub := stub (cls.constructorName ctor) (ctor.args.map Argument.name)
  source := cls.mexFile libraryNamespace (cls.constructorBody ctor (cls.constructorName ctor))

def staticMethodFunction (libraryNamespace : String) (cls : Class) (method : StaticMethod) :
    GlueFunction where
  inside := []
  name := cls.staticMethodName method
  stub := cls.staticMethodStub method
  source := cls.staticMethodFile libraryNamespace method

/-- A method's files are beside the proxy. -/
def methodFunction (libraryNamespace : String) (cls : Class) (method : Method) :
    GlueFunction where
  inside := [cls.directory]
  name := method.name
  stub := method.stub
  source := cls.methodFile libraryNamespace method

/-- The functions whose files are in the toolbox directory. -/
def outerFunctions (libraryNamespace : String) (cls : Class) : List GlueFunction :=
  cls.constructors.map (cls.constructorFunction libraryNamespace) ++
    cls.staticMethods.map (cls.staticMethodFunction libraryNamespace)

/-- The functions whose files are in the directory of the class. -/
def innerFunctions (libraryNamespace : String) (cls : Class) : List GlueFunction :=
  cls.methods.map (cls.methodFunction libraryNamespace)

/-- All functions of a class, in the order in which their files are written. -/
def functions (libraryNamespace : String) (cls : Class) : List GlueFunction :=
  cls.outerFunctions libraryNamespace ++ cls.innerFunctions libraryNamespace

variable (libraryNamespace : String)

/-- The constructors of a class that was read have names, and those are words. -/
theorem WellFormed.isStem_constructorName (h : cls.WellFormed) (member : ctor ∈ cls.constructors) :
    IsStem (cls.constructorName ctor) := by
  obtain ⟨name, found, stem⟩ := h.exists_constructorName? member
  rw [constructorName, found]
  exact stem

theorem WellFormed.outerFunction_spec (h : cls.WellFormed) {function : GlueFunction}
    (member : function ∈ cls.outerFunctions libraryNamespace) :
    IsStem function.name ∧ function.inside = [] := by
  rcases List.mem_append.mp member with isConstructor | isStatic
  · obtain ⟨ctor, inClass, rfl⟩ := List.mem_map.mp isConstructor
    exact ⟨h.isStem_constructorName inClass, rfl⟩
  · obtain ⟨method, inClass, rfl⟩ := List.mem_map.mp isStatic
    exact ⟨h.isStem_staticMethodName inClass, rfl⟩

theorem WellFormed.innerFunction_spec (h : cls.WellFormed) {function : GlueFunction}
    (member : function ∈ cls.innerFunctions libraryNamespace) :
    IsStem function.name ∧ function.inside = [cls.directory] := by
  obtain ⟨method, inClass, rfl⟩ := List.mem_map.mp member
  exact ⟨(h.methods method inClass).1.isStem, rfl⟩

/-- The files of a function have a word for their name, and are in the toolbox directory or in that
of the class. -/
theorem WellFormed.function_spec (h : cls.WellFormed) {function : GlueFunction}
    (member : function ∈ cls.functions libraryNamespace) :
    IsStem function.name ∧ (function.inside = [] ∨ function.inside = [cls.directory]) := by
  rcases List.mem_append.mp member with outer | inner
  · exact (h.outerFunction_spec libraryNamespace outer).imp id .inl
  · exact (h.innerFunction_spec libraryNamespace inner).imp id .inr

/-- What the Makefile builds for a class is what its functions are compiled to. -/
theorem NamesConstructorTypes.targets? (h : cls.NamesConstructorTypes) :
    cls.targets? = some ((cls.functions libraryNamespace).map GlueFunction.target) := by
  rw [Class.targets?, h.constructorNames?, Option.map_some]
  simp [functions, outerFunctions, innerFunctions, GlueFunction.target, constructorFunction,
    staticMethodFunction, methodFunction, Function.comp_def]

theorem NamesConstructorTypes.compileCommands? (h : cls.NamesConstructorTypes) (mexFlags : String) :
    cls.compileCommands? mexFlags = some (Text.unlines
      ((cls.outerFunctions libraryNamespace).map
          (fun function => MakeScript.compileLine mexFlags function.name) ++
        ["cd " ++ cls.directory] ++
        (cls.innerFunctions libraryNamespace).map
          fun function => MakeScript.compileLine mexFlags function.name)) := by
  rw [Class.compileCommands?, h.constructorNames?, Option.map_some]
  simp [outerFunctions, innerFunctions, constructorFunction, staticMethodFunction,
    methodFunction, Function.comp_def]

/-! ## Files -/

def proxyArtifact (cls : Class) : Artifact :=
  ⟨[cls.directory, cls.matlabName ++ ".m"],
    Text.unlines (cls.proxyWith (cls.constructors.map cls.dispatchLine))⟩

theorem proxyArtifact_text (cls : Class) : cls.proxyArtifact.text =
    Text.unlines (cls.proxyWith (cls.constructors.map cls.dispatchLine)) := by
  rw [proxyArtifact]

/-- The files of a class that are written as a whole, in the order of writing. -/
def artifacts (cls : Class) : List Artifact :=
  cls.proxyArtifact :: (cls.functions libraryNamespace).flatMap GlueFunction.artifacts

end Class

namespace Layout

/-- A layout has all of its parts, and its files are theirs, in their order. -/
theorem artifacts_of_concat? {parts : List (Option Layout)} {layout : Layout}
    (h : concat? parts = some layout) :
    (∀ part ∈ parts, part.isSome = true) ∧
      layout.artifacts = parts.flatMap fun part => part.elim [] artifacts := by
  induction parts generalizing layout with
  | nil =>
      cases h
      exact ⟨nofun, rfl⟩
  | cons part parts ih =>
      obtain ⟨first, rfl, more⟩ := Option.bind_eq_some_iff.mp h
      obtain ⟨rest, found, rfl⟩ := Option.map_eq_some_iff.mp more
      obtain ⟨present, files⟩ := ih found
      refine ⟨List.forall_mem_cons.mpr ⟨rfl, present⟩, ?_⟩
      rw [List.flatMap_cons, ← files]
      rfl

end Layout

namespace Class

variable {cls : Class} {options : ToolboxOptions} {layout : Layout}

theorem NamesConstructorTypes.constructorLayout? (h : cls.NamesConstructorTypes)
    (libraryNamespace : String) {ctor : Constructor} (member : ctor ∈ cls.constructors) :
    (cls.constructorLayout? libraryNamespace ctor).elim [] Layout.artifacts =
      (cls.constructorFunction libraryNamespace ctor).artifacts := by
  simp only [Class.constructorLayout?, constructorStub?, constructorFile?,
    h.constructorName? member]
  rfl

theorem NamesConstructorTypes.artifacts_of_layout? (h : cls.NamesConstructorTypes)
    (found : cls.layout? options = some layout) :
    layout.artifacts = cls.artifacts options.libraryNamespace := by
  have proxy : cls.proxyLayout?.elim [] Layout.artifacts = [cls.proxyArtifact] := by
    rw [proxyLayout?, h.proxy?]
    rfl
  have sections : (cls.sectionLayout? options.mexFlags).elim [] Layout.artifacts = [] := by
    simp only [sectionLayout?, h.compileCommands? options.libraryNamespace, rules?,
      h.targets? options.libraryNamespace]
    rfl
  have constructors : (cls.constructors.flatMap fun ctor =>
        (cls.constructorLayout? options.libraryNamespace ctor).elim [] Layout.artifacts) =
      cls.constructors.flatMap fun ctor =>
        (cls.constructorFunction options.libraryNamespace ctor).artifacts :=
    List.flatMap_congr fun ctor member => h.constructorLayout? options.libraryNamespace member
  rw [(Layout.artifacts_of_concat? found).2]
  simp only [List.flatMap_append, List.flatMap_map, List.flatMap_singleton, proxy, sections,
    constructors, artifacts, functions, outerFunctions, innerFunctions, List.append_assoc,
    List.append_nil]
  rfl

end Class

/-- The files of a whole toolbox are those of its classes, class by class. -/
theorem Toolbox.artifacts_of_layout? {toolbox : Toolbox} {layout : Layout}
    (named : ∀ cls ∈ toolbox.interface.classes, cls.NamesConstructorTypes)
    (found : toolbox.layout? = some layout) :
    layout.artifacts =
      toolbox.interface.classes.flatMap (Class.artifacts toolbox.options.libraryNamespace) := by
  obtain ⟨present, files⟩ := Layout.artifacts_of_concat? found
  have each : ∀ cls ∈ toolbox.interface.classes,
      (cls.layout? toolbox.options).elim [] Layout.artifacts =
        cls.artifacts toolbox.options.libraryNamespace := by
    intro cls member
    have inParts := List.mem_append_left [some toolbox.closingLayout]
      (List.mem_append_right [some toolbox.openingLayout]
        (List.mem_map_of_mem (f := Class.layout? toolbox.options) member))
    obtain ⟨part, own⟩ := Option.isSome_iff_exists.mp (present _ inParts)
    rw [own]
    exact (named cls member).artifacts_of_layout? own
  rw [files]
  simp only [List.flatMap_append, List.flatMap_map, List.flatMap_singleton,
    List.flatMap_congr each]
  simp [openingLayout, closingLayout]

end MexGlue
