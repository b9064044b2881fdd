import MexGlue.Proofs.Glue.MexFunction
import MexGlue.Proofs.Glue.Proxy
import MexGlue.Proofs.Toolbox.Completed

/-!
# Generated files refer to generated files

What the files of a completed run refer to is there: a class that a proxy asks for is built in or has
a proxy of its own, a function that a proxy calls has its two files, and a C++ file refers to
classes with proxies only, under both of their names. Types are checked by their names in C++, and
every name of the other side is joined from the path that passed the check. Nothing is left out: what
the members of a class use is referred to in the files that are written for them.
-/

namespace MexGlue

/-! ## Classes that are found -/

/-- The classes of the other side that need no proxy. -/
def Matlab.builtInClasses : List String := ["char", "logical", "numeric", "double"]

/-- No class of an interface is called as one of these, whatever namespaces it is in. -/
theorem IsUpperName.qualify_not_mem_builtInClasses {name : String} (h : IsUpperName name)
    (namespaces : List String) : qualify "_" namespaces name ∉ Matlab.builtInClasses := by
  obtain ⟨first, rest, spelled, capital, -⟩ := h.1
  obtain ⟨front, whole⟩ := exists_qualify_eq_append "_" namespaces name
  have small : ∀ text ∈ Matlab.builtInClasses, text.toList.any Char.isUpper = false := by decide
  intro member
  have large : (qualify "_" namespaces name).toList.any Char.isUpper = true :=
    List.any_eq_true.mpr ⟨first, by simp [whole, spelled], capital⟩
  rw [small _ member] at large
  cases large

/-- Whether an interface declares a class that has this path under every delimiter. -/
def Interface.DeclaresPath (interface : Interface) (path : String → String) : Prop :=
  ∃ cls ∈ interface.classes, ∀ delimiter, path delimiter = cls.qualifiedName delimiter

theorem isBuiltIn_isClass {arg : Argument} (h : IsBuiltIn arg.namespaces arg.type) :
    arg.isClass = false := by
  rcases h.2 with ⟨t, same⟩ | ⟨t, same⟩
  · rw [Argument.isClass, isBasisName, ← same, t.ofName?_spelling]
    rfl
  · rw [Argument.isClass, isContainerName, ← same, t.ofName?_spelling, Option.isSome_some,
      Bool.not_true, Bool.and_false]

section Found

variable {interface : Interface}

theorem Interface.Declares.declaresPath {namespaces : List String} {name : String}
    (h : interface.Declares namespaces name) :
    interface.DeclaresPath fun delimiter => qualify delimiter namespaces name := by
  obtain ⟨cls, member, rfl, rfl⟩ := h
  exact ⟨cls, member, fun _ => rfl⟩

theorem Interface.ResolvesArgument.declaresPath {arg : Argument}
    (h : interface.ResolvesArgument arg) (isClass : arg.isClass = true) :
    interface.DeclaresPath arg.qualifiedType := by
  rcases h with builtIn | declared
  · rw [isBuiltIn_isClass builtIn] at isClass
    cases isClass
  · exact declared.declaresPath

/-- The class of an argument on the other side is built in, or that of a declared class. -/
theorem Interface.ResolvesArgument.matlabClass {arg : Argument}
    (h : interface.ResolvesArgument arg) :
    arg.matlabClass ∈ Matlab.builtInClasses ∨
      ∃ cls ∈ interface.classes, arg.matlabClass = cls.matlabName := by
  cases basis : BasisType.ofName? arg.type with
  | some t =>
      left
      simp only [Argument.matlabClass, basis]
      cases t <;> decide
  | none =>
      cases container : isContainerName arg.type with
      | true =>
          left
          simp only [Argument.matlabClass, basis, container, if_true]
          decide
      | false =>
          have isClass : arg.isClass = true := by
            simp [Argument.isClass, isBasisName, basis, container]
          obtain ⟨cls, member, same⟩ := h.declaresPath isClass
          right
          refine ⟨cls, member, ?_⟩
          rw [arg.matlabClass_of_isClass isClass]
          exact same "_"

theorem Interface.DeclaresPath.exists_mexReference {path : String → String}
    (h : interface.DeclaresPath path) :
    ∃ cls ∈ interface.classes, (⟨some (path "::"), path "_"⟩ : Mex.Reference) = cls.mexReference := by
  obtain ⟨cls, member, same⟩ := h
  exact ⟨cls, member, by rw [same, same]; rfl⟩

theorem Interface.ResolvesArgument.mexReferences {arg : Argument}
    (h : interface.ResolvesArgument arg) :
    ∀ reference ∈ arg.mexReferences, ∃ cls ∈ interface.classes, reference = cls.mexReference := by
  rw [Argument.mexReferences]
  split
  · rename_i isClass
    exact List.forall_mem_singleton.mpr (h.declaresPath isClass).exists_mexReference
  · exact List.forall_mem_nil _

theorem Interface.ResolvesReturn.mexReferences {value : ReturnValue}
    (h : interface.ResolvesReturn value) :
    ∀ reference ∈ value.slots.flatMap ReturnSlot.mexReferences,
      ∃ cls ∈ interface.classes, reference = cls.mexReference := by
  intro reference member
  obtain ⟨slot, inSlots, inSlot⟩ := List.mem_flatMap.mp member
  rw [ReturnSlot.mexReferences] at inSlot
  split at inSlot
  · rename_i isClass
    rw [List.mem_singleton.mp inSlot]
    exact (h slot inSlots (eq_of_beq isClass)).declaresPath.exists_mexReference
  · cases inSlot

/-- If an interface is accepted, all types that its classes use are there. -/
theorem Interface.resolvesClass_of_verify (wellFormed : interface.WellFormed)
    (verified : interface.verify = .ok ()) :
    ∀ cls ∈ interface.classes, interface.ResolvesClass cls := by
  refine Interface.forall_resolves_iff.mp fun place reference found => ?_
  rw [← Interface.mem_knownTypes_iff_resolves wellFormed (wellFormed.reference found)]
  exact Interface.verify_eq_ok_iff.mp verified place reference found

end Found

/-! ## Functions -/

namespace Class.WellFormed

variable {interface : Interface} {cls : Class} {libraryNamespace : String}
  {function : GlueFunction}

theorem exists_stub (h : cls.WellFormed) (member : function ∈ cls.functions libraryNamespace) :
    ∃ parameters, function.stub = stub function.name parameters ∧
      ∀ parameter ∈ parameters, IsStem parameter := by
  have names {args : List Argument} (wellFormed : ∀ arg ∈ args, arg.WellFormed) :
      ∀ parameter ∈ args.map Argument.name, IsStem parameter :=
    List.forall_mem_map.mpr fun arg inArgs => (wellFormed arg inArgs).name.isStem
  rcases List.mem_append.mp member with outer | inner
  · rcases List.mem_append.mp outer with isConstructor | isStatic
    · obtain ⟨ctor, inClass, rfl⟩ := List.mem_map.mp isConstructor
      exact ⟨_, rfl, names (h.constructors ctor inClass).2⟩
    · obtain ⟨method, inClass, rfl⟩ := List.mem_map.mp isStatic
      exact ⟨_, rfl, names (h.staticMethods method inClass).2.1⟩
  · obtain ⟨method, inClass, rfl⟩ := List.mem_map.mp inner
    have object : IsStem "obj" := ⟨List.all_eq_true.mp rfl, by decide⟩
    exact ⟨_, rfl, List.forall_mem_cons.mpr ⟨object, names (h.methods method inClass).2.1⟩⟩

/-- The C++ file of a function refers to classes of the interface only. -/
theorem references_source (h : cls.WellFormed) (declared : cls ∈ interface.classes)
    (resolves : interface.ResolvesClass cls)
    (member : function ∈ cls.functions libraryNamespace) :
    ∀ reference ∈ Mex.references function.source,
      ∃ other ∈ interface.classes, reference = other.mexReference := by
  have own : ∀ reference ∈ [cls.mexReference],
      ∃ other ∈ interface.classes, reference = other.mexReference :=
    List.forall_mem_singleton.mpr ⟨cls, declared, rfl⟩
  have arguments {args : List Argument} (resolved : ∀ arg ∈ args, interface.ResolvesArgument arg) :
      ∀ reference ∈ args.flatMap Argument.mexReferences,
        ∃ other ∈ interface.classes, reference = other.mexReference := by
    intro reference inArgs
    obtain ⟨arg, inArgs, inArg⟩ := List.mem_flatMap.mp inArgs
    exact (resolved arg inArgs).mexReferences reference inArg
  rcases List.mem_append.mp member with outer | inner
  · rcases List.mem_append.mp outer with isConstructor | isStatic
    · obtain ⟨ctor, inClass, rfl⟩ := List.mem_map.mp isConstructor
      have references := (h.tells_constructorBody inClass).references_mexFile libraryNamespace cls
      rw [constructorFunction, references]
      exact List.forall_mem_append.mpr
        ⟨arguments (resolves.constructorArguments ctor inClass), own⟩
    · obtain ⟨method, inClass, rfl⟩ := List.mem_map.mp isStatic
      have references := (h.tells_staticMethodBody inClass).references_mexFile libraryNamespace cls
      rw [staticMethodFunction, staticMethodFile, references]
      exact List.forall_mem_append.mpr
        ⟨arguments (resolves.staticArguments method inClass),
          (resolves.staticReturns method inClass).mexReferences⟩
  · obtain ⟨method, inClass, rfl⟩ := List.mem_map.mp inner
    have references := (h.tells_methodBody inClass).references_mexFile libraryNamespace cls
    rw [methodFunction, methodFile, references]
    exact List.forall_mem_append.mpr ⟨List.forall_mem_append.mpr
      ⟨own, arguments (resolves.methodArguments method inClass)⟩,
        (resolves.methodReturns method inClass).mexReferences⟩

/-- A proxy asks for built-in classes and classes of the interface only. -/
theorem guards_proxy_found (h : cls.WellFormed) (resolves : interface.ResolvesClass cls) :
    ∀ name ∈ Matlab.guards cls.proxyArtifact.text,
      name ∈ Matlab.builtInClasses ∨ ∃ other ∈ interface.classes, name = other.matlabName := by
  rw [h.guards_proxy]
  intro name member
  obtain ⟨ctor, inClass, inCtor⟩ := List.mem_flatMap.mp member
  obtain ⟨arg, inArgs, rfl⟩ := List.mem_map.mp inCtor
  exact (resolves.constructorArguments ctor inClass arg inArgs).matlabClass

end Class.WellFormed

/-! ## Files of a run -/

namespace Toolbox

variable {toolbox : Toolbox} {disk : Disk} {files : List (Location × String)}

/-- Whether the proxy of a class is among these files, in the directory of its name. -/
def HoldsProxy (toolbox : Toolbox) (files : List (Location × String)) (cls : Class) : Prop :=
  ∃ text, (toolbox.directory.location ++ ["@" ++ cls.matlabName, cls.matlabName ++ ".m"], text) ∈
    files ∧ Matlab.DeclaresClass text cls.matlabName

/-- Whether both files of a function are among these, under its name. -/
def HoldsFunction (toolbox : Toolbox) (files : List (Location × String)) (name : String) : Prop :=
  (∃ text, (toolbox.directory.location ++ [name ++ ".m"], text) ∈ files ∧
      Matlab.DeclaresFunction text name) ∧
    ∃ text, (toolbox.directory.location ++ [name ++ ".cpp"], text) ∈ files

/-- Whether all that a file refers to is built in or among these files. -/
structure RefersTo (toolbox : Toolbox) (files : List (Location × String))
    (file : Location × String) : Prop where
  guards : isSource file.1 = false → ∀ name ∈ Matlab.guards file.2,
    name ∈ Matlab.builtInClasses ∨
      ∃ cls ∈ toolbox.interface.classes, name = cls.matlabName ∧ toolbox.HoldsProxy files cls
  calls : isSource file.1 = false → ∀ name ∈ Matlab.calls file.2, toolbox.HoldsFunction files name
  references : isSource file.1 = true → ∀ reference ∈ Mex.references file.2,
    ∃ cls ∈ toolbox.interface.classes,
      reference = ⟨some cls.cppName, cls.matlabName⟩ ∧ toolbox.HoldsProxy files cls

/-- Whether the files of a class refer to all that its members use, each file in their order. -/
structure HoldsReferences (toolbox : Toolbox) (files : List (Location × String)) (cls : Class) :
    Prop where
  proxy : ∃ text,
    (toolbox.directory.location ++ ["@" ++ cls.matlabName, cls.matlabName ++ ".m"], text) ∈ files ∧
    Matlab.guards text = (cls.constructors.flatMap fun ctor => ctor.args.map Argument.matlabClass) ∧
    Matlab.calls text = cls.constructors.map cls.constructorName
  constructors : ∀ ctor ∈ cls.constructors, ∃ text,
    (toolbox.directory.location ++ [cls.constructorName ctor ++ ".cpp"], text) ∈ files ∧
    Mex.references text = ctor.args.flatMap Argument.mexReferences ++ [cls.mexReference]
  staticMethods : ∀ method ∈ cls.staticMethods, ∃ text,
    (toolbox.directory.location ++ [cls.staticMethodName method ++ ".cpp"], text) ∈ files ∧
    Mex.references text = method.args.flatMap Argument.mexReferences ++
      method.returnValue.slots.flatMap ReturnSlot.mexReferences
  methods : ∀ method ∈ cls.methods, ∃ text,
    (toolbox.directory.location ++ ["@" ++ cls.matlabName, method.name ++ ".cpp"], text) ∈ files ∧
    Mex.references text = [cls.mexReference] ++ method.args.flatMap Argument.mexReferences ++
      method.returnValue.slots.flatMap ReturnSlot.mexReferences

/-- If no step of a run stops, all types that its classes use are there. -/
theorem Completes.resolvesClass {start reached : Progress}
    (h : toolbox.Completes disk start reached) (wellFormed : toolbox.interface.WellFormed) :
    ∀ cls ∈ toolbox.interface.classes, toolbox.interface.ResolvesClass cls := by
  refine Interface.resolvesClass_of_verify wellFormed ?_
  rw [← Failure.ofCheck_eq_none_iff,
    ← findSome?_plan fun cls member => (wellFormed cls member).namesConstructorTypes]
  exact (Step.goOn_of_takeAll h.taken).findSome?

theorem mem_written_iff (h : (toolbox.generate disk).failure = none)
    (wellFormed : toolbox.interface.WellFormed) {file : Location × String} :
    file ∈ toolbox.written disk ↔ ∃ cls ∈ toolbox.interface.classes,
      ∃ artifact ∈ cls.artifacts toolbox.options.libraryNamespace,
        artifact.write toolbox.directory = file := by
  rw [written_of_completes h wellFormed, List.mem_map]
  simp only [List.mem_flatMap]
  constructor
  · rintro ⟨artifact, ⟨cls, member, inClass⟩, written⟩
    exact ⟨cls, member, artifact, inClass, written⟩
  · rintro ⟨cls, member, artifact, inClass, written⟩
    exact ⟨artifact, ⟨cls, member, inClass⟩, written⟩

section Written

variable {cls : Class} {function : GlueFunction}

theorem proxy_written (h : (toolbox.generate disk).failure = none)
    (wellFormed : toolbox.interface.WellFormed) (member : cls ∈ toolbox.interface.classes) :
    cls.proxyArtifact.write toolbox.directory ∈ toolbox.written disk :=
  (mem_written_iff h wellFormed).mpr ⟨cls, member, cls.proxyArtifact, List.mem_cons_self, rfl⟩

/-- A completed run has written both files of every function. -/
theorem function_written (h : (toolbox.generate disk).failure = none)
    (wellFormed : toolbox.interface.WellFormed) (member : cls ∈ toolbox.interface.classes)
    (inClass : function ∈ cls.functions toolbox.options.libraryNamespace) :
    (toolbox.directory.location ++ function.stubPlace, function.stub) ∈ toolbox.written disk ∧
      (toolbox.directory.location ++ function.sourcePlace, function.source) ∈
        toolbox.written disk := by
  have written {artifact : Artifact} (own : artifact ∈ function.artifacts) :
      artifact.write toolbox.directory ∈ toolbox.written disk :=
    (mem_written_iff h wellFormed).mpr ⟨cls, member, artifact,
      List.mem_cons_of_mem _ (List.mem_flatMap.mpr ⟨function, inClass, own⟩), rfl⟩
  exact ⟨written List.mem_cons_self, written (List.mem_cons_of_mem _ List.mem_cons_self)⟩

theorem holdsProxy_written (h : (toolbox.generate disk).failure = none)
    (wellFormed : toolbox.interface.WellFormed) (member : cls ∈ toolbox.interface.classes) :
    toolbox.HoldsProxy (toolbox.written disk) cls :=
  ⟨cls.proxyArtifact.text, proxy_written h wellFormed member,
    (wellFormed cls member).declaresClass_proxy⟩

theorem holdsFunction_written (h : (toolbox.generate disk).failure = none)
    (wellFormed : toolbox.interface.WellFormed) (member : cls ∈ toolbox.interface.classes)
    {ctor : Constructor} (inClass : ctor ∈ cls.constructors) :
    toolbox.HoldsFunction (toolbox.written disk) (cls.constructorName ctor) := by
  have inFunctions : cls.constructorFunction toolbox.options.libraryNamespace ctor ∈
      cls.functions toolbox.options.libraryNamespace :=
    List.mem_append_left _ (List.mem_append_left _ (List.mem_map_of_mem inClass))
  obtain ⟨stubWritten, sourceWritten⟩ := function_written h wellFormed member inFunctions
  refine ⟨⟨_, stubWritten, ?_⟩, _, sourceWritten⟩
  have wellFormedClass := wellFormed cls member
  exact declaresFunction_stub (wellFormedClass.isStem_constructorName inClass)
    (List.forall_mem_map.mpr fun arg inArgs =>
      ((wellFormedClass.constructors ctor inClass).2 arg inArgs).name.isStem)

/-- The files that a completed run has written for a class refer to all that its members use. -/
theorem holdsReferences_written (h : (toolbox.generate disk).failure = none)
    (wellFormed : toolbox.interface.WellFormed) (member : cls ∈ toolbox.interface.classes) :
    toolbox.HoldsReferences (toolbox.written disk) cls := by
  have wellFormedClass := wellFormed cls member
  have source {function : GlueFunction}
      (inClass : function ∈ cls.functions toolbox.options.libraryNamespace) :=
    (function_written h wellFormed member inClass).2
  constructor
  · exact ⟨cls.proxyArtifact.text, proxy_written h wellFormed member,
      wellFormedClass.guards_proxy, wellFormedClass.calls_proxy⟩
  · intro ctor inClass
    refine ⟨_, source (List.mem_append_left _ (List.mem_append_left _
      (List.mem_map_of_mem inClass))), ?_⟩
    exact (wellFormedClass.tells_constructorBody inClass).references_mexFile _ cls
  · intro method inClass
    refine ⟨_, source (List.mem_append_left _ (List.mem_append_right _
      (List.mem_map_of_mem inClass))), ?_⟩
    exact (wellFormedClass.tells_staticMethodBody inClass).references_mexFile _ cls
  · intro method inClass
    refine ⟨_, source (List.mem_append_right _ (List.mem_map_of_mem inClass)), ?_⟩
    exact (wellFormedClass.tells_methodBody inClass).references_mexFile _ cls

end Written

theorem refersTo_proxy (h : (toolbox.generate disk).failure = none)
    (wellFormed : toolbox.interface.WellFormed) {cls : Class}
    (member : cls ∈ toolbox.interface.classes) :
    toolbox.RefersTo (toolbox.written disk) (cls.proxyArtifact.write toolbox.directory) := by
  obtain ⟨start, reached, completes⟩ := exists_completes h
  have wellFormedClass := wellFormed cls member
  refine ⟨fun _ name asked => ?_, fun _ name called => ?_, fun source => ?_⟩
  · rw [Artifact.write_snd] at asked
    refine (wellFormedClass.guards_proxy_found (completes.resolvesClass wellFormed cls member)
      name asked).imp_right ?_
    rintro ⟨other, inClasses, same⟩
    exact ⟨other, inClasses, same, holdsProxy_written h wellFormed inClasses⟩
  · rw [Artifact.write_snd, wellFormedClass.calls_proxy] at called
    obtain ⟨ctor, inClass, rfl⟩ := List.mem_map.mp called
    exact holdsFunction_written h wellFormed member inClass
  · have place : (cls.proxyArtifact.write toolbox.directory).1 =
        (toolbox.directory.location ++ [cls.directory]) ++ [cls.matlabName ++ ".m"] := by
      simp [Artifact.write, Class.proxyArtifact]
    rw [place, isSource_m] at source
    cases source

theorem refersTo_function (h : (toolbox.generate disk).failure = none)
    (wellFormed : toolbox.interface.WellFormed) {cls : Class}
    (member : cls ∈ toolbox.interface.classes) {function : GlueFunction}
    (inClass : function ∈ cls.functions toolbox.options.libraryNamespace) {artifact : Artifact}
    (own : artifact ∈ function.artifacts) :
    toolbox.RefersTo (toolbox.written disk) (artifact.write toolbox.directory) := by
  obtain ⟨start, reached, completes⟩ := exists_completes h
  have wellFormedClass := wellFormed cls member
  simp only [GlueFunction.artifacts, List.mem_cons, List.not_mem_nil, or_false] at own
  rcases own with rfl | rfl
  · obtain ⟨parameters, text, words⟩ := wellFormedClass.exists_stub inClass
    obtain ⟨guards, calls⟩ :=
      guards_calls_stub (wellFormedClass.function_spec _ inClass).1 words
    rw [← text] at guards calls
    refine ⟨fun _ name asked => ?_, fun _ name called => ?_, fun source => ?_⟩
    · rw [Artifact.write_snd, guards] at asked
      cases asked
    · rw [Artifact.write_snd, calls] at called
      cases called
    · rw [Artifact.write_fst, GlueFunction.stubPlace, ← List.append_assoc, isSource_m] at source
      cases source
  · have place : isSource (toolbox.directory.location ++ function.sourcePlace) = true := by
      rw [GlueFunction.sourcePlace, ← List.append_assoc, isSource_cpp]
    refine ⟨fun other => ?_, fun other => ?_, fun _ reference referred => ?_⟩
    · exact absurd (place.symm.trans other) (by decide)
    · exact absurd (place.symm.trans other) (by decide)
    · obtain ⟨other, inClasses, same⟩ := wellFormedClass.references_source member
        (completes.resolvesClass wellFormed cls member) inClass reference referred
      exact ⟨other, inClasses, same, holdsProxy_written h wellFormed inClasses⟩

/-- Whatever a file of a completed run refers to is built in, or has been written by the run: the
proxy of a class under its name, with its own type of C++ beside it, and both files of a function.
And all that the members of a class use is referred to. -/
theorem generate_refersToWritten {name text : String} {verbose : Bool}
    (read : Interface.ofText name verbose text = .ok toolbox.interface)
    (completes : (toolbox.generate disk).failure = none) :
    (∀ file ∈ toolbox.written disk, toolbox.RefersTo (toolbox.written disk) file) ∧
      ∀ cls ∈ toolbox.interface.classes,
        toolbox.HoldsReferences (toolbox.written disk) cls := by
  have wellFormed := Interface.wellFormed_of_ofText read
  refine ⟨fun file member => ?_, fun cls member =>
    holdsReferences_written completes wellFormed member⟩
  obtain ⟨cls, inClasses, artifact, inClass, rfl⟩ := (mem_written_iff completes wellFormed).mp member
  rcases List.mem_cons.mp inClass with rfl | inFunctions
  · exact refersTo_proxy completes wellFormed inClasses
  · obtain ⟨function, inClass, own⟩ := List.mem_flatMap.mp inFunctions
    exact refersTo_function completes wellFormed inClasses inClass own

/-- A class that is used in front of its namespace, as an argument, shared and copied. -/
theorem generate_refersToWritten_forward : ∃ (toolbox : Toolbox) (disk : Disk),
    Interface.ofText "m" false
        "class A { A(double x, const n::B& b); n::B* f(A* a); static pair<A,int> F(); }; namespace n { class B { B(); }; }///\\namespace" =
      .ok toolbox.interface ∧
    (toolbox.generate disk).failure = none ∧
    (∀ file ∈ toolbox.written disk, toolbox.RefersTo (toolbox.written disk) file) ∧
      ∀ cls ∈ toolbox.interface.classes,
        toolbox.HoldsReferences (toolbox.written disk) cls := by
  refine ⟨{
    directory := .ofText "out"
    interface := {
      name := "m"
      classes := [
        { name := "A"
          constructors := [⟨"A", [
            { type := "double", name := "x" },
            { type := "B", name := "b", isConst := true, isReference := true,
              namespaces := ["n"] }]⟩]
          methods := [{
            name := "f"
            args := [{ type := "A", name := "a", isPointer := true }]
            returnValue := { first := {
              type := "B", category := some .classType, isPointer := true,
              namespaces := ["n"] } } }]
          staticMethods := [{
            name := "F"
            returnValue := {
              first := { type := "A", category := some .classType }
              second := some { type := "int", category := some .basis } } }] },
        { name := "B", namespaces := ["n"], constructors := [⟨"B", []⟩] }] }
    options := {} },
    {}, ?read, ?completes, generate_refersToWritten ?read ?completes⟩
  all_goals decide +kernel

end Toolbox

end MexGlue
