import MexGlue.Proofs.Glue.Bodies
import MexGlue.Proofs.Glue.Dispatch
import MexGlue.Proofs.OfText.Image

/-!
# Positions of arguments

Six texts go through the arguments of a member: its C++ file takes them from inputs, counts them and
passes them on, its stub names them, and for a constructor the proxy asks for their classes and
passes them to the function of the stub. All of them go through the arguments in one order, from the
first to the last, though some count from zero, some from one, and some behind the receiver.
-/

namespace MexGlue

/-! ## What a C++ file takes, counts and passes -/

namespace Mex

namespace Statement

/-- The local that an input is taken into, the input, and the class that is asked for. -/
def taken? : Statement → Option (String × String × Option String)
  | .takes name input matlabClass => some (name, input, matlabClass)
  | _ => none

def checked? : Statement → Option (List String)
  | .checks passed => some passed
  | _ => none

def called? : Statement → Option Text.Call
  | .calls _ call => some call
  | _ => none

end Statement

def taken (source : String) : List (String × String × Option String) :=
  (body source).filterMap Statement.taken?

def checked (source : String) : List (List String) := (body source).filterMap Statement.checked?

def called (source : String) : List Text.Call := (body source).filterMap Statement.called?

/-- Whether a check admits this number of inputs: as many as it names, and one more if the receiver
does not count. -/
inductive Admits : List String → Nat → Prop
  | all (quote : String) (n : Nat) : Admits [quote, "nargout", "nargin", n.repr] n
  | behindReceiver (quote : String) (n : Nat) :
      Admits [quote, "nargout", "nargin-1", n.repr] (n + 1)

end Mex

/-- An argument as it is passed on: by its address exactly if it is a pointer to a container. -/
def Argument.passedOn (arg : Argument) : String :=
  if arg.isPointer ∧ (arg.type = "Vector" ∨ arg.type = "Matrix") then "&" ++ arg.name else arg.name

theorem Argument.callExpression_eq (arg : Argument) : arg.callExpression = arg.passedOn := by
  have container : isContainerName arg.type = true ↔ arg.type = "Vector" ∨ arg.type = "Matrix" := by
    rw [isContainerName_iff, NamesType]
    constructor
    · rintro ⟨t, same⟩
      cases t
      · exact .inl same.symm
      · exact .inr same.symm
    · rintro (same | same)
      · exact ⟨.vector, same.symm⟩
      · exact ⟨.matrix, same.symm⟩
  rw [callExpression, passedOn]
  simp only [Bool.and_eq_true, container]

namespace Mex

/-- Whether a C++ file takes its receivers and then these arguments, in their order and nothing
else, each from the input of its position, checks for as many inputs as it takes, and passes just
these arguments to the only call. -/
structure TakesInOrder (source given : String) (receivers callee : List String)
    (args : List Argument) : Prop where
  taken : (taken source).map (fun local_ => (local_.1, local_.2.1)) =
    (receivers ++ args.map Argument.name).zipIdx.map fun position =>
      (position.1, input position.2)
  checked : ∃ quote, checked source = [[quote, "nargout", given, args.length.repr]]
  admitted : ∀ check ∈ Mex.checked source, Admits check (Mex.taken source).length
  called : called source = [⟨callee, args.map Argument.passedOn⟩]

section Body

variable {source name given : String} {receivers : List (String × String)}
  {callee outputs : List String} {result : Option String} {args : List Argument}

theorem taken_of_runs (h : body source = runs name given receivers args result callee outputs) :
    taken source =
      (receivers.zipIdx.map fun receiver =>
        (receiver.1.1, input receiver.2, some receiver.1.2)) ++
      (args.zipIdx receivers.length).map fun arg =>
        (arg.1.name, input arg.2,
          if arg.1.isClass then some (arg.1.qualifiedType "_") else none) := by
  rw [taken, h, filterMap_runs _ fun _ => rfl]
  simp only [Statement.taken?, takes, Option.toList_none, List.nil_append, List.append_nil]
  exact congrArg₂ (· ++ ·) (congrFun List.filterMap_eq_map _) (congrFun List.filterMap_eq_map _)

/-- Positions are in order if the check counts the arguments and none of the receivers. -/
theorem takesInOrder_of_runs
    (h : body source = runs name given receivers args result callee outputs)
    (admits : Admits ["\"" ++ name ++ "\"", "nargout", given, args.length.repr]
      (receivers.length + args.length)) :
    TakesInOrder source given (receivers.map Prod.fst) callee args := by
  have taken := taken_of_runs h
  have checked : checked source = [["\"" ++ name ++ "\"", "nargout", given, args.length.repr]] := by
    rw [Mex.checked, h, filterMap_runs _ fun _ => rfl]
    simp [Statement.checked?, takes]
  have called : called source = [⟨callee, args.map Argument.callExpression⟩] := by
    rw [Mex.called, h, filterMap_runs _ fun _ => rfl]
    simp [Statement.called?, takes]
  refine ⟨?_, ?_, ?_, ?_⟩
  · rw [taken, List.map_append, List.zipIdx_append, List.map_append, List.zipIdx_map,
      List.zipIdx_map, List.map_map, List.map_map, List.map_map, List.map_map, List.length_map,
      Nat.zero_add]
    rfl
  · exact ⟨_, checked⟩
  · rw [checked, taken, List.length_append, List.length_map, List.length_map, List.length_zipIdx,
      List.length_zipIdx]
    exact List.forall_mem_singleton.mpr admits
  · rw [called, List.map_congr_left fun arg _ => Argument.callExpression_eq arg]

/-- A class is asked for where its argument is taken. -/
theorem taken_getElem?_of_runs
    (h : body source = runs name given receivers args result callee outputs) {i : Nat}
    {arg : Argument} (found : args[i]? = some arg) (isClass : arg.isClass = true) :
    (taken source)[receivers.length + i]? =
      some (arg.name, input (receivers.length + i), some (arg.qualifiedType "_")) := by
  rw [taken_of_runs h, List.getElem?_append_right (by simp)]
  simp [List.getElem?_zipIdx, found, isClass]

end Body

end Mex

/-! ## Members -/

/-- Whether the texts of a constructor go through its arguments in one order: its C++ file, its
stub, and what the proxy tries for it. -/
structure Constructor.IsGluedInOrder (ctor : Constructor) (cppName source stub : String)
    (dispatch : Matlab.Dispatch) : Prop where
  taken : Mex.TakesInOrder source "nargin" [] ["new", cppName] ctor.args
  count : dispatch.count = ctor.args.length.repr
  guarded : dispatch.guards.map Prod.fst = (List.range' 1 ctor.args.length).map proxyParameter
  /-- All parameters are passed to the function that the stub stands in for. -/
  named : ∃ function, Matlab.functions stub = [⟨[function], ctor.args.map Argument.name⟩] ∧
    dispatch.call = ⟨[function], (List.range' 1 ctor.args.length).map proxyParameter⟩
  /-- Both sides ask for the same class. -/
  classes : ∀ (i : Nat) (arg : Argument), ctor.args[i]? = some arg →
    NamesType arg.type .classType → ∃ guard taken, dispatch.guards[i]? = some guard ∧
      (Mex.taken source)[i]? = some taken ∧ taken.2.2 = some guard.2

namespace Class.WellFormed

variable {cls : Class}

theorem isGluedInOrder (h : cls.WellFormed) {ctor : Constructor} (member : ctor ∈ cls.constructors)
    (libraryNamespace : String) :
    ctor.IsGluedInOrder cls.cppName
      (cls.mexFile libraryNamespace (cls.constructorBody ctor (cls.constructorName ctor)))
      (stub (cls.constructorName ctor) (ctor.args.map Argument.name))
      (ctor.dispatch (cls.constructorName ctor)) := by
  obtain ⟨-, args⟩ := h.constructors ctor member
  have read := (h.does_constructorBody member).body_mexFile libraryNamespace cls
  have parameters : ((ctor.args.zipIdx 1).map fun arg => proxyParameter arg.2) =
      (List.range' 1 ctor.args.length).map proxyParameter := by
    rw [← List.zipIdx_map_snd 1 ctor.args, List.map_map]
    rfl
  have names : ∀ name ∈ ctor.args.map Argument.name, IsStem name :=
    List.forall_mem_map.mpr fun arg inArgs => (args arg inArgs).name.isStem
  have admits := Mex.Admits.all ("\"" ++ cls.constructorName ctor ++ "\"") ctor.args.length
  have inOrder := Mex.takesInOrder_of_runs read (by rwa [List.length_nil, Nat.zero_add])
  refine ⟨inOrder, rfl, ?_, ?_, ?_⟩
  · rw [Constructor.dispatch, List.map_map, ← parameters]
    rfl
  · refine ⟨cls.constructorName ctor, functions_stub (h.isStem_constructorName member) names, ?_⟩
    rw [Constructor.dispatch, parameters]
  · intro i arg found names
    have isClass : arg.isClass = true := by
      rw [Argument.isClass_of_category names]
      rfl
    have taken := Mex.taken_getElem?_of_runs read found isClass
    rw [List.length_nil, Nat.zero_add] at taken
    refine ⟨guardOf (arg, 1 + i), _, ?_, taken, ?_⟩
    · simp [Constructor.dispatch, found]
    · rw [guardOf, arg.matlabClass_of_isClass isClass]

/-- A method takes its object first, so its arguments are behind that everywhere. -/
theorem takesInOrder_method (h : cls.WellFormed) {method : Method} (member : method ∈ cls.methods)
    (libraryNamespace : String) :
    Mex.TakesInOrder (cls.methodFile libraryNamespace method) "nargin-1" ["self"]
        ["self->" ++ method.name] method.args ∧
      Matlab.functions method.stub = [⟨[method.name], "obj" :: method.args.map Argument.name⟩] := by
  obtain ⟨name, args, -⟩ := h.methods method member
  have read := (h.does_methodBody member).body_mexFile libraryNamespace cls
  have admits := Mex.Admits.behindReceiver ("\"" ++ method.name ++ "\"") method.args.length
  have object : IsStem "obj" := ⟨List.all_eq_true.mp rfl, by decide⟩
  have names : ∀ name ∈ "obj" :: method.args.map Argument.name, IsStem name :=
    List.forall_mem_cons.mpr
      ⟨object, List.forall_mem_map.mpr fun arg inArgs => (args arg inArgs).name.isStem⟩
  have inOrder := Mex.takesInOrder_of_runs read (by rwa [List.length_singleton, Nat.add_comm])
  exact ⟨inOrder, functions_stub name.isStem names⟩

theorem takesInOrder_staticMethod (h : cls.WellFormed) {method : StaticMethod}
    (member : method ∈ cls.staticMethods) (libraryNamespace : String) :
    Mex.TakesInOrder (cls.staticMethodFile libraryNamespace method) "nargin" []
        [cls.cppName ++ "::" ++ method.name] method.args ∧
      Matlab.functions (cls.staticMethodStub method) =
        [⟨[cls.staticMethodName method], method.args.map Argument.name⟩] := by
  obtain ⟨-, args, -⟩ := h.staticMethods method member
  have read := (h.does_staticMethodBody member).body_mexFile libraryNamespace cls
  have admits := Mex.Admits.all ("\"" ++ cls.staticMethodName method ++ "\"") method.args.length
  have names : ∀ name ∈ method.args.map Argument.name, IsStem name :=
    List.forall_mem_map.mpr fun arg inArgs => (args arg inArgs).name.isStem
  have inOrder := Mex.takesInOrder_of_runs read (by rwa [List.length_nil, Nat.zero_add])
  exact ⟨inOrder, functions_stub (h.isStem_staticMethodName member) names⟩

end Class.WellFormed

/-- Whether the texts of all members of a class go through the arguments in one order. -/
structure Class.GluesInOrder (cls : Class) (libraryNamespace : String) : Prop where
  constructors : ∃ proxy, cls.proxy? = some proxy ∧
    (Matlab.dispatches proxy).length = cls.constructors.length ∧
    ∀ (i : Nat) (ctor : Constructor), cls.constructors[i]? = some ctor →
      ∃ source stub dispatch, cls.constructorFile? libraryNamespace ctor = some source ∧
        cls.constructorStub? ctor = some stub ∧ (Matlab.dispatches proxy)[i]? = some dispatch ∧
        ctor.IsGluedInOrder cls.cppName source stub dispatch
  methods : ∀ method ∈ cls.methods,
    Mex.TakesInOrder (cls.methodFile libraryNamespace method) "nargin-1" ["self"]
        ["self->" ++ method.name] method.args ∧
      Matlab.functions method.stub = [⟨[method.name], "obj" :: method.args.map Argument.name⟩]
  staticMethods : ∀ method ∈ cls.staticMethods,
    Mex.TakesInOrder (cls.staticMethodFile libraryNamespace method) "nargin" []
        [cls.cppName ++ "::" ++ method.name] method.args ∧
      Matlab.functions (cls.staticMethodStub method) =
        [⟨[cls.staticMethodName method], method.args.map Argument.name⟩]

/-- All texts of a member go through its arguments in one order, whatever the member is: the proxy
tries the constructors of a class in their order, each by what its C++ file and its stub take. -/
theorem Interface.gluesInOrder_of_ofText {name : String} {verbose : Bool} {text : String}
    {interface : Interface} (read : Interface.ofText name verbose text = .ok interface)
    {cls : Class} (member : cls ∈ interface.classes) (libraryNamespace : String) :
    cls.GluesInOrder libraryNamespace := by
  have wellFormed := Interface.wellFormed_of_ofText read cls member
  have named := wellFormed.namesConstructorTypes
  refine ⟨⟨cls.proxyArtifact.text, ?_, ?_, fun i ctor found => ?_⟩,
    fun method inClass => wellFormed.takesInOrder_method inClass libraryNamespace,
    fun method inClass => wellFormed.takesInOrder_staticMethod inClass libraryNamespace⟩
  · rw [named.proxy?, Class.proxyArtifact_text]
  · rw [wellFormed.dispatches_proxy, List.length_map]
  · have inClass := List.mem_of_getElem? found
    refine ⟨_, _, _, named.constructorFile?_eq libraryNamespace inClass, ?_, ?_,
      wellFormed.isGluedInOrder inClass libraryNamespace⟩
    · rw [Class.constructorStub?, named.constructorName? inClass, Option.map_some]
    · rw [wellFormed.dispatches_proxy, List.getElem?_map, found, Option.map_some]

/-- A class with members of all kinds, which take numbers, containers and objects. -/
theorem Interface.gluesInOrder_of_ofText_members : ∃ (interface : Interface) (cls : Class),
    Interface.ofText "m" false
        "class A { A(); A(double x, const n::B& b); void f(Matrix* m, A* a) const; static Vector G(int i, string s, Vector& v); };" =
      .ok interface ∧
    cls ∈ interface.classes ∧ cls.constructors.length = 2 ∧ cls.methods.length = 1 ∧
    cls.staticMethods.length = 1 ∧ cls.GluesInOrder "lib" := by
  refine ⟨{
    name := "m"
    classes := [{
      name := "A"
      constructors := [⟨"A", []⟩, ⟨"A", [
        { type := "double", name := "x" },
        { type := "B", name := "b", isConst := true, isReference := true, namespaces := ["n"] }]⟩]
      methods := [{
        name := "f"
        args := [
          { type := "Matrix", name := "m", isPointer := true },
          { type := "A", name := "a", isPointer := true }]
        isConst := true }]
      staticMethods := [{
        name := "G"
        args := [
          { type := "int", name := "i" },
          { type := "string", name := "s" },
          { type := "Vector", name := "v", isReference := true }]
        returnValue := { first := { type := "Vector", category := some .container } } }] }] },
    _, ?read, List.mem_singleton.mpr rfl, rfl, rfl, rfl,
    Interface.gluesInOrder_of_ofText ?read (List.mem_singleton.mpr rfl) "lib"⟩
  decide +kernel

end MexGlue
