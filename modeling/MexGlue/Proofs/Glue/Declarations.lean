import MexGlue.Proofs.Glue.Bodies
import MexGlue.Proofs.OfText.Image

/-!
# Names that a C++ function declares

A function declares its four parameters, a local for its object, one for each argument and one for
the result that it keeps. The names of the arguments are those of the interface and none is renamed,
so a name is declared twice exactly if two arguments share it or an argument is called as one of the
others.
-/

namespace MexGlue

namespace Mex

/-- The name of a parameter: the last word of its declaration without what is no part of a name. -/
def parameterName? (declaration : String) : Option String :=
  (Text.words declaration).getLast?.map fun word =>
    String.ofList (word.toList.filter Pattern.isWordChar)

/-- The parameters of a function, given the line that it starts with. -/
def parametersIn (line : String) : List String :=
  ((Text.Call.ofText? line).toList.flatMap Text.Call.passed).filterMap parameterName?

/-- The line in front of the last one that is a mark. -/
def inFrontOfLast? (mark : String) (lines : List String) : Option String :=
  (lines.reverse.dropWhile (· ≠ mark))[1]?

def Statement.declared? : Statement → Option String
  | .takes name _ _ => some name
  | .calls result _ => result
  | _ => none

/-- All names that the function of a C++ file declares, its parameters first. -/
def declared (text : String) : List String :=
  ((inFrontOfLast? "\x7b" (Text.lines text)).toList.flatMap parametersIn) ++
    (body text).filterMap Statement.declared?

/-- The names of the parameters that every function has. -/
def parameters : List String := ["nargout", "out", "nargin", "in"]

theorem inFrontOfLast?_append {mark : String} {back : List String} (h : mark ∉ back)
    (front : List String) (line : String) :
    inFrontOfLast? mark (front ++ [line] ++ mark :: back) = some line := by
  have kept : ∀ other ∈ back.reverse, decide (other ≠ mark) = true := fun other member =>
    decide_eq_true fun same => h (same ▸ List.mem_reverse.mp member)
  rw [inFrontOfLast?, List.reverse_append, List.reverse_cons, List.append_assoc,
    List.dropWhile_append_of_pos kept, List.singleton_append,
    List.dropWhile_cons_of_neg (by simp), List.reverse_append]
  rfl

/-- The file of a function declares its parameters, its receivers, its arguments and its result. -/
theorem declared_mexFile {name given : String} {receivers : List (String × String)}
    {args : List Argument} {result : Option String} {lines callee outputs : List String}
    (h : Does lines (runs name given receivers args result callee outputs))
    (libraryNamespace : String) (cls : Class) :
    declared (cls.mexFile libraryNamespace lines) =
      parameters ++ (receivers.map Prod.fst ++ args.map Argument.name) ++ result.toList := by
  obtain ⟨front, read⟩ := exists_lines_mexFile h.free libraryNamespace cls
  have split : front ++ (functionLines lines ++ [""]) = front ++
      ["void mexFunction(int nargout, mxArray *out[], int nargin, const mxArray *in[])"] ++
        "\x7b" :: (lines.map ("  " ++ ·) ++ ["\x7d", ""]) := by
    simp [functionLines]
  have named : parametersIn
      "void mexFunction(int nargout, mxArray *out[], int nargin, const mxArray *in[])" =
        parameters := by
    decide +kernel
  have names : receivers.zipIdx.filterMap (fun receiver => some receiver.1.1) ++
      (args.zipIdx receivers.length).filterMap (fun arg => some arg.1.name) =
        receivers.map Prod.fst ++ args.map Argument.name := by
    have first {α : Type} (items : List α) (i : Nat) (name : α → String) :
        (items.zipIdx i).filterMap (fun item => some (name item.1)) = items.map name := by
      have whole := congrFun (List.filterMap_eq_map (f := name ∘ Prod.fst)) (items.zipIdx i)
      rw [← List.map_map, List.zipIdx_map_fst] at whole
      exact whole
    rw [first receivers 0 Prod.fst, first args receivers.length Argument.name]
  rw [declared, h.body_mexFile, read, split, inFrontOfLast?_append (brace_not_mem_body lines),
    Option.toList_some, List.flatMap_singleton, named, filterMap_runs _ fun _ => rfl]
  simp only [Statement.declared?, takes, Option.toList_none, List.nil_append]
  rw [names, List.append_assoc, List.append_assoc, List.append_assoc]

/-- Whether a C++ file declares the parameters, these locals and these arguments, each of them once
exactly if no two arguments share a name and none has that of another declaration. -/
structure DeclaresEach (source : String) (locals : List String) (args : List Argument) : Prop where
  names : (declared source).Perm (parameters ++ locals ++ args.map Argument.name)
  nodup_iff : (declared source).Nodup ↔
    (args.map Argument.name).Nodup ∧ ∀ arg ∈ args, arg.name ∉ parameters ++ locals

/-- A function that does this declares what its receivers, its result and its arguments need. -/
theorem declaresEach_of_does {name given : String} {receivers : List (String × String)}
    {args : List Argument} {result : Option String} {lines callee outputs : List String}
    (h : Does lines (runs name given receivers args result callee outputs))
    (apart : (parameters ++ (receivers.map Prod.fst ++ result.toList)).Nodup)
    (libraryNamespace : String) (cls : Class) :
    DeclaresEach (cls.mexFile libraryNamespace lines) (receivers.map Prod.fst ++ result.toList)
      args := by
  have names : (declared (cls.mexFile libraryNamespace lines)).Perm
      (parameters ++ (receivers.map Prod.fst ++ result.toList) ++ args.map Argument.name) := by
    rw [declared_mexFile h, List.append_assoc, List.append_assoc, List.append_assoc,
      List.append_assoc]
    exact (List.perm_append_comm.append_left _).append_left _
  refine ⟨names, ?_⟩
  rw [names.nodup_iff, List.nodup_append]
  constructor
  · rintro ⟨-, nodup, different⟩
    exact ⟨nodup, fun arg member reserved =>
      different arg.name reserved arg.name (List.mem_map_of_mem member) rfl⟩
  · rintro ⟨nodup, free⟩
    refine ⟨apart, nodup, fun name reserved other member same => ?_⟩
    obtain ⟨arg, inArgs, rfl⟩ := List.mem_map.mp member
    exact free arg inArgs (same ▸ reserved)

end Mex

/-- The locals that a returned value needs. -/
def ReturnValue.locals (value : ReturnValue) : List String :=
  if value.isVoid then [] else ["result"]

theorem ReturnValue.locals_eq (value : ReturnValue) : value.locals = value.kept?.toList := by
  unfold locals kept?
  split <;> rfl

namespace Class.WellFormed

variable {cls : Class} (h : cls.WellFormed) (libraryNamespace : String)
include h

theorem declaresEach_constructor {ctor : Constructor} (member : ctor ∈ cls.constructors) :
    Mex.DeclaresEach
      (cls.mexFile libraryNamespace (cls.constructorBody ctor (cls.constructorName ctor))) ["self"]
      ctor.args :=
  Mex.declaresEach_of_does (h.does_constructorBody member) (by decide) libraryNamespace cls

theorem declaresEach_method {method : Method} (member : method ∈ cls.methods) :
    Mex.DeclaresEach (cls.methodFile libraryNamespace method)
      ("self" :: method.returnValue.locals) method.args := by
  have apart : (Mex.parameters ++ "self" :: method.returnValue.locals).Nodup := by
    unfold ReturnValue.locals
    split <;> decide
  rw [ReturnValue.locals_eq] at apart ⊢
  exact Mex.declaresEach_of_does (h.does_methodBody member) apart libraryNamespace cls

theorem declaresEach_staticMethod {method : StaticMethod} (member : method ∈ cls.staticMethods) :
    Mex.DeclaresEach (cls.staticMethodFile libraryNamespace method) method.returnValue.locals
      method.args := by
  have apart : (Mex.parameters ++ method.returnValue.locals).Nodup := by
    unfold ReturnValue.locals
    split <;> decide
  rw [ReturnValue.locals_eq] at apart ⊢
  exact Mex.declaresEach_of_does (h.does_staticMethodBody member) apart libraryNamespace cls

end Class.WellFormed

/-- The functions of a class that was read declare their parameters, an object in constructors and
methods, a result if a method returns something, and their arguments: each name once exactly if no
two arguments share one and no argument has that of another declaration. -/
theorem Interface.declaresEach_of_ofText {name : String} {verbose : Bool} {text : String}
    {interface : Interface} (read : Interface.ofText name verbose text = .ok interface)
    {cls : Class} (member : cls ∈ interface.classes) (libraryNamespace : String) :
    (∀ ctor ∈ cls.constructors, ∃ source, cls.constructorFile? libraryNamespace ctor = some source ∧
      Mex.DeclaresEach source ["self"] ctor.args) ∧
    (∀ method ∈ cls.methods, Mex.DeclaresEach (cls.methodFile libraryNamespace method)
      ("self" :: method.returnValue.locals) method.args) ∧
    ∀ method ∈ cls.staticMethods, Mex.DeclaresEach (cls.staticMethodFile libraryNamespace method)
      method.returnValue.locals method.args := by
  have wellFormed := Interface.wellFormed_of_ofText read cls member
  exact ⟨fun ctor inClass =>
      ⟨_, wellFormed.namesConstructorTypes.constructorFile?_eq libraryNamespace inClass,
        wellFormed.declaresEach_constructor libraryNamespace inClass⟩,
    fun method inClass => wellFormed.declaresEach_method libraryNamespace inClass,
    fun method inClass => wellFormed.declaresEach_staticMethod libraryNamespace inClass⟩

/-- Members of all kinds whose arguments have names of their own. -/
theorem Interface.declaresEach_of_ofText_members : ∃ (interface : Interface) (cls : Class),
    Interface.ofText "m" false
        "class A { A(double x, const A& other); double f(int i, double y) const; static void G(Vector v); };" =
      .ok interface ∧ cls ∈ interface.classes ∧
    (∀ ctor ∈ cls.constructors, ∃ source, cls.constructorFile? "lib" ctor = some source ∧
      Mex.DeclaresEach source ["self"] ctor.args) ∧
    (∀ method ∈ cls.methods, Mex.DeclaresEach (cls.methodFile "lib" method)
      ("self" :: method.returnValue.locals) method.args) ∧
    ∀ method ∈ cls.staticMethods, Mex.DeclaresEach (cls.staticMethodFile "lib" method)
      method.returnValue.locals method.args := by
  refine ⟨{
    name := "m"
    classes := [{
      name := "A"
      constructors := [⟨"A", [
        { type := "double", name := "x" },
        { type := "A", name := "other", isConst := true, isReference := true }]⟩]
      methods := [{
        name := "f"
        args := [{ type := "int", name := "i" }, { type := "double", name := "y" }]
        returnValue := { first := { type := "double", category := some .basis } }
        isConst := true }]
      staticMethods := [{
        name := "G"
        args := [{ type := "Vector", name := "v" }] }] }] },
    _, ?read, List.mem_singleton.mpr rfl,
    Interface.declaresEach_of_ofText ?read (List.mem_singleton.mpr rfl) "lib"⟩
  decide +kernel

/-- A class with an argument that is called as the object, one as a parameter and one as the
result. -/
def Class.withClashes : Class where
  name := "A"
  constructors := [⟨"A", [{ type := "double", name := "self" }]⟩]
  methods := [{ name := "f", args := [{ type := "double", name := "in" }] }]
  staticMethods := [{
    name := "G"
    args := [{ type := "double", name := "result" }]
    returnValue := { first := { type := "double", category := some .basis } } }]

/-- No name of an argument is refused, though its function may declare the name twice. -/
theorem Interface.declares_twice :
    Interface.ofText "m" false
        "class A { A(double self); void f(double in); static double G(double result); };" =
      .ok { name := "m", classes := [Class.withClashes] } ∧
    (∃ ctor ∈ Class.withClashes.constructors, (ctor.args.map Argument.name).Nodup ∧
      ∃ source, Class.withClashes.constructorFile? "" ctor = some source ∧
        ¬ (Mex.declared source).Nodup) ∧
    (∃ method ∈ Class.withClashes.methods, (method.args.map Argument.name).Nodup ∧
      ¬ (Mex.declared (Class.withClashes.methodFile "" method)).Nodup) ∧
    ∃ method ∈ Class.withClashes.staticMethods, (method.args.map Argument.name).Nodup ∧
      ¬ (Mex.declared (Class.withClashes.staticMethodFile "" method)).Nodup := by
  have read : Interface.ofText "m" false
      "class A { A(double self); void f(double in); static double G(double result); };" =
        .ok { name := "m", classes := [Class.withClashes] } := by decide +kernel
  have wellFormed : Class.withClashes.WellFormed :=
    Interface.wellFormed_of_ofText read _ (List.mem_singleton.mpr rfl)
  refine ⟨read, ⟨_, List.mem_singleton.mpr rfl, by decide, _,
      wellFormed.namesConstructorTypes.constructorFile?_eq "" (List.mem_singleton.mpr rfl), ?_⟩,
    ⟨_, List.mem_singleton.mpr rfl, by decide, ?_⟩,
    ⟨_, List.mem_singleton.mpr rfl, by decide, ?_⟩⟩
  · have declares := wellFormed.declaresEach_constructor "" (List.mem_singleton.mpr rfl)
    exact fun nodup => absurd (declares.nodup_iff.mp nodup).2 (by decide)
  · have declares := wellFormed.declaresEach_method "" (List.mem_singleton.mpr rfl)
    exact fun nodup => absurd (declares.nodup_iff.mp nodup).2 (by decide)
  · have declares := wellFormed.declaresEach_staticMethod "" (List.mem_singleton.mpr rfl)
    exact fun nodup => absurd (declares.nodup_iff.mp nodup).2 (by decide)

end MexGlue
