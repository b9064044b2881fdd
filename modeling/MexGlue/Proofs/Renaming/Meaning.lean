import MexGlue.Proofs.Model.Classes
import MexGlue.Proofs.Renaming.Identifiers
import MexGlue.Proofs.Renaming.Reading

/-!
# The meaning of replaced names

What declarations mean is read off their shape, so replacing their names replaces the names in the
model, as long as the names of built-in types stay. Only a closing name is compared with another
name, and with an injective replacement they still are or are not the same.
-/

namespace MexGlue

section Model

variable (f : String → String)

def Argument.mapNames (arg : Argument) : Argument :=
  { arg with type := f arg.type, name := f arg.name, namespaces := arg.namespaces.map f }

def ReturnSlot.mapNames (slot : ReturnSlot) : ReturnSlot :=
  { slot with type := f slot.type, namespaces := slot.namespaces.map f }

def ReturnValue.mapNames (value : ReturnValue) : ReturnValue :=
  ⟨value.first.mapNames f, value.second.map (ReturnSlot.mapNames f)⟩

def Constructor.mapNames (ctor : Constructor) : Constructor :=
  ⟨f ctor.name, ctor.args.map (Argument.mapNames f)⟩

def Method.mapNames (method : Method) : Method :=
  { method with
    name := f method.name
    args := method.args.map (Argument.mapNames f)
    returnValue := method.returnValue.mapNames f }

def StaticMethod.mapNames (method : StaticMethod) : StaticMethod :=
  ⟨f method.name, method.args.map (Argument.mapNames f), method.returnValue.mapNames f⟩

/-- The class with its names replaced. The paths of include lines hold no names. -/
def Class.mapNames (cls : Class) : Class :=
  { cls with
    name := f cls.name
    namespaces := cls.namespaces.map f
    constructors := cls.constructors.map (Constructor.mapNames f)
    methods := cls.methods.map (Method.mapNames f)
    staticMethods := cls.staticMethods.map (StaticMethod.mapNames f) }

/-- The interface with its names replaced. The name of the module itself is not one of its text. -/
def Interface.mapNames (interface : Interface) : Interface :=
  { interface with classes := interface.classes.map (Class.mapNames f) }

def WrongClosing.mapNames (wrong : WrongClosing) : WrongClosing :=
  ⟨wrong.token, f wrong.opened, f wrong.closed⟩

end Model

section Meaning

variable (r : Renaming)

/-! ## Classes -/

theorem Renaming.apply_basis (t : BasisType) : r.apply t.spelling = t.spelling :=
  r.apply_of_mem_reservedWords t.spelling_mem_reservedWords

theorem Renaming.apply_container (t : ContainerType) : r.apply t.spelling = t.spelling :=
  r.apply_of_mem_reservedWords t.spelling_mem_reservedWords

theorem Renaming.apply_void : r.apply "void" = "void" :=
  r.apply_of_mem_reservedWords (by decide)

theorem Identifier.name_mapNames (f : String → String) (name : Identifier) :
    (name.mapNames f).name = f name.name := by
  cases name <;> rfl

theorem ArgumentDecl.argument_mapNames (decl : ArgumentDecl) :
    (decl.mapNames r.apply).argument = decl.argument.mapNames r.apply := by
  obtain ⟨form, name⟩ := decl
  have named := name.name_mapNames r.apply
  cases form <;> simp [mapNames, ArgumentForm.mapNames, argument, Argument.mapNames,
    QualifiedName.mapNames, named, r.apply_basis, r.apply_container]

theorem map_argument_mapNames (args : List ArgumentDecl) :
    (args.map (ArgumentDecl.mapNames r.apply)).map ArgumentDecl.argument =
      (args.map ArgumentDecl.argument).map (Argument.mapNames r.apply) := by
  rw [List.map_map, List.map_map]
  exact List.map_congr_left fun decl _ => decl.argument_mapNames r

theorem SlotForm.slot_mapNames (form : SlotForm) :
    (form.mapNames r.apply).slot = form.slot.mapNames r.apply := by
  cases form <;> simp [mapNames, slot, ReturnSlot.mapNames, QualifiedName.mapNames, r.apply_basis,
    r.apply_container]

theorem ReturnForm.returnValue_mapNames (form : ReturnForm) :
    (form.mapNames r.apply).returnValue = form.returnValue.mapNames r.apply := by
  cases form <;> simp [mapNames, returnValue, ReturnValue.mapNames, SlotForm.slot_mapNames,
    ReturnSlot.mapNames, ReturnSlot.void, r.apply_void]

namespace MemberDecl

theorem constructor?_mapNames (className : String) (member : MemberDecl) :
    (member.mapNames r.apply).constructor? (r.apply className) =
      (member.constructor? className).map (Constructor.mapNames r.apply) := by
  have arguments := map_argument_mapNames r
  cases member <;> simp only [mapNames, constructor?, arguments] <;> rfl

theorem method?_mapNames (member : MemberDecl) :
    (member.mapNames r.apply).method? = member.method?.map (Method.mapNames r.apply) := by
  have arguments := map_argument_mapNames r
  have returns := ReturnForm.returnValue_mapNames r
  cases member <;> simp only [mapNames, method?, arguments, returns] <;> rfl

theorem staticMethod?_mapNames (member : MemberDecl) :
    (member.mapNames r.apply).staticMethod? =
      member.staticMethod?.map (StaticMethod.mapNames r.apply) := by
  have arguments := map_argument_mapNames r
  have returns := ReturnForm.returnValue_mapNames r
  have names := Identifier.name_mapNames r.apply
  cases member <;> simp only [mapNames, staticMethod?, arguments, returns, names] <;> rfl

theorem includePath?_mapNames (member : MemberDecl) :
    (member.mapNames r.apply).includePath? = member.includePath? := by
  cases member <;> rfl

end MemberDecl

theorem ClassDecl.toClass_mapNames (decl : ClassDecl) :
    (decl.mapNames r.apply).toClass = decl.toClass.mapNames r.apply := by
  simp only [toClass, mapNames, Class.mapNames, List.filterMap_map, List.map_filterMap,
    Function.comp_def, MemberDecl.constructor?_mapNames, MemberDecl.method?_mapNames,
    MemberDecl.staticMethod?_mapNames, MemberDecl.includePath?_mapNames, List.map_nil]

/-! ## Closing names -/

theorem WrongClosing.check_mapNames (token : Nat) (opened : String) (closing : Option String) :
    check token (r.apply opened) (closing.map r.apply) =
      (check token opened closing).mapError (WrongClosing.mapNames r.apply) := by
  cases closing with
  | none => rfl
  | some closed =>
      by_cases same : closed = opened
      · simp [check, same]
      · have different : r.apply closed ≠ r.apply opened := fun eq => same (r.apply_injective eq)
        simp [check, same, different, mapNames]

namespace Declarations

@[simp] theorem size_mapNames (f : String → String) (decls : Declarations) :
    (decls.mapNames f).size = decls.size := by
  rw [size, tokens_mapNames, List.length_map, size]

/-- Renamed declarations say the renamed classes, or they have the same wrong closing, renamed. -/
theorem classesFrom_mapNames (decls : Declarations) (first : Nat) :
    (decls.mapNames r.apply).classesFrom first =
      ((decls.classesFrom first).map (List.map (Class.mapNames r.apply))).mapError
        (WrongClosing.mapNames r.apply) := by
  induction decls generalizing first with
  | empty => rfl
  | withClass before decl ih =>
      simp only [mapNames, classesFrom, ih, ClassDecl.toClass_mapNames]
      cases before.classesFrom first with
      | error wrong => rfl
      | ok earlier => simp [Except.map, bind, Except.bind, pure, Except.pure]
  | withNamespace before name body closing ihBefore ihBody =>
      have opening : (namespaceOpening (r.apply name)).length = (namespaceOpening name).length := rfl
      simp only [mapNames, classesFrom, ihBefore, ihBody, size_mapNames, opening,
        WrongClosing.check_mapNames]
      cases before.classesFrom first with
      | error wrong => rfl
      | ok earlier =>
          simp only [Except.map, mapError_ok, bind, Except.bind]
          cases body.classesFrom (first + before.size + (namespaceOpening name).length) with
          | error wrong => rfl
          | ok inner =>
              simp only [mapError_ok]
              cases WrongClosing.check _ name closing with
              | error wrong => rfl
              | ok _ => simp [pure, Except.pure, Class.mapNames, Class.within]

end Declarations

end Meaning

end MexGlue
