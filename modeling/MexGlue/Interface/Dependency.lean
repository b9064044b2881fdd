import MexGlue.Interface.Model
import MexGlue.Interface.Token

/-!
# Dependencies

A member may only use types that are built in or declared somewhere in the same interface, before
or after it. The uses of a class are put in one fixed order, and the first that is not known is the
one reported.
-/

namespace MexGlue

/-- The names of the types that need no declaration. -/
def builtInTypes : List String :=
  BasisType.all.map BasisType.spelling ++ ContainerType.all.map ContainerType.spelling

/-- The types that an interface's members may use: the built-in ones and every declared class. -/
def Interface.knownTypes (interface : Interface) : List String :=
  builtInTypes ++ interface.classes.map Class.cppName

structure TypeUse where
  typeName : String
  memberName : String
  deriving DecidableEq, Repr

namespace TypeUse

def message (use : TypeUse) : String :=
  "Missing dependency " ++ use.typeName ++ " in " ++ use.memberName

def ofArguments (member : String) (args : List Argument) : List TypeUse :=
  args.map fun arg => ⟨arg.qualifiedType "::", member⟩

/-- The uses in what a member returns. Only classes need to be known. -/
def ofReturnValue (member : String) (value : ReturnValue) : List TypeUse :=
  (value.slots.filter fun slot => slot.category == some .classType).map fun slot =>
    ⟨slot.qualifiedType "::", member⟩

/-- Refuses the first use of a type that is not among the known ones. -/
def check (known : List String) (uses : List TypeUse) : Except TypeUse Unit :=
  match uses.find? fun use => !known.contains use.typeName with
  | none => .ok ()
  | some use => .error use

end TypeUse

namespace Class

def constructorArgumentUses (cls : Class) : List TypeUse :=
  cls.constructors.flatMap fun ctor => TypeUse.ofArguments ctor.name ctor.args

def staticArgumentUses (cls : Class) : List TypeUse :=
  cls.staticMethods.flatMap fun method => TypeUse.ofArguments method.name method.args

def methodArgumentUses (cls : Class) : List TypeUse :=
  cls.methods.flatMap fun method => TypeUse.ofArguments method.name method.args

def staticReturnUses (cls : Class) : List TypeUse :=
  cls.staticMethods.flatMap fun method => TypeUse.ofReturnValue method.name method.returnValue

def methodReturnUses (cls : Class) : List TypeUse :=
  cls.methods.flatMap fun method => TypeUse.ofReturnValue method.name method.returnValue

/-- All uses of a class's members, in the order in which they are checked. -/
def typeUses (cls : Class) : List TypeUse :=
  cls.constructorArgumentUses ++ cls.staticArgumentUses ++ cls.methodArgumentUses ++
    cls.staticReturnUses ++ cls.methodReturnUses

def verify (known : List String) (cls : Class) : Except TypeUse Unit :=
  TypeUse.check known cls.typeUses

end Class

/-- Refuses an interface's first use of an unknown type, class by class. -/
def Interface.verify (interface : Interface) : Except TypeUse Unit :=
  TypeUse.check interface.knownTypes (interface.classes.flatMap Class.typeUses)

end MexGlue
