import MexGlue.Interface.Model
import MexGlue.Interface.Token

/-!
# Types on the two sides of the glue

Each interface type has a C++ spelling and a class name on the MATLAB side. An argument's type is a
class when it is no built-in one; a returned value says itself what it is.
-/

namespace MexGlue

def BasisType.ofName? (name : String) : Option BasisType :=
  all.find? fun t => t.spelling == name

def ContainerType.ofName? (name : String) : Option ContainerType :=
  all.find? fun t => t.spelling == name

def BasisType.cppSpelling : BasisType → String
  | .string => "std::string"
  | t => t.spelling

def BasisType.matlabClass : BasisType → String
  | .string => "char"
  | .bool => "logical"
  | .sizeT => "numeric"
  | .int => "numeric"
  | .double => "double"

/-- The MATLAB class that containers belong to. -/
def containerMatlabClass : String := "double"

def isBasisName (name : String) : Bool := (BasisType.ofName? name).isSome

def isContainerName (name : String) : Bool := (ContainerType.ofName? name).isSome

/-- A type that is no class as C++ declares it. Unknown names stay as they are. -/
def cppTypeName (name : String) : String :=
  match BasisType.ofName? name with
  | some t => t.cppSpelling
  | none => name

namespace Argument

def isClass (arg : Argument) : Bool := !isBasisName arg.type && !isContainerName arg.type

def cppType (arg : Argument) : String :=
  if arg.isClass then arg.qualifiedType "::" else cppTypeName arg.type

def matlabClass (arg : Argument) : String :=
  match BasisType.ofName? arg.type with
  | some t => t.matlabClass
  | none => if isContainerName arg.type then containerMatlabClass else arg.qualifiedType "_"

/-- The statement that declares the argument's local and takes its value from the input with this
index. Containers are copied into the local, whatever their marks. -/
def unwrapStatement (arg : Argument) (index : Int) : String :=
  let input := "in[" ++ index.repr ++ "]"
  let type := arg.cppType
  if arg.isClass then
    let object := "unwrap_shared_ptr< " ++ type ++ " >(" ++ input ++ ", \"" ++
      arg.qualifiedType "_" ++ "\")"
    if arg.isPointer then type ++ "* " ++ arg.name ++ " = " ++ object ++ ".get();"
    else
      (if arg.isConst then "const " else "") ++ type ++ "& " ++ arg.name ++ " = *" ++ object ++ ";"
  else type ++ " " ++ arg.name ++ " = unwrap< " ++ type ++ " >(" ++ input ++ ");"

def callExpression (arg : Argument) : String :=
  if arg.isPointer && isContainerName arg.type then "&" ++ arg.name else arg.name

end Argument

def callExpressions (args : List Argument) : String :=
  ",".intercalate (args.map Argument.callExpression)

namespace ReturnSlot

def isClass (slot : ReturnSlot) : Bool := slot.category == some .classType

/-- The returned value's type as C++ declares it, without a pointer mark. -/
def cppType (slot : ReturnSlot) : String :=
  if slot.isClass then slot.qualifiedType "::" else cppTypeName slot.type

def resultType (slot : ReturnSlot) : String :=
  if slot.isPointer then slot.cppType ++ "*" else slot.cppType

/-- The expression that turns a C++ value into an output. An object is shared: through the pointer
that the call returned, or through one to a copy. -/
def wrapExpression (slot : ReturnSlot) (value : String) : String :=
  if slot.isClass then
    let share := if slot.isPointer then "boost::shared_ptr< " else "boost::make_shared< "
    "wrap_shared_ptr(" ++ share ++ slot.cppType ++ " >(" ++ value ++ "),\"" ++
      slot.qualifiedType "_" ++ "\")"
  else "wrap< " ++ slot.cppType ++ " >(" ++ value ++ ")"

end ReturnSlot

end MexGlue
