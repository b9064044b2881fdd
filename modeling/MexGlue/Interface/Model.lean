/-!
# The interface model

What an interface says, with the layout of its text gone. The fields are plain, so a model may also
hold what no text can say, such as an empty name or a reference to a number; rendering and checking
are defined on every model.
-/

namespace MexGlue

/-- A name with the namespaces around it, outermost first. -/
def qualify (delimiter : String) (namespaces : List String) (name : String) : String :=
  delimiter.intercalate (namespaces ++ [name])

/-- An argument of a constructor or of a method of either kind. -/
structure Argument where
  type : String
  name : String
  isConst : Bool := false
  isPointer : Bool := false
  isReference : Bool := false
  namespaces : List String := []
  deriving DecidableEq, Repr

def Argument.qualifiedType (arg : Argument) (delimiter : String) : String :=
  qualify delimiter arg.namespaces arg.type

inductive Category where
  | basis | classType | container
  deriving DecidableEq, Repr

/-- One returned value. Only `void` has no category. -/
structure ReturnSlot where
  type : String
  category : Option Category := none
  isPointer : Bool := false
  namespaces : List String := []
  deriving DecidableEq, Repr

def ReturnSlot.void : ReturnSlot where
  type := "void"

def ReturnSlot.qualifiedType (slot : ReturnSlot) (delimiter : String) : String :=
  qualify delimiter slot.namespaces slot.type

/-- What a method returns: one slot, or a pair of them. -/
structure ReturnValue where
  first : ReturnSlot := .void
  second : Option ReturnSlot := none
  deriving DecidableEq, Repr

namespace ReturnValue

def isPair (value : ReturnValue) : Bool := value.second.isSome

/-- Nothing is returned where the first slot has no category, a second slot notwithstanding. -/
def isVoid (value : ReturnValue) : Bool := value.first.category.isNone

def slots (value : ReturnValue) : List ReturnSlot := value.first :: value.second.toList

end ReturnValue

structure Constructor where
  name : String
  args : List Argument := []
  deriving DecidableEq, Repr

/-- A method called on an object. -/
structure Method where
  name : String
  args : List Argument := []
  returnValue : ReturnValue := {}
  isConst : Bool := false
  deriving DecidableEq, Repr

/-- A method called on the class itself. -/
structure StaticMethod where
  name : String
  args : List Argument := []
  returnValue : ReturnValue := {}
  deriving DecidableEq, Repr

structure Class where
  name : String
  namespaces : List String := []
  constructors : List Constructor := []
  methods : List Method := []
  staticMethods : List StaticMethod := []
  includes : List String := []
  deriving DecidableEq, Repr

namespace Class

def qualifiedName (cls : Class) (delimiter : String) : String :=
  qualify delimiter cls.namespaces cls.name

/-- The name under which the other side of the glue knows the class. -/
def matlabName (cls : Class) : String := cls.qualifiedName "_"

/-- The name under which the wrapped library declares the class. -/
def cppName (cls : Class) : String := cls.qualifiedName "::"

/-- The class, with a namespace put around all of its own. -/
def within (outer : String) (cls : Class) : Class :=
  { cls with namespaces := outer :: cls.namespaces }

end Class

/-- A whole interface: the classes of one module, in the order of their text. -/
structure Interface where
  name : String := ""
  /-- Whether what is read and written is reported. -/
  verbose : Bool := false
  classes : List Class := []
  deriving DecidableEq, Repr

end MexGlue
