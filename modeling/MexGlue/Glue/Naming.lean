import MexGlue.Interface.Model

/-!
# Names of the generated files and functions

Overloaded constructors are told apart by a signature of one letter per argument. A type without a
name has no such letter, and then the constructor has no name: that is the only way in which
rendering can fail.
-/

namespace MexGlue

/-- What every generated file says about itself. -/
def banner : String := "automatically generated by wrap"

/-- The first character of each argument's type, if every type has one. -/
def signature? (args : List Argument) : Option String :=
  (args.mapM fun arg : Argument => arg.type.toList.head?).map String.ofList

namespace Class

def constructorName? (cls : Class) (ctor : Constructor) : Option String :=
  (signature? ctor.args).map fun letters => "new_" ++ cls.matlabName ++ "_" ++ letters

def staticMethodName (cls : Class) (method : StaticMethod) : String :=
  cls.matlabName ++ "_" ++ method.name

def constructorNames? (cls : Class) : Option (List String) :=
  cls.constructors.mapM cls.constructorName?

/-- The directory of a class, inside its toolbox. -/
def directory (cls : Class) : String := "@" ++ cls.matlabName

end Class

end MexGlue
