import MexGlue.Glue.Naming
import MexGlue.Glue.TypeMap
import MexGlue.Text.Lines

/-!
# C++ files

Each constructor, method and static method has a C++ file with one MEX function: it checks the
number of its inputs, declares a local for each argument, calls the wrapped function and wraps what
that returns. A method's object is its first input, so its arguments start at the second.
-/

namespace MexGlue

namespace Class

/-- What stands in front of a class's MEX functions. A library namespace is opened if one is
named. -/
def preamble (libraryNamespace : String) (cls : Class) : List String :=
  ["// " ++ banner, "#include <wrap/matlab.h>"] ++
    cls.includes.map (fun path => "#include <" ++ path ++ ">") ++
    (if libraryNamespace = "" then [] else ["using namespace " ++ libraryNamespace ++ ";"]) ++
    [""]

/-- A file of a class that holds a MEX function with this body. -/
def mexFile (libraryNamespace : String) (cls : Class) (body : List String) : String :=
  Text.unlines
    (cls.preamble libraryNamespace ++
      ["void mexFunction(int nargout, mxArray *out[], int nargin, const mxArray *in[])", "\x7b"] ++
      body.map ("  " ++ ·) ++ ["\x7d"])

end Class

/-- The statement that checks the number of a function's inputs, of which `given` are arguments. -/
def checkStatement (name given : String) (count : Nat) : String :=
  "checkArguments(\"" ++ name ++ "\",nargout," ++ given ++ "," ++ count.repr ++ ");"

/-- The statements that declare the locals of arguments, the first taken from the input with this
index. -/
def unwrapStatements (first : Nat) (args : List Argument) : List String :=
  (args.zipIdx first).map fun (arg, i) => arg.unwrapStatement i

def ReturnValue.statements (value : ReturnValue) (call : String) : List String :=
  if value.isVoid then [call ++ ";"]
  else
    match value.second with
    | none =>
        [value.first.resultType ++ " result = " ++ call ++ ";",
          "out[0] = " ++ value.first.wrapExpression "result" ++ ";"]
    | some second =>
        ["std::pair< " ++ value.first.resultType ++ ", " ++ second.resultType ++ " > result = " ++
            call ++ ";",
          "out[0] = " ++ value.first.wrapExpression "result.first" ++ ";",
          "out[1] = " ++ second.wrapExpression "result.second" ++ ";"]

namespace Class

/-- The body of the MEX function of a constructor with this name. -/
def constructorBody (cls : Class) (ctor : Constructor) (name : String) : List String :=
  [checkStatement name "nargin" ctor.args.length] ++ unwrapStatements 0 ctor.args ++
    [cls.cppName ++ "* self = new " ++ cls.cppName ++ "(" ++ callExpressions ctor.args ++ ");",
      "out[0] = wrap_constructed(self,\"" ++ cls.matlabName ++ "\");"]

def constructorFile? (libraryNamespace : String) (cls : Class) (ctor : Constructor) :
    Option String :=
  (cls.constructorName? ctor).map fun name =>
    cls.mexFile libraryNamespace (cls.constructorBody ctor name)

def staticMethodBody (cls : Class) (method : StaticMethod) : List String :=
  [checkStatement (cls.staticMethodName method) "nargin" method.args.length] ++
    unwrapStatements 0 method.args ++
    method.returnValue.statements
      (cls.cppName ++ "::" ++ method.name ++ "(" ++ callExpressions method.args ++ ")")

def staticMethodFile (libraryNamespace : String) (cls : Class) (method : StaticMethod) : String :=
  cls.mexFile libraryNamespace (cls.staticMethodBody method)

def receiverStatement (cls : Class) : String :=
  "boost::shared_ptr<" ++ cls.cppName ++ "> self = unwrap_shared_ptr< " ++ cls.cppName ++
    " >(in[0],\"" ++ cls.matlabName ++ "\");"

def methodBody (cls : Class) (method : Method) : List String :=
  [checkStatement method.name "nargin-1" method.args.length, cls.receiverStatement] ++
    unwrapStatements 1 method.args ++
    method.returnValue.statements
      ("self->" ++ method.name ++ "(" ++ callExpressions method.args ++ ")")

def methodFile (libraryNamespace : String) (cls : Class) (method : Method) : String :=
  cls.mexFile libraryNamespace (cls.methodBody method)

end Class

end MexGlue
