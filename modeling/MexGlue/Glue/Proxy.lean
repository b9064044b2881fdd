import MexGlue.Glue.Naming
import MexGlue.Glue.TypeMap
import MexGlue.Text.Lines

/-!
# MATLAB files

A class has a proxy file, whose constructor tries the wrapped constructors in turn by the number
and the classes of what it is called with. Every wrapped function has a stub that stands in until
it is compiled.
-/

namespace MexGlue

/-- The proxy's parameter with this number. -/
def proxyParameter (i : Nat) : String := "varargin\x7b" ++ i.repr ++ "\x7d"

/-- The conditions under which a proxy takes a constructor. -/
def Constructor.guards (ctor : Constructor) : List String :=
  ("nargin == " ++ ctor.args.length.repr) ::
    (ctor.args.zipIdx 1).map fun (arg, i) =>
      "isa(" ++ proxyParameter i ++ ",'" ++ arg.matlabClass ++ "')"

/-- The parameters that a proxy passes to a constructor, all in order. -/
def Constructor.passedParameters (ctor : Constructor) : String :=
  ",".intercalate ((ctor.args.zipIdx 1).map fun (_, i) => proxyParameter i)

namespace Class

/-- The line of a proxy that tries one constructor. -/
def dispatchLine? (cls : Class) (ctor : Constructor) : Option String :=
  (cls.constructorName? ctor).map fun name =>
    "      if " ++ " && ".intercalate ctor.guards ++ ", obj.self = " ++ name ++ "(" ++
      ctor.passedParameters ++ "); end"

/-- The proxy around the lines that try the constructors. -/
def proxyWith (cls : Class) (dispatch : List String) : List String :=
  ["% " ++ banner,
    "classdef " ++ cls.matlabName,
    "  properties",
    "    self = 0",
    "  end",
    "  methods",
    "    function obj = " ++ cls.matlabName ++ "(varargin)"] ++
  dispatch ++
  ["      if obj.self == 0, error('" ++ cls.matlabName ++ " constructor failed'); end",
    "    end",
    "    function display(obj), obj.print(''); end",
    "    function disp(obj), obj.display; end",
    "  end",
    "end"]

def proxy? (cls : Class) : Option String :=
  (cls.constructors.mapM cls.dispatchLine?).map fun dispatch =>
    Text.unlines (cls.proxyWith dispatch)

end Class

def stub (name : String) (parameters : List String) : String :=
  Text.unlines
    ["% " ++ banner,
      "function result = " ++ name ++ "(" ++ ",".intercalate parameters ++ ")",
      "  error('need to compile " ++ name ++ ".cpp');",
      "end"]

namespace Class

def constructorStub? (cls : Class) (ctor : Constructor) : Option String :=
  (cls.constructorName? ctor).map fun name => stub name (ctor.args.map Argument.name)

def staticMethodStub (cls : Class) (method : StaticMethod) : String :=
  stub (cls.staticMethodName method) (method.args.map Argument.name)

end Class

/-- The stub of a method, whose first parameter is the object. -/
def Method.stub (method : Method) : String :=
  MexGlue.stub method.name ("obj" :: method.args.map Argument.name)

end MexGlue
