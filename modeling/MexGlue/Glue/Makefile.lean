import MexGlue.Glue.Naming
import MexGlue.Text.Blank
import MexGlue.Text.Lines

/-!
# The Makefile

A Makefile that compiles a whole toolbox from its own directory. The first target names all
classes; a class has a rule for each of its functions and one, named after the class, that needs
them all.
-/

namespace MexGlue

namespace Makefile

/-- The start of the Makefile: its settings and the rule for all classes. A line ends in no
blank. -/
def header (mexExtension mexFlags : String) (classes : List Class) : String :=
  Text.unlines
    ["# " ++ banner,
      "",
      "MEX = mex",
      "MEXENDING = " ++ mexExtension,
      "mex_flags = " ++ mexFlags,
      "",
      Text.trimEnd ("all: " ++ " ".intercalate (classes.map Class.matlabName)),
      ""]

def sectionTitle (cls : Class) : String := "# " ++ cls.matlabName ++ "\n"

/-- The file that compiling a target makes. -/
def product (target : String) : String := target ++ ".$(MEXENDING)"

def rule (target : String) : List String :=
  [product target ++ ": " ++ target ++ ".cpp",
    "\t$(MEX) $(mex_flags) " ++ target ++ ".cpp -output " ++ target]

def cleanRule (classes : List Class) : String :=
  Text.unlines
    (["", "clean:", "\trm -rf *.$(MEXENDING)"] ++
      classes.map fun cls => "\trm -rf " ++ cls.directory ++ "/*.$(MEXENDING)")

end Makefile

namespace Class

/-- What is compiled for a class, as paths inside the toolbox. -/
def targets? (cls : Class) : Option (List String) :=
  cls.constructorNames?.map fun constructors =>
    constructors ++ cls.staticMethods.map cls.staticMethodName ++
      cls.methods.map fun method => cls.directory ++ "/" ++ method.name

def rules? (cls : Class) : Option String :=
  cls.targets?.map fun targets =>
    Text.unlines
      (targets.flatMap Makefile.rule ++
        ["",
          Text.trimEnd
            (cls.matlabName ++ ": " ++ " ".intercalate (targets.map Makefile.product)),
          ""])

end Class

end MexGlue
