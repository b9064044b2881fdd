import MexGlue.Glue.Naming
import MexGlue.Text.Lines

/-!
# The make script

A MATLAB script that compiles a whole toolbox. It remembers the toolbox directory, and every class
has a section that starts there, compiles the class's functions, enters the class's directory and
compiles its methods.
-/

namespace MexGlue

namespace MakeScript

/-- The start of a make script, which finds the toolbox directory. -/
def header : String :=
  Text.unlines
    ["% " ++ banner,
      "echo on",
      "",
      "toolboxpath = mfilename('fullpath');",
      "delims = find(toolboxpath == '/');",
      "toolboxpath = toolboxpath(1:(delims(end)-1));",
      "clear delims",
      "addpath(toolboxpath);",
      ""]

def sectionTitle (cls : Class) : String := "%% " ++ cls.matlabName ++ "\n"

def returnLine : String := "cd(toolboxpath)\n"

/-- The line that compiles one function. Flags are given if there are any. -/
def compileLine (mexFlags name : String) : String :=
  "mex " ++ (if mexFlags = "" then "" else mexFlags ++ " ") ++ name ++ ".cpp"

def trailer : String := returnLine ++ Text.unlines ["", "echo off"]

end MakeScript

def Class.compileCommands? (mexFlags : String) (cls : Class) : Option String :=
  cls.constructorNames?.map fun constructors =>
    Text.unlines
      ((constructors ++ cls.staticMethods.map cls.staticMethodName).map
          (MakeScript.compileLine mexFlags) ++
        ["cd " ++ cls.directory] ++
        (cls.methods.map Method.name).map (MakeScript.compileLine mexFlags))

end MexGlue
