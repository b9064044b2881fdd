import MexGlue.Failure
import MexGlue.Glue.Makefile
import MexGlue.Glue.MakeScript
import MexGlue.Glue.MexFunction
import MexGlue.Glue.Proxy
import MexGlue.Toolbox.Options

/-!
# The plan of a toolbox

All that is done to make a toolbox once its directory exists and the make script and the Makefile
are open, as a list of steps. Classes come in the order of the interface. A class's dependencies are
checked after its proxy is written and before any of its glue is; what cannot be rendered or checked
is a step that stops the run, so the steps behind it are never taken.
-/

namespace MexGlue

inductive Step where
  | makeDirectory (path : Path)
  | writeFile (path : Path) (text : String)
  | appendToScript (text : String)
  | appendToMakefile (text : String)
  | stop (failure : Failure)
  deriving DecidableEq, Repr

namespace Step

/-- Does with a text what it is for, or stops where it could not be rendered. -/
def ofRendering (use : String → Step) : Option String → Step
  | some text => use text
  | none => .stop .namelessType

end Step

structure Toolbox where
  directory : Path
  interface : Interface
  options : ToolboxOptions := {}
  deriving DecidableEq, Repr

namespace Toolbox

def scriptPath (toolbox : Toolbox) : Path :=
  toolbox.directory.join ("make_" ++ toolbox.interface.name ++ ".m")

def makefilePath (toolbox : Toolbox) : Path := toolbox.directory.join "Makefile"

def classDirectory (toolbox : Toolbox) (cls : Class) : Path :=
  toolbox.directory.join cls.directory

def proxyPath (toolbox : Toolbox) (cls : Class) : Path :=
  (toolbox.classDirectory cls).join (cls.matlabName ++ ".m")

def stubPath (directory : Path) (name : String) : Path := directory.join (name ++ ".m")

def cppPath (directory : Path) (name : String) : Path := directory.join (name ++ ".cpp")

def constructorSteps (toolbox : Toolbox) (cls : Class) (ctor : Constructor) : List Step :=
  match cls.constructorName? ctor with
  | none => [.stop .namelessType]
  | some name =>
      [Step.ofRendering (.writeFile (stubPath toolbox.directory name)) (cls.constructorStub? ctor),
        Step.ofRendering (.writeFile (cppPath toolbox.directory name))
          (cls.constructorFile? toolbox.options.libraryNamespace ctor)]

def staticMethodSteps (toolbox : Toolbox) (cls : Class) (method : StaticMethod) : List Step :=
  let name := cls.staticMethodName method
  [.writeFile (stubPath toolbox.directory name) (cls.staticMethodStub method),
    .writeFile (cppPath toolbox.directory name)
      (cls.staticMethodFile toolbox.options.libraryNamespace method)]

def methodSteps (toolbox : Toolbox) (cls : Class) (method : Method) : List Step :=
  let directory := toolbox.classDirectory cls
  [.writeFile (stubPath directory method.name) method.stub,
    .writeFile (cppPath directory method.name)
      (cls.methodFile toolbox.options.libraryNamespace method)]

/-- Stops at the class's first use of an unknown type. -/
def verifySteps (known : List String) (cls : Class) : List Step :=
  match cls.verify known with
  | .ok () => []
  | .error use => [.stop (.missingDependency use)]

/-- A class's directory and proxy, its check, and its glue. -/
def glueSteps (toolbox : Toolbox) (cls : Class) : List Step :=
  [.makeDirectory (toolbox.classDirectory cls),
    Step.ofRendering (.writeFile (toolbox.proxyPath cls)) cls.proxy?] ++
  verifySteps toolbox.interface.knownTypes cls ++
  cls.constructors.flatMap (toolbox.constructorSteps cls) ++
  cls.staticMethods.flatMap (toolbox.staticMethodSteps cls) ++
  cls.methods.flatMap (toolbox.methodSteps cls)

/-- A class's section of the make script and its rules in the Makefile. -/
def sectionSteps (toolbox : Toolbox) (cls : Class) : List Step :=
  [.appendToScript (MakeScript.sectionTitle cls),
    .appendToScript MakeScript.returnLine,
    Step.ofRendering .appendToScript (cls.compileCommands? toolbox.options.mexFlags),
    .appendToMakefile (Makefile.sectionTitle cls),
    Step.ofRendering .appendToMakefile cls.rules?]

def classSteps (toolbox : Toolbox) (cls : Class) : List Step :=
  toolbox.glueSteps cls ++ toolbox.sectionSteps cls

def openingSteps (toolbox : Toolbox) : List Step :=
  [.appendToScript MakeScript.header,
    .appendToMakefile
      (Makefile.header toolbox.options.mexExtension toolbox.options.makefileFlags
        toolbox.interface.classes)]

def closingSteps (toolbox : Toolbox) : List Step :=
  [.appendToScript MakeScript.trailer,
    .appendToMakefile (Makefile.cleanRule toolbox.interface.classes)]

def plan (toolbox : Toolbox) : List Step :=
  toolbox.openingSteps ++ toolbox.interface.classes.flatMap toolbox.classSteps ++
    toolbox.closingSteps

end Toolbox

end MexGlue
