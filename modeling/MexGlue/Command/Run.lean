import MexGlue.Command.Request
import MexGlue.Toolbox.Generate

/-!
# Running a command line

A request loads the interface and then either checks it or makes the toolbox. Nothing is written
before the interface is accepted, and a check writes nothing at all.
-/

namespace MexGlue

inductive Ending where
  | refused (refusal : Refusal)
  | failed (failure : Failure)
  | completed
  deriving DecidableEq, Repr

/-- How the command is left: it exits by itself or returns, with a number for its caller. -/
inductive Departure where
  | exits (code : Nat)
  | returns (code : Nat)
  deriving DecidableEq, Repr

def Departure.code : Departure → Nat
  | .exits code => code
  | .returns code => code

namespace Ending

def departure : Ending → Departure
  | .refused .help => .exits 0
  | .refused (.usage _) => .exits 2
  | .failed _ => .returns 1
  | .completed => .returns 0

def exitCode (ending : Ending) : Nat := ending.departure.code

/-- What is said on the error stream, if the program is called by this name. -/
def errorText (program : String) : Ending → String
  | .refused (.usage problem) => Usage.errorText program problem
  | .failed failure => "error: " ++ failure.message ++ "\n"
  | _ => ""

end Ending

/-- The last line of a completed run, which took this many milliseconds. -/
def completionLine (milliseconds : String) : String :=
  "Generation completed in " ++ milliseconds ++ " ms"

/-- What is said besides errors, if the program is called by this name and took this many
milliseconds. -/
def Ending.printed (program milliseconds : String) (report : Report) : Ending → Report
  | .refused .help => report ++ Usage.helpLines program
  | .completed => report ++ [completionLine milliseconds]
  | _ => report

structure CommandOutcome where
  ending : Ending
  disk : Disk
  report : Report
  deriving DecidableEq

namespace Request

def interfaceDirectory (request : Request) : Path := Path.ofText request.directory

def toolboxOf (request : Request) (interface : Interface) : Toolbox where
  directory := Path.ofText request.toolbox
  interface := interface
  options := request.options

def checkReport (request : Request) (interface : Interface) : Report :=
  [request.moduleName ++ ": " ++ interface.classes.length.repr ++ " classes OK"]

/-- Checks an interface, which needs no disk. -/
def check (request : Request) (interface : Interface) : Ending × Report :=
  match interface.verify with
  | .error use => (.failed (.missingDependency use), [])
  | .ok () => (.completed, request.checkReport interface)

/-- Checks an interface and leaves the disk alone. -/
def runCheck (request : Request) (interface : Interface) (disk : Disk) : CommandOutcome :=
  let (ending, report) := request.check interface
  ⟨ending, disk, report⟩

def runGenerate (request : Request) (interface : Interface) (disk : Disk) : CommandOutcome :=
  let outcome := (request.toolboxOf interface).generate disk
  ⟨outcome.failure.elim .completed .failed, outcome.disk, outcome.report⟩

def run (request : Request) (disk : Disk) : CommandOutcome :=
  match Interface.load request.interfaceDirectory request.moduleName request.verbose disk with
  | .error failure => ⟨.failed failure, disk, []⟩
  | .ok interface =>
      let outcome :=
        if request.checkOnly then request.runCheck interface disk
        else request.runGenerate interface disk
      { outcome with
        report := Interface.loadReport request.interfaceDirectory interface ++ outcome.report }

end Request

/-- Runs a command line on a disk. -/
def runCommand (texts : List String) (disk : Disk) : CommandOutcome :=
  match Request.ofWords texts with
  | .error refusal => ⟨.refused refusal, disk, []⟩
  | .ok request => request.run disk

end MexGlue
