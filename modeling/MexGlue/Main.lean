import MexGlue.Command.Run

/-!
# The command

The outer layer: it reads the interface file, takes the steps of the plan on the real file system
and prints. What to do and what to say is decided by the modules that it imports.
-/

namespace MexGlue.Main

/-- What the command is called in what it says of itself. -/
def program : String := "mexglue"

/-- Does something with a path, and tells if it could not be done. -/
def attempt (path : Path) (action : IO Unit) : IO (Option Failure) := do
  try
    action
    return none
  catch _ =>
    return some (.cannotOpen path)

def printAll (report : Report) : IO Unit := report.forM IO.println

/-- Takes one step of a plan, and tells why the run ends if it does. -/
def takeStep (toolbox : Toolbox) (script makefile : IO.FS.Handle) : Step → IO (Option Failure)
  | .makeDirectory path => attempt path (IO.FS.createDirAll path.text)
  | .writeFile path text => do
      let failure ← attempt path (IO.FS.writeFile path.text text)
      if failure.isNone then
        printAll (reportLine toolbox.interface.verbose ("Generated: " ++ path.text))
      return failure
  | .appendToScript text => attempt toolbox.scriptPath (script.putStr text)
  | .appendToMakefile text => attempt toolbox.makefilePath (makefile.putStr text)
  | .stop failure => return some failure

def takeSteps (toolbox : Toolbox) (script makefile : IO.FS.Handle) :
    List Step → IO (Option Failure)
  | [] => return none
  | step :: steps => do
      match ← takeStep toolbox script makefile step with
      | none => takeSteps toolbox script makefile steps
      | some failure => return some failure

/-- Opens a file for writing and goes on with it. -/
def withFile (toolbox : Toolbox) (path : Path) (next : IO.FS.Handle → IO (Option Failure)) :
    IO (Option Failure) := do
  printAll (reportLine toolbox.interface.verbose ("Generating: " ++ path.text))
  let handle? ← try some <$> IO.FS.Handle.mk path.text .write catch _ => pure none
  match handle? with
  | none => return some (.cannotOpen path)
  | some handle =>
      let failure ← next handle
      let closing ← attempt path handle.flush
      return failure.or closing

def generate (toolbox : Toolbox) : IO (Option Failure) := do
  let failure ← attempt toolbox.directory (IO.FS.createDirAll toolbox.directory.text)
  if failure.isSome then return failure
  withFile toolbox toolbox.scriptPath fun script =>
    withFile toolbox toolbox.makefilePath fun makefile =>
      takeSteps toolbox script makefile toolbox.plan

def run (request : Request) : IO Ending := do
  let path := Interface.file request.interfaceDirectory request.moduleName
  let content ← try some <$> IO.FS.readBinFile path.text catch _ => pure none
  match Interface.ofFile path request.moduleName request.verbose content with
  | .error failure => return .failed failure
  | .ok interface =>
      printAll (Interface.loadReport request.interfaceDirectory interface)
      if request.checkOnly then
        let (ending, report) := request.check interface
        printAll report
        return ending
      else
        return (← generate (request.toolboxOf interface)).elim .completed .failed

/-- Nanoseconds as milliseconds with two places. -/
def millisecondText (nanoseconds : Nat) : String :=
  let hundredths := (nanoseconds + 5000) / 10000
  let places := (hundredths % 100).repr
  (hundredths / 100).repr ++ "." ++ (if places.length = 1 then "0" else "") ++ places

end MexGlue.Main

open MexGlue in
def main (words : List String) : IO UInt32 := do
  let started ← IO.monoNanosNow
  let ending ←
    match Request.ofWords words with
    | .error refusal => pure (Ending.refused refusal)
    | .ok request => MexGlue.Main.run request
  IO.eprint (ending.errorText MexGlue.Main.program)
  let elapsed := MexGlue.Main.millisecondText ((← IO.monoNanosNow) - started)
  MexGlue.Main.printAll (ending.printed MexGlue.Main.program elapsed [])
  return ending.exitCode.toUInt32
