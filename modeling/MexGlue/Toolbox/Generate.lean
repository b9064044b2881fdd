import MexGlue.Interface.Load
import MexGlue.Storage.OpenFile
import MexGlue.Toolbox.Plan

/-!
# Making a toolbox on a disk

The steps of the plan are taken one by one until one fails, and whatever was written by then stays.
The make script and the Makefile are open all the while and are closed on every way out, the
Makefile first. A failure on the way counts before one that only shows in closing.
-/

namespace MexGlue

structure Progress where
  disk : Disk
  script : OpenFile
  makefile : OpenFile
  report : Report
  deriving DecidableEq

structure Outcome where
  failure : Option Failure
  disk : Disk
  report : Report
  deriving DecidableEq

/-- A line of the report, if there is to be one. -/
def reportLine (verbose : Bool) (text : String) : Report := if verbose then [text] else []

namespace Step

/-- Takes one step, and tells why the run ends if it does. -/
def take (verbose : Bool) (progress : Progress) : Step → Progress × Option Failure
  | .makeDirectory path =>
      let made := progress.disk.makeDirectories path
      ({ progress with disk := made.1 }, if made.2 then none else some (.cannotOpen path))
  | .writeFile path text =>
      let written := progress.disk.writeFile path text
      if written.2 then
        ({ progress with
            disk := written.1
            report := progress.report ++ reportLine verbose ("Generated: " ++ path.text) },
          none)
      else ({ progress with disk := written.1 }, some (.cannotOpen path))
  | .appendToScript text =>
      match progress.script.append? text progress.disk with
      | some (disk, script) => ({ progress with disk := disk, script := script }, none)
      | none => (progress, some (.cannotOpen progress.script.path))
  | .appendToMakefile text =>
      match progress.makefile.append? text progress.disk with
      | some (disk, makefile) => ({ progress with disk := disk, makefile := makefile }, none)
      | none => (progress, some (.cannotOpen progress.makefile.path))
  | .stop failure => (progress, some failure)

/-- Takes steps until one ends the run. -/
def takeAll (verbose : Bool) (progress : Progress) : List Step → Progress × Option Failure
  | [] => (progress, none)
  | step :: steps =>
      match step.take verbose progress with
      | (reached, none) => takeAll verbose reached steps
      | (reached, some failure) => (reached, some failure)

end Step

def closingFailure (file : OpenFile) (arrived : Bool) : Option Failure :=
  if arrived then none else some (.cannotOpen file.path)

/-- Closes the Makefile and then the make script. The first failure is the one that counts. -/
def Progress.finish (progress : Progress) (failure : Option Failure) : Outcome :=
  let makefileClosed := progress.makefile.close progress.disk
  let scriptClosed := progress.script.close makefileClosed.1
  { failure :=
      (failure.or (closingFailure progress.makefile makefileClosed.2)).or
        (closingFailure progress.script scriptClosed.2)
    disk := scriptClosed.1
    report := progress.report }

namespace Toolbox

def generateInside (toolbox : Toolbox) (disk : Disk) : Outcome :=
  let verbose := toolbox.interface.verbose
  let scriptReport := reportLine verbose ("Generating: " ++ toolbox.scriptPath.text)
  match disk.openFile? toolbox.scriptPath with
  | none => ⟨some (.cannotOpen toolbox.scriptPath), disk, scriptReport⟩
  | some (scriptDisk, script) =>
      let report :=
        scriptReport ++ reportLine verbose ("Generating: " ++ toolbox.makefilePath.text)
      match scriptDisk.openFile? toolbox.makefilePath with
      | none =>
          ⟨some (.cannotOpen toolbox.makefilePath), (script.close scriptDisk).1, report⟩
      | some (openDisk, makefile) =>
          let (reached, failure) :=
            Step.takeAll verbose ⟨openDisk, script, makefile, report⟩ toolbox.plan
          reached.finish failure

def generate (toolbox : Toolbox) (disk : Disk) : Outcome :=
  let made := disk.makeDirectories toolbox.directory
  if made.2 then toolbox.generateInside made.1
  else ⟨some (.cannotOpen toolbox.directory), made.1, []⟩

end Toolbox

end MexGlue
