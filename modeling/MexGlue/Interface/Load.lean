import MexGlue.Failure
import MexGlue.Interface.OfText
import MexGlue.Storage.Disk
import MexGlue.Text.Lines

/-!
# Interface files

An interface file is named after its module. It holds UTF-8, without exception, and its line ends
are made uniform before anything is read; a mark of byte order is text like any other.
-/

namespace MexGlue

/-- What is said when a run is asked to report what it does. -/
abbrev Report := List String

namespace Interface

def file (directory : Path) (name : String) : Path := directory.join (name ++ ".h")

/-- The text in a file's bytes, if they are one. -/
def decode? (content : ByteArray) : Option String :=
  (String.fromUTF8? content).map fun text =>
    String.ofList (Text.normalizeLineEnds text.toList)

/-- The interface in a file, given the file's bytes if it can be read. -/
def ofFile (path : Path) (name : String) (verbose : Bool) (content : Option ByteArray) :
    Except Failure Interface :=
  match content.bind decode? with
  | none => .error (.cannotOpen path)
  | some text =>
      match ofText name verbose text with
      | .error failure => .error (.parse failure)
      | .ok interface => .ok interface

def load (directory : Path) (name : String) (verbose : Bool) (disk : Disk) :
    Except Failure Interface :=
  let path := file directory name
  ofFile path name verbose (disk.read? path)

def loadReport (directory : Path) (interface : Interface) : Report :=
  if interface.verbose then
    ["Parsed: " ++ (file directory interface.name).text ++ " (" ++
      interface.classes.length.repr ++ " classes)"]
  else []

end Interface

end MexGlue
