import MexGlue.Command.OptionName
import MexGlue.Text.Lines
import MexGlue.Text.Shown

/-!
# Usage

What is said about the command itself: its usage, its help, and what is wrong with words that make
no request. The texts are for a terminal of 80 columns, two of which stay free.
-/

namespace MexGlue

/-- A word that can mean several options. -/
structure Ambiguity where
  text : String
  meanings : List OptionName
  deriving DecidableEq, Repr

/-- What stands behind a flag in the same word, where it may not. -/
structure IgnoredValue where
  flag : Flag
  value : String
  deriving DecidableEq, Repr

/-- What is wrong with the words of a command line. -/
inductive UsageProblem where
  | ambiguous (word : Ambiguity)
  | valueMissing (option : ValueOption)
  | valueIgnored (ignored : IgnoredValue)
  | argumentsMissing (names : List String)
  /-- Words that are no options, or that nothing is left to take. -/
  | unrecognized (texts : List String)
  | toolboxMissing
  deriving DecidableEq, Repr

namespace Usage

def directoryName : String := "interface_path"

def moduleName : String := "module_name"

def toolboxName : String := "toolbox_path"

end Usage

def UsageProblem.message : UsageProblem → String
  | .ambiguous word =>
      "ambiguous option: " ++ word.text ++ " could match " ++
        ", ".intercalate (word.meanings.map OptionName.longText)
  | .valueMissing option =>
      "argument " ++ (OptionName.value option).text ++ ": expected one argument"
  | .valueIgnored ignored =>
      "argument " ++ (OptionName.flag ignored.flag).text ++ ": ignored explicit argument " ++
        Text.shown ignored.value
  | .argumentsMissing names =>
      "the following arguments are required: " ++ ", ".intercalate names
  | .unrecognized texts => "unrecognized arguments: " ++ " ".intercalate texts
  | .toolboxMissing => Usage.toolboxName ++ " is required unless --check is given"

namespace Usage

/-! ## The usage -/

def width : Nat := 78

def blanks (count : Nat) : String := String.ofList (List.replicate count ' ')

def indented (columns : Nat) (text : String) : String := blanks columns ++ text

/-- The lines that an open line and parts behind it make. A part that does not fit begins the next
line. -/
def wrap (columns : Nat) (line : String) : List String → List String
  | [] => [line]
  | part :: parts =>
      let longer := line ++ " " ++ part
      if longer.length ≤ width then wrap columns longer parts
      else line :: wrap columns (indented columns part) parts

/-- The lines that parts make from a new line on. -/
def block (columns : Nat) : List String → List String
  | [] => []
  | part :: parts => wrap columns (indented columns part) parts

/-- An option with what stands for its value. -/
def withPlaceholder (spelling : String) : OptionName → String
  | .flag _ => spelling
  | .value option => spelling ++ " " ++ option.placeholder

def optionPart (name : OptionName) : String :=
  "[" ++ withPlaceholder (name.spellings.headD "") name ++ "]"

def optionParts : List String := OptionName.all.map optionPart

def argumentParts : List String := [directoryName, moduleName, "[" ++ toolboxName ++ "]"]

/-- The lines of the usage. The name of the program stands in front of the options, and on a line of
its own if it takes more than three quarters of the columns. -/
def lines (program : String) : List String :=
  let start := "usage: " ++ program
  if 4 * start.length ≤ 3 * width then
    let columns := start.length + 1
    wrap columns start optionParts ++ block columns argumentParts
  else
    let columns := "usage: ".length
    start :: (block columns optionParts ++ block columns argumentParts)

/-! ## The help -/

/-- A name with what it is for, in two columns. A name that is too long for its column stands on a
line of its own. -/
def entry (name purpose : String) : List String :=
  if name.length ≤ 20 then [indented 2 name ++ blanks (22 - name.length) ++ purpose]
  else [indented 2 name, indented 24 purpose]

def optionPurpose : OptionName → String
  | .flag .help => "show this help message and exit"
  | .value .libraryNamespace => "C++ namespace used by the MEX glue"
  | .value .mexExtension => "MEX file extension"
  | .value .mexFlags => "Flags passed to mex"
  | .flag .check => "Only parse and validate the interface"
  | .flag .verbose => "Report every file written"

def optionEntry (name : OptionName) : List String :=
  entry (", ".intercalate (name.spellings.map (withPlaceholder · name))) (optionPurpose name)

def helpLines (program : String) : List String :=
  lines program ++
  ["", "Generate a MATLAB toolbox from an interface file", "", "positional arguments:"] ++
  entry directoryName "Directory containing <module_name>.h" ++
  entry moduleName "Name of the module to wrap" ++
  entry toolboxName "Output directory for the toolbox" ++
  ["", "options:"] ++ OptionName.all.flatMap optionEntry

/-- The text for words that make no request. -/
def errorText (program : String) (problem : UsageProblem) : String :=
  Text.unlines (lines program) ++ program ++ ": error: " ++ problem.message ++ "\n"

end Usage

end MexGlue
