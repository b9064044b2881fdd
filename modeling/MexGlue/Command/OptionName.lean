/-!
# Options

The options of the command. Each has a long spelling, and some can also be written with one letter.
-/

namespace MexGlue

/-- The options that stand for themselves. -/
inductive Flag where
  | help | check | verbose
  deriving DecidableEq, Repr

/-- The options that need a value. -/
inductive ValueOption where
  | libraryNamespace | mexExtension | mexFlags
  deriving DecidableEq, Repr

inductive OptionName where
  | flag (flag : Flag)
  | value (option : ValueOption)
  deriving DecidableEq, Repr

namespace OptionName

def all : List OptionName :=
  [.flag .help, .value .libraryNamespace, .value .mexExtension, .value .mexFlags, .flag .check,
    .flag .verbose]

/-- The long spelling, without its two hyphens. -/
def longName : OptionName → List Char
  | .flag .help => ['h', 'e', 'l', 'p']
  | .flag .check => ['c', 'h', 'e', 'c', 'k']
  | .flag .verbose => ['v', 'e', 'r', 'b', 'o', 's', 'e']
  | .value .libraryNamespace => ['n', 'a', 'm', 'e', 's', 'p', 'a', 'c', 'e']
  | .value .mexExtension => ['m', 'e', 'x', '-', 'e', 'x', 't']
  | .value .mexFlags => ['m', 'e', 'x', '-', 'f', 'l', 'a', 'g', 's']

/-- The whole long spelling. -/
def longText (name : OptionName) : String := String.ofList ('-' :: '-' :: name.longName)

def ofLetter? : Char → Option OptionName
  | 'h' => some (.flag .help)
  | 'n' => some (.value .libraryNamespace)
  | 'v' => some (.flag .verbose)
  | _ => none

/-- The options that a long spelling can mean: the one it spells in full, or all that it starts. -/
def meanings (written : List Char) : List OptionName :=
  match all.find? fun option => option.longName == written with
  | some option => [option]
  | none => all.filter fun option => written.isPrefixOf option.longName

/-- The ways to write an option in full. The usage shows the first one. -/
def spellings : OptionName → List String
  | .flag .help => ["-h", "--help"]
  | .value .libraryNamespace => ["--namespace", "-n"]
  | .flag .verbose => ["--verbose", "-v"]
  | name => [name.longText]

/-- How messages call an option. -/
def text (name : OptionName) : String := "/".intercalate name.spellings

end OptionName

/-- What stands for the value of an option in the usage. -/
def ValueOption.placeholder (option : ValueOption) : String :=
  String.ofList ((OptionName.value option).longName.map fun c => if c = '-' then '_' else c.toUpper)

end MexGlue
