import MexGlue.Interface.Dependency
import MexGlue.Interface.ParseFailure
import MexGlue.Storage.Path

/-!
# Why making a toolbox fails

The causes of all stages, with one wording each.
-/

namespace MexGlue

inductive Failure where
  | parse (failure : ParseFailure)
  /-- A member uses a type that is neither built in nor declared. -/
  | missingDependency (use : TypeUse)
  | cannotOpen (path : Path)
  /-- A constructor has an argument whose type has no name, and so has no name itself. -/
  | namelessType
  deriving DecidableEq, Repr

def Failure.message : Failure → String
  | .parse failure => failure.message
  | .missingDependency use => use.message
  | .cannotOpen path => "Can't open file " ++ path.text
  | .namelessType => "A constructor argument has a type without a name"

end MexGlue
