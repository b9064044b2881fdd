/-!
# Paths

A path is a root and the list of its components. Doubled slashes, a slash at the end and components
that stay in place say nothing and are dropped, but for exactly two slashes at the start; a component
that goes up is kept, since what it leads to depends on the disk.
-/

namespace MexGlue

/-- The parts of a text between its slashes. -/
def segments : List Char → List (List Char)
  | [] => [[]]
  | c :: rest =>
      if c = '/' then [] :: segments rest
      else
        match segments rest with
        | [] => [[c]]
        | first :: others => (c :: first) :: others

/-- What a path starts from. -/
inductive Root where
  /-- The directory that the path is seen from. -/
  | here
  | slash
  /-- Exactly two slashes lead to the same place as one and are kept apart from it. -/
  | twoSlashes
  deriving DecidableEq, Repr

namespace Root

def ofText : List Char → Root
  | '/' :: '/' :: '/' :: _ => .slash
  | '/' :: '/' :: _ => .twoSlashes
  | '/' :: _ => .slash
  | _ => .here

def text : Root → String
  | .here => ""
  | .slash => "/"
  | .twoSlashes => "//"

end Root

structure Path where
  root : Root := .here
  components : List String
  deriving DecidableEq, Repr

namespace Path

/-- The component that goes up. -/
def up : String := ".."

/-- Whether a part of a path's text is a component of it. -/
def isComponent (part : List Char) : Bool := part != [] && part != ['.']

def ofText (text : String) : Path where
  root := .ofText text.toList
  components := ((segments text.toList).filter isComponent).map String.ofList

/-- How a path is written. The path without a root and without components is a dot. -/
def text (path : Path) : String :=
  if path.root = .here ∧ path.components = [] then "."
  else path.root.text ++ "/".intercalate path.components

/-- The path named by a text, seen from this path. -/
def join (path : Path) (text : String) : Path :=
  let other := ofText text
  if other.root = .here then { path with components := path.components ++ other.components }
  else other

end Path

end MexGlue
