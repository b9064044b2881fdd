import MexGlue.Interface.Meaning
import MexGlue.Interface.ParseFailure
import MexGlue.Interface.ReadingState
import MexGlue.Interface.Tiling

/-!
# Interfaces from text

A text is an interface when it is cut into pieces completely, its tokens write declarations, and
every closing name is right. The grammar is settled for the whole text before any closing name is
looked at. Of two faults of the grammar the one further to the front is reported, so the tokens in
front of a character that starts no piece are read first.
-/

namespace MexGlue

/-- How many characters an excerpt shows at most. -/
def excerptLength : Nat := 20

def ParseFailure.at (text : List Char) (offset : Nat) : ParseFailure :=
  .grammar offset (String.ofList ((text.drop offset).take excerptLength))

/-- The declarations that a tiling writes, or the number of the token that cannot stand in its
place, which is one past the last where the tiling or the declarations stop short. -/
def Tiling.declarations (tiling : Tiling) : Except Nat Declarations :=
  match Declarations.ofTokens tiling.tokens with
  | .error i => .error i
  | .ok decls => if tiling.rest = [] then .ok decls else .error tiling.tokens.length

def Declarations.ofText (text : List Char) : Except ParseFailure Declarations :=
  let tiling := Tiling.ofText text
  match tiling.declarations with
  | .error i => .error (.at text (tiling.offset i))
  | .ok decls => .ok decls

def Class.listOfText (text : List Char) : Except ParseFailure (List Class) :=
  match Declarations.ofText text with
  | .error failure => .error failure
  | .ok decls =>
      match decls.classes with
      | .error wrong =>
          .error (.closing ((Tiling.ofText text).offset wrong.token) wrong.opened wrong.closed)
      | .ok classes => .ok classes

def Interface.ofText (name : String) (verbose : Bool) (text : String) :
    Except ParseFailure Interface :=
  match Class.listOfText text.toList with
  | .error failure => .error failure
  | .ok classes => .ok ⟨name, verbose, classes⟩

end MexGlue
