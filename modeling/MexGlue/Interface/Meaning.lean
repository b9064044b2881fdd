import MexGlue.Interface.Declaration
import MexGlue.Interface.Model

/-!
# What declarations mean

Every class written gives one class of the model, with its members sorted by kind and otherwise in
the order of the text. A constructor is known by its shape and takes the name of its class, whatever
class name it is written with. Namespaces go in front of the classes inside them; one that is closed
under another name has no meaning, and the first such closing in the order of the text is reported.
-/

namespace MexGlue

def ArgumentDecl.argument (decl : ArgumentDecl) : Argument :=
  match decl.form with
  | .basis t => { type := t.spelling, name := decl.name.name }
  | .container t => { type := t.spelling, name := decl.name.name }
  | .containerPointer t => { type := t.spelling, name := decl.name.name, isPointer := true }
  | .containerReference isConst t =>
      { type := t.spelling, name := decl.name.name, isConst := isConst, isReference := true }
  | .classReference isConst q =>
      { type := q.name, name := decl.name.name, isConst := isConst, isReference := true,
        namespaces := q.namespaces }
  | .classPointer q =>
      { type := q.name, name := decl.name.name, isPointer := true, namespaces := q.namespaces }

def SlotForm.slot : SlotForm → ReturnSlot
  | .basis t => { type := t.spelling, category := some .basis }
  | .container t => { type := t.spelling, category := some .container }
  | .classType q isPointer =>
      { type := q.name, category := some .classType, isPointer := isPointer,
        namespaces := q.namespaces }

def ReturnForm.returnValue : ReturnForm → ReturnValue
  | .void => {}
  | .single slot => { first := slot.slot }
  | .pair first second => { first := first.slot, second := some second.slot }

namespace MemberDecl

/-- The constructor of the given class that a member writes, if it writes one. -/
def constructor? (className : String) : MemberDecl → Option Constructor
  | .constructor _ args => some ⟨className, args.map ArgumentDecl.argument⟩
  | _ => none

def method? : MemberDecl → Option Method
  | .method returns name args isConst =>
      some ⟨name, args.map ArgumentDecl.argument, returns.returnValue, isConst⟩
  | _ => none

def staticMethod? : MemberDecl → Option StaticMethod
  | .staticMethod returns name args =>
      some ⟨name.name, args.map ArgumentDecl.argument, returns.returnValue⟩
  | _ => none

def includePath? : MemberDecl → Option String
  | .includeLine path => some path
  | _ => none

end MemberDecl

/-- The class that is written, outside of any namespace. -/
def ClassDecl.toClass (decl : ClassDecl) : Class where
  name := decl.name
  constructors := decl.members.filterMap (MemberDecl.constructor? decl.name)
  methods := decl.members.filterMap MemberDecl.method?
  staticMethods := decl.members.filterMap MemberDecl.staticMethod?
  includes := decl.members.filterMap MemberDecl.includePath?

/-- A namespace closed under another name, with the number of the token that names it. -/
structure WrongClosing where
  token : Nat
  opened : String
  closed : String
  deriving DecidableEq, Repr

/-- The fault of a closing name, which stands at this token. -/
def WrongClosing.check (token : Nat) (opened : String) : Option String → Except WrongClosing Unit
  | none => .ok ()
  | some closed => if closed = opened then .ok () else .error ⟨token, opened, closed⟩

namespace Declarations

def size (decls : Declarations) : Nat := decls.tokens.length

/-- The classes declared, in the order of the text, if the first token has this number. -/
def classesFrom (first : Nat) : Declarations → Except WrongClosing (List Class)
  | .empty => .ok []
  | .withClass before decl => do
      let earlier ← before.classesFrom first
      return earlier ++ [decl.toClass]
  | .withNamespace before name body closing => do
      let earlier ← before.classesFrom first
      let bodyStart := first + before.size + (namespaceOpening name).length
      let inner ← body.classesFrom bodyStart
      WrongClosing.check (bodyStart + body.size + 1) name closing
      return earlier ++ inner.map (Class.within name)

def classes (decls : Declarations) : Except WrongClosing (List Class) := decls.classesFrom 0

end Declarations

end MexGlue
