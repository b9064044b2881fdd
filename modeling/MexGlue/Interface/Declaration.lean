import MexGlue.Interface.Token

/-!
# Declarations as they are written

The grammar of the interface language, as types. A value of one of them is a derivation: it fixes
every token, in order, and its `tokens` are the words and symbols that it is written with. A token
list is a sentence exactly when it is `Declarations.tokens` of something.

A constructor holds the class name that was written, which need not be the name of its class, and a
namespace holds the name written behind its end, which need not be its own.
-/

namespace MexGlue

inductive Identifier where
  | lower (name : String)
  | upper (name : String)
  deriving DecidableEq, Repr

def Identifier.token : Identifier → Token
  | .lower name => .lower name
  | .upper name => .upper name

def Identifier.name : Identifier → String
  | .lower name => name
  | .upper name => name

/-- A class's name behind namespaces, outermost first. -/
structure QualifiedName where
  namespaces : List String
  name : String
  deriving DecidableEq, Repr

/-- The tokens of namespaces, each with the scope symbol behind it. -/
def scopeTokens (namespaces : List String) : List Token :=
  namespaces.flatMap fun name => [.lower name, .symbol .scope]

def QualifiedName.tokens (q : QualifiedName) : List Token :=
  scopeTokens q.namespaces ++ [.upper q.name]

/-- A mark that may be left out. -/
def optionalToken (written : Bool) (token : Token) : List Token :=
  if written then [token] else []

inductive ArgumentForm where
  | basis (type : BasisType)
  | container (type : ContainerType)
  | containerPointer (type : ContainerType)
  | containerReference (isConst : Bool) (type : ContainerType)
  | classReference (isConst : Bool) (type : QualifiedName)
  | classPointer (type : QualifiedName)
  deriving DecidableEq, Repr

def ArgumentForm.tokens : ArgumentForm → List Token
  | .basis t => [.basis t]
  | .container t => [.container t]
  | .containerPointer t => [.container t, .symbol .star]
  | .containerReference isConst t =>
      optionalToken isConst (.keyword .constWord) ++ [.container t, .symbol .ampersand]
  | .classReference isConst q =>
      optionalToken isConst (.keyword .constWord) ++ q.tokens ++ [.symbol .ampersand]
  | .classPointer q => q.tokens ++ [.symbol .star]

structure ArgumentDecl where
  form : ArgumentForm
  name : Identifier
  deriving DecidableEq, Repr

def ArgumentDecl.tokens (arg : ArgumentDecl) : List Token := arg.form.tokens ++ [arg.name.token]

/-- Arguments after the first, each behind a comma. -/
def followingTokens (args : List ArgumentDecl) : List Token :=
  args.flatMap fun arg => .symbol .comma :: arg.tokens

/-- The tokens of an argument list, without its parentheses. -/
def argumentTokens : List ArgumentDecl → List Token
  | [] => []
  | arg :: args => arg.tokens ++ followingTokens args

/-- The ways to write the type of one returned value. -/
inductive SlotForm where
  | basis (type : BasisType)
  | container (type : ContainerType)
  | classType (type : QualifiedName) (isPointer : Bool)
  deriving DecidableEq, Repr

def SlotForm.tokens : SlotForm → List Token
  | .basis t => [.basis t]
  | .container t => [.container t]
  | .classType q isPointer => q.tokens ++ optionalToken isPointer (.symbol .star)

inductive ReturnForm where
  | void
  | single (slot : SlotForm)
  | pair (first second : SlotForm)
  deriving DecidableEq, Repr

def ReturnForm.tokens : ReturnForm → List Token
  | .void => [.keyword .voidWord]
  | .single slot => slot.tokens
  | .pair first second =>
      [.keyword .pairWord, .symbol .openAngle] ++ first.tokens ++ [.symbol .comma] ++
        second.tokens ++ [.symbol .closeAngle]

/-- What a member says before its argument list. -/
inductive MemberHead where
  | constructor (written : String)
  | method (returns : ReturnForm) (name : String)
  | staticMethod (returns : ReturnForm) (name : Identifier)
  deriving DecidableEq, Repr

def MemberHead.tokens : MemberHead → List Token
  | .constructor written => [.upper written]
  | .method returns name => returns.tokens ++ [.lower name]
  | .staticMethod returns name => .keyword .staticWord :: returns.tokens ++ [name.token]

inductive MemberDecl where
  | includeLine (path : String)
  | constructor (written : String) (args : List ArgumentDecl)
  | method (returns : ReturnForm) (name : String) (args : List ArgumentDecl) (isConst : Bool)
  | staticMethod (returns : ReturnForm) (name : Identifier) (args : List ArgumentDecl)
  deriving DecidableEq, Repr

/-- The tokens of a member with an argument list, up to its closing parenthesis. -/
def MemberHead.tokensWith (head : MemberHead) (args : List ArgumentDecl) : List Token :=
  head.tokens ++ [.symbol .openParen] ++ argumentTokens args ++ [.symbol .closeParen]

def MemberDecl.tokens : MemberDecl → List Token
  | .includeLine path => [.includePath path]
  | .constructor written args =>
      (MemberHead.constructor written).tokensWith args ++ [.symbol .semicolon]
  | .method returns name args isConst =>
      (MemberHead.method returns name).tokensWith args ++
        optionalToken isConst (.keyword .constWord) ++ [.symbol .semicolon]
  | .staticMethod returns name args =>
      (MemberHead.staticMethod returns name).tokensWith args ++ [.symbol .semicolon]

structure ClassDecl where
  name : String
  members : List MemberDecl
  deriving DecidableEq, Repr

def ClassDecl.tokens (decl : ClassDecl) : List Token :=
  [.keyword .classWord, .upper decl.name, .symbol .openBrace] ++
    decl.members.flatMap MemberDecl.tokens ++ [.symbol .endClass]

/-- Classes and namespaces in the order in which they are written. The list grows at its end, as a
reader meets them. -/
inductive Declarations where
  | empty
  | withClass (before : Declarations) (decl : ClassDecl)
  /-- A namespace, with the name written behind its end, if any. -/
  | withNamespace (before : Declarations) (name : String) (body : Declarations)
      (closing : Option String)
  deriving DecidableEq, Repr

def namespaceOpening (name : String) : List Token :=
  [.keyword .namespaceWord, .lower name, .symbol .openBrace]

def namespaceEnd (closing : Option String) : List Token :=
  .symbol .endNamespace :: (closing.map Token.lower).toList

def Declarations.tokens : Declarations → List Token
  | .empty => []
  | .withClass before decl => before.tokens ++ decl.tokens
  | .withNamespace before name body closing =>
      before.tokens ++ namespaceOpening name ++ body.tokens ++ namespaceEnd closing

end MexGlue
