/-!
# Tokens of the interface language

A token carries what the grammar needs of a piece of text and nothing about its layout. Words are
classified as a whole: a reserved word is one only when the entire identifier equals it, so
`constant` and `Vectors` are ordinary names.
-/

namespace MexGlue

/-- The value types of the language that are no classes. -/
inductive BasisType where
  | string | bool | sizeT | int | double
  deriving DecidableEq, Repr

/-- The numeric containers of the language. -/
inductive ContainerType where
  | vector | matrix
  deriving DecidableEq, Repr

def BasisType.spelling : BasisType → String
  | .string => "string"
  | .bool => "bool"
  | .sizeT => "size_t"
  | .int => "int"
  | .double => "double"

def ContainerType.spelling : ContainerType → String
  | .vector => "Vector"
  | .matrix => "Matrix"

def BasisType.all : List BasisType := [.string, .bool, .sizeT, .int, .double]

def ContainerType.all : List ContainerType := [.vector, .matrix]

theorem BasisType.mem_all (t : BasisType) : t ∈ all := by cases t <;> decide

theorem ContainerType.mem_all (t : ContainerType) : t ∈ all := by cases t <;> decide

/-- The reserved words that name no type. -/
inductive Keyword where
  | constWord | staticWord | namespaceWord | classWord | voidWord | pairWord
  deriving DecidableEq, Repr

def Keyword.spelling : Keyword → String
  | .constWord => "const"
  | .staticWord => "static"
  | .namespaceWord => "namespace"
  | .classWord => "class"
  | .voidWord => "void"
  | .pairWord => "pair"

def Keyword.all : List Keyword :=
  [.constWord, .staticWord, .namespaceWord, .classWord, .voidWord, .pairWord]

/-- The pieces of punctuation. The end of a class and the end of a namespace are single pieces
that hold no blank. -/
inductive Symbol where
  | openBrace | endClass | endNamespace | openParen | closeParen | semicolon | comma
  | openAngle | closeAngle | scope | star | ampersand
  deriving DecidableEq, Repr

def Symbol.spelling : Symbol → List Char
  | .openBrace => ['{']
  | .endClass => ['}', ';']
  | .endNamespace =>
      ['}', '/', '/', '/', '\\', 'n', 'a', 'm', 'e', 's', 'p', 'a', 'c', 'e']
  | .openParen => ['(']
  | .closeParen => [')']
  | .semicolon => [';']
  | .comma => [',']
  | .openAngle => ['<']
  | .closeAngle => ['>']
  | .scope => [':', ':']
  | .star => ['*']
  | .ampersand => ['&']

def Symbol.all : List Symbol :=
  [.openBrace, .endClass, .endNamespace, .openParen, .closeParen, .semicolon, .comma,
    .openAngle, .closeAngle, .scope, .star, .ampersand]

theorem Symbol.mem_all (s : Symbol) : s ∈ all := by cases s <;> decide

theorem Symbol.spelling_ne_nil (s : Symbol) : s.spelling ≠ [] := by cases s <;> decide

inductive Token where
  | keyword (word : Keyword)
  | basis (type : BasisType)
  | container (type : ContainerType)
  /-- A name that starts with a small letter: a namespace, a method, an argument. -/
  | lower (name : String)
  /-- A name that starts with a capital letter: a class, a static method, an argument. -/
  | upper (name : String)
  /-- An include line, with the path between its angle brackets. -/
  | includePath (path : String)
  | symbol (s : Symbol)
  deriving DecidableEq, Repr

/-- The reserved words with the tokens that they stand for. -/
def Token.reserved : List (String × Token) :=
  Keyword.all.map (fun k => (k.spelling, .keyword k)) ++
    BasisType.all.map (fun t => (t.spelling, .basis t)) ++
    ContainerType.all.map (fun t => (t.spelling, .container t))

def Token.ofLowerWord (word : String) : Token :=
  (reserved.lookup word).getD (.lower word)

def Token.ofUpperWord (word : String) : Token :=
  (reserved.lookup word).getD (.upper word)

end MexGlue
