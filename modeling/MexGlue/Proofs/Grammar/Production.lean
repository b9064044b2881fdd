import MexGlue.Interface.Token

/-!
# The grammar of the interface language

Each rule has one production, a phrase of terminals and rules with choices, optional parts and
repetitions. A derivation is a tree whose nodes are rules; the children of a node match the
production of its rule, and the leaves are the tokens that are derived. Choices between rules are no
nodes of their own, since the rule that was chosen tells them apart.
-/

namespace MexGlue.Grammar

/-- A kind of token, as a production asks for it. -/
inductive Terminal where
  | keyword (word : Keyword)
  | basis (type : BasisType)
  | container (type : ContainerType)
  | lowerName
  | upperName
  | includeLine
  | symbol (s : Symbol)
  deriving DecidableEq, Repr

def Terminal.ofToken : Token → Terminal
  | .keyword word => .keyword word
  | .basis type => .basis type
  | .container type => .container type
  | .lower _ => .lowerName
  | .upper _ => .upperName
  | .includePath _ => .includeLine
  | .symbol s => .symbol s

inductive Rule where
  | start | namespaceDef | classDef
  | includeLine | constructor | method | staticMethod
  | arguments
  | basisArgument | containerArgument | classReference | classPointer | containerReference
  | argumentName
  | voidReturn | singleReturn | pairReturn
  | basisSlot | classSlot | containerSlot
  | qualifiedClass | basisType | containerType
  deriving DecidableEq, Repr

inductive Phrase where
  | terminal (t : Terminal)
  | rule (r : Rule)
  | both (first second : Phrase)
  | either (first second : Phrase)
  | optional (phrase : Phrase)
  | many (phrase : Phrase)
  deriving DecidableEq, Repr

instance : Append Phrase := ⟨.both⟩

instance : OrOp Phrase := ⟨.either⟩

namespace Phrase

def word (k : Keyword) : Phrase := .terminal (.keyword k)

def sign (s : Symbol) : Phrase := .terminal (.symbol s)

def lowerName : Phrase := .terminal .lowerName

def upperName : Phrase := .terminal .upperName

def item : Phrase := .rule .classDef ||| .rule .namespaceDef

def member : Phrase :=
  .rule .includeLine ||| .rule .constructor ||| .rule .method ||| .rule .staticMethod

def staticName : Phrase := upperName ||| lowerName

def argument : Phrase :=
  .rule .basisArgument ||| .rule .containerArgument ||| .rule .classReference |||
    .rule .classPointer ||| .rule .containerReference

def returnType : Phrase := .rule .voidReturn ||| .rule .singleReturn ||| .rule .pairReturn

def returnSlot : Phrase := .rule .basisSlot ||| .rule .classSlot ||| .rule .containerSlot

end Phrase

open Phrase in
/-- The productions. -/
def Rule.phrase : Rule → Phrase
  | .start => many item
  | .namespaceDef =>
      word .namespaceWord ++ lowerName ++ sign .openBrace ++ many item ++ sign .endNamespace ++
        optional lowerName
  | .classDef =>
      word .classWord ++ upperName ++ sign .openBrace ++ many member ++ sign .endClass
  | .includeLine => terminal .includeLine
  | .constructor =>
      upperName ++ sign .openParen ++ rule .arguments ++ sign .closeParen ++ sign .semicolon
  | .method =>
      returnType ++ lowerName ++ sign .openParen ++ rule .arguments ++ sign .closeParen ++
        optional (word .constWord) ++ sign .semicolon
  | .staticMethod =>
      word .staticWord ++ returnType ++ staticName ++ sign .openParen ++ rule .arguments ++
        sign .closeParen ++ sign .semicolon
  | .arguments => optional (argument ++ many (sign .comma ++ argument))
  | .basisArgument => rule .basisType ++ rule .argumentName
  | .containerArgument => rule .containerType ++ optional (sign .star) ++ rule .argumentName
  | .classReference =>
      optional (word .constWord) ++ rule .qualifiedClass ++ sign .ampersand ++ rule .argumentName
  | .classPointer => rule .qualifiedClass ++ sign .star ++ rule .argumentName
  | .containerReference =>
      optional (word .constWord) ++ rule .containerType ++ sign .ampersand ++ rule .argumentName
  | .argumentName => lowerName ||| upperName
  | .voidReturn => word .voidWord
  | .singleReturn => returnSlot
  | .pairReturn =>
      word .pairWord ++ sign .openAngle ++ returnSlot ++ sign .comma ++ returnSlot ++
        sign .closeAngle
  | .basisSlot => rule .basisType
  | .classSlot => rule .qualifiedClass ++ optional (sign .star)
  | .containerSlot => rule .containerType
  | .qualifiedClass => many (lowerName ++ sign .scope) ++ upperName
  | .basisType =>
      terminal (.basis .string) ||| terminal (.basis .bool) ||| terminal (.basis .sizeT) |||
        terminal (.basis .int) ||| terminal (.basis .double)
  | .containerType => terminal (.container .vector) ||| terminal (.container .matrix)

inductive ParseTree where
  | leaf (token : Token)
  | node (rule : Rule) (children : List ParseTree)

namespace ParseTree

def rule? : ParseTree → Option Rule
  | .leaf _ => none
  | .node rule _ => some rule

def children : ParseTree → List ParseTree
  | .leaf _ => []
  | .node _ children => children

@[simp] theorem rule?_leaf (token : Token) : (leaf token).rule? = none := rfl

@[simp] theorem rule?_node (r : Rule) (children : List ParseTree) :
    (node r children).rule? = some r := rfl

@[simp] theorem children_node (r : Rule) (children : List ParseTree) :
    (node r children).children = children := rfl

mutual

/-- The tokens at the leaves, from left to right. -/
def tokens : ParseTree → List Token
  | .leaf token => [token]
  | .node _ children => forestTokens children

def forestTokens : List ParseTree → List Token
  | [] => []
  | tree :: forest => tree.tokens ++ forestTokens forest

end

@[simp] theorem forestTokens_append (front back : List ParseTree) :
    forestTokens (front ++ back) = forestTokens front ++ forestTokens back := by
  induction front with
  | nil => rfl
  | cons tree front ih => simp [forestTokens, ih]

theorem forestTokens_eq_flatMap (forest : List ParseTree) :
    forestTokens forest = forest.flatMap tokens := by
  induction forest with
  | nil => rfl
  | cons tree forest ih => simp [forestTokens, ih]

end ParseTree

/-- Whether a phrase stands for these trees, in this order. -/
def Phrase.Matches : Phrase → List ParseTree → Prop
  | .terminal t, forest => ∃ token, forest = [.leaf token] ∧ Terminal.ofToken token = t
  | .rule r, forest => ∃ children, forest = [.node r children]
  | .both p q, forest => ∃ front back, forest = front ++ back ∧ p.Matches front ∧ q.Matches back
  | .either p q, forest => p.Matches forest ∨ q.Matches forest
  | .optional p, forest => forest = [] ∨ p.Matches forest
  | .many p, forest => ∃ parts : List (List ParseTree), forest = parts.flatten ∧
      ∀ part ∈ parts, p.Matches part

/-- The children of every node match the production of its rule. -/
inductive ParseTree.Derived : ParseTree → Prop where
  | leaf (token : Token) : Derived (.leaf token)
  | node {rule : Rule} {children : List ParseTree} (production : rule.phrase.Matches children)
      (derived : ∀ child ∈ children, Derived child) : Derived (.node rule children)

/-- The tree derives these tokens from the start of the grammar. -/
structure Derives (tree : ParseTree) (tokens : List Token) : Prop where
  derived : tree.Derived
  root : tree.rule? = some .start
  tokens_eq : tree.tokens = tokens

/-- Tokens that the grammar accepts. -/
def Sentence (tokens : List Token) : Prop := ∃ tree, Derives tree tokens

/-- Tokens with which a sentence can begin. -/
def ViablePrefix (tokens : List Token) : Prop := ∃ suffix, Sentence (tokens ++ suffix)

theorem ParseTree.derived_node_iff {rule : Rule} {children : List ParseTree} :
    (ParseTree.node rule children).Derived ↔
      rule.phrase.Matches children ∧ ∀ child ∈ children, child.Derived := by
  constructor
  · intro h
    cases h with
    | node production derived => exact ⟨production, derived⟩
  · intro h
    rcases h with ⟨production, derived⟩
    exact .node production derived

end MexGlue.Grammar
