import Mathlib.Data.List.Forall2
import MexGlue.Interface.Model
import MexGlue.Proofs.Grammar.Covering

/-!
# What a derivation says

An element of the model is read from a tree when the tree's tokens are those that the element is
written with: an argument fixes each of its marks, and a mark is set only where it is written. Lists
are read from all subtrees of their kind, in order. A tree is read in one way at most.
-/

namespace MexGlue

open Grammar

attribute [ext] Argument ReturnSlot ReturnValue Constructor Method StaticMethod Class

/-- The type that a token names. -/
def Token.typeName? : Token → Option String
  | .basis t => some t.spelling
  | .container t => some t.spelling
  | .upper name => some name
  | _ => none

/-- The category of the type that a token names. -/
def Token.category? : Token → Option Category
  | .basis _ => some .basis
  | .container _ => some .container
  | .upper _ => some .classType
  | _ => none

namespace Grammar.ParseTree

/-- The children that are no tokens. -/
def parts (tree : ParseTree) : List ParseTree :=
  tree.children.filter fun child => child.rule?.isSome

/-- The children that follow a rule. -/
def partsOf (tree : ParseTree) (r : Rule) : List ParseTree :=
  tree.children.filter fun child => child.rule? = some r

def lowerName? : ParseTree → Option String
  | .leaf (.lower name) => some name
  | _ => none

/-- The name behind the first word. -/
def openedName? (tree : ParseTree) : Option String := tree.children[1]?.bind lowerName?

/-- The name at the very end. -/
def closingName? (tree : ParseTree) : Option String := tree.children.getLast?.bind lowerName?

mutual

/-- The class definitions, in the order of the text, each with the namespaces around it. -/
def blocks (outer : List String) : ParseTree → List (List String × ParseTree)
  | .leaf _ => []
  | .node .classDef children => [(outer, .node .classDef children)]
  | .node .namespaceDef children =>
      forestBlocks (outer ++ (openedName? (.node .namespaceDef children)).toList) children
  | .node _ children => forestBlocks outer children

def forestBlocks (outer : List String) : List ParseTree → List (List String × ParseTree)
  | [] => []
  | tree :: forest => blocks outer tree ++ forestBlocks outer forest

end

inductive Contains : ParseTree → ParseTree → Prop where
  | refl (tree : ParseTree) : Contains tree tree
  | inside {r : Rule} {children : List ParseTree} {child inner : ParseTree}
      (member : child ∈ children) (contains : Contains child inner) :
      Contains (.node r children) inner

/-- Every namespace that is closed under a name is closed under its own. -/
def ClosingsAgree (tree : ParseTree) : Prop :=
  ∀ block, tree.Contains block → block.rule? = some .namespaceDef →
    ∀ name, block.closingName? = some name → block.openedName? = some name

end Grammar.ParseTree

/-- The marks and the type of the argument are those written, in front of its name. -/
def Argument.ReadFrom (arg : Argument) (tree : ParseTree) : Prop :=
  ∃ (type : Token) (name : Identifier),
    type.typeName? = some arg.type ∧ name.name = arg.name ∧
      tree.tokens =
        optionalToken arg.isConst (.keyword .constWord) ++ (scopeTokens arg.namespaces ++ type ::
          (optionalToken arg.isPointer (.symbol .star) ++
            (optionalToken arg.isReference (.symbol .ampersand) ++ [name.token])))

def Argument.ListReadFrom (args : List Argument) (tree : ParseTree) : Prop :=
  List.Forall₂ ReadFrom args tree.parts

def ReturnSlot.ReadFrom (slot : ReturnSlot) (tree : ParseTree) : Prop :=
  ∃ type : Token,
    type.typeName? = some slot.type ∧ type.category? = slot.category ∧
      tree.tokens = scopeTokens slot.namespaces ++ type ::
        optionalToken slot.isPointer (.symbol .star)

def ReturnValue.ReadFrom (value : ReturnValue) (tree : ParseTree) : Prop :=
  if tree.rule? = some .voidReturn then value = { first := .void, second := none }
  else List.Forall₂ ReturnSlot.ReadFrom value.slots tree.parts

/-- A constructor has the name of its class, whatever name is written. -/
def Constructor.ReadFrom (className : String) (constructor : Constructor) (tree : ParseTree) :
    Prop :=
  constructor.name = className ∧
    ∃ (written : String) (args : ParseTree), Argument.ListReadFrom constructor.args args ∧
      tree.children = [.leaf (.upper written), .leaf (.symbol .openParen), args,
        .leaf (.symbol .closeParen), .leaf (.symbol .semicolon)]

def Method.ReadFrom (method : Method) (tree : ParseTree) : Prop :=
  ∃ returns args : ParseTree, method.returnValue.ReadFrom returns ∧
    Argument.ListReadFrom method.args args ∧
      tree.children = returns :: .leaf (.lower method.name) :: .leaf (.symbol .openParen) ::
        args :: .leaf (.symbol .closeParen) ::
          (Phrase.mark (.keyword .constWord) method.isConst ++ [.leaf (.symbol .semicolon)])

def StaticMethod.ReadFrom (method : StaticMethod) (tree : ParseTree) : Prop :=
  ∃ (name : Identifier) (returns args : ParseTree), name.name = method.name ∧
    method.returnValue.ReadFrom returns ∧ Argument.ListReadFrom method.args args ∧
      tree.children = [.leaf (.keyword .staticWord), returns, .leaf name.token,
        .leaf (.symbol .openParen), args, .leaf (.symbol .closeParen), .leaf (.symbol .semicolon)]

/-- The members of each kind are those of the block, in its order. -/
structure Class.ReadFrom (cls : Class) (outer : List String) (block : ParseTree) : Prop where
  namespaces : cls.namespaces = outer
  name : block.children[1]? = some (.leaf (.upper cls.name))
  constructors : List.Forall₂ (Constructor.ReadFrom cls.name) cls.constructors
    (block.partsOf .constructor)
  methods : List.Forall₂ Method.ReadFrom cls.methods (block.partsOf .method)
  staticMethods : List.Forall₂ StaticMethod.ReadFrom cls.staticMethods
    (block.partsOf .staticMethod)
  includes : List.Forall₂ (fun path tree => tree.children = [.leaf (.includePath path)])
    cls.includes (block.partsOf .includeLine)

/-- Every class definition gives one class. -/
def Class.ListReadFrom (classes : List Class) (tree : ParseTree) : Prop :=
  List.Forall₂ (fun cls block => cls.ReadFrom block.1 block.2) classes (tree.blocks [])

/-! ## A tree is read in one way -/

/-- A mark that nothing else starts with tells whether it is written. -/
theorem optionalToken_append_inj {token : Token} {written other : Bool} {rest rest' : List Token}
    (absent : rest.head? ≠ some token) (absent' : rest'.head? ≠ some token)
    (same : optionalToken written token ++ rest = optionalToken other token ++ rest') :
    written = other ∧ rest = rest' := by
  cases written <;> cases other
  · exact ⟨rfl, same⟩
  · have plain : rest = token :: rest' := same
    exact absurd (by rw [plain]; rfl) absent
  · have plain : token :: rest = rest' := same
    exact absurd (by rw [← plain]; rfl) absent'
  · exact ⟨rfl, List.tail_eq_of_cons_eq same⟩

/-- Namespaces end where a type is named. -/
theorem scopeTokens_append_inj {outer others : List String} {type type' : Token}
    {rest rest' : List Token} (isType : type.typeName?.isSome) (isType' : type'.typeName?.isSome)
    (same : scopeTokens outer ++ type :: rest = scopeTokens others ++ type' :: rest') :
    outer = others ∧ type = type' ∧ rest = rest' := by
  induction outer generalizing others with
  | nil =>
      cases others with
      | nil => exact ⟨rfl, (List.cons.inj same).1, (List.cons.inj same).2⟩
      | cons name others =>
          have head : type = .lower name := (List.cons.inj same).1
          subst head
          cases isType
  | cons name outer ih =>
      cases others with
      | nil =>
          have head : .lower name = type' := (List.cons.inj same).1
          subst head
          cases isType'
      | cons name' others =>
          have heads : Token.lower name = .lower name' := (List.cons.inj same).1
          have tails : Token.symbol .scope :: (scopeTokens outer ++ type :: rest) =
              .symbol .scope :: (scopeTokens others ++ type' :: rest') := (List.cons.inj same).2
          obtain ⟨rfl, rfl, rfl⟩ := ih (List.cons.inj tails).2
          cases heads
          exact ⟨rfl, rfl, rfl⟩

theorem head?_scopeTokens_ne {namespaces : List String} {type : Token} {rest : List Token}
    (isType : type.typeName?.isSome) :
    (scopeTokens namespaces ++ type :: rest).head? ≠ some (.keyword .constWord) := by
  cases namespaces with
  | nil =>
      intro same
      cases Option.some.inj same
      cases isType
  | cons name namespaces => exact fun same => by cases same

theorem Identifier.token_ne_symbol (name : Identifier) (s : Symbol) :
    name.token ≠ .symbol s := by
  cases name <;> exact fun same => by cases same

theorem Identifier.token_injective {name other : Identifier} (same : name.token = other.token) :
    name = other := by
  cases name <;> cases other <;> cases same <;> rfl

variable {tree : ParseTree}

theorem Argument.ReadFrom.unique {arg other : Argument} (h : arg.ReadFrom tree)
    (h' : other.ReadFrom tree) : arg = other := by
  obtain ⟨type, name, typeEq, nameEq, tokensEq⟩ := h
  obtain ⟨type', name', typeEq', nameEq', tokensEq'⟩ := h'
  have isType : type.typeName?.isSome := by rw [typeEq]; rfl
  have isType' : type'.typeName?.isSome := by rw [typeEq']; rfl
  have noStar (isReference : Bool) (n : Identifier) :
      (optionalToken isReference (.symbol .ampersand) ++ [n.token]).head? ≠
        some (.symbol .star) := by
    cases isReference
    · exact fun same => n.token_ne_symbol .star (Option.some.inj same)
    · exact fun same => by cases same
  have noAmpersand (n : Identifier) : [n.token].head? ≠ some (.symbol .ampersand) :=
    fun same => n.token_ne_symbol .ampersand (Option.some.inj same)
  obtain ⟨constEq, behindConst⟩ := optionalToken_append_inj (head?_scopeTokens_ne isType)
    (head?_scopeTokens_ne isType') (tokensEq.symm.trans tokensEq')
  obtain ⟨namespacesEq, typeSame, behindType⟩ :=
    scopeTokens_append_inj isType isType' behindConst
  obtain ⟨pointerEq, behindStar⟩ :=
    optionalToken_append_inj (noStar _ name) (noStar _ name') behindType
  obtain ⟨referenceEq, last⟩ :=
    optionalToken_append_inj (noAmpersand name) (noAmpersand name') behindStar
  have argName : arg.name = other.name := by
    rw [← nameEq, ← nameEq', Identifier.token_injective (List.cons.inj last).1]
  have argType : arg.type = other.type := by
    rw [typeSame, typeEq'] at typeEq
    exact (Option.some.inj typeEq).symm
  exact Argument.ext argType argName constEq pointerEq referenceEq namespacesEq

theorem Argument.ListReadFrom.unique {args others : List Argument}
    (h : Argument.ListReadFrom args tree) (h' : Argument.ListReadFrom others tree) :
    args = others :=
  List.left_unique_forall₂' (fun _ _ _ one two => one.unique two) h h'

theorem ReturnSlot.ReadFrom.unique {slot other : ReturnSlot} (h : slot.ReadFrom tree)
    (h' : other.ReadFrom tree) : slot = other := by
  obtain ⟨type, typeEq, categoryEq, tokensEq⟩ := h
  obtain ⟨type', typeEq', categoryEq', tokensEq'⟩ := h'
  have isType : type.typeName?.isSome := by rw [typeEq]; rfl
  have isType' : type'.typeName?.isSome := by rw [typeEq']; rfl
  obtain ⟨namespacesEq, typeSame, behindType⟩ :=
    scopeTokens_append_inj isType isType' (tokensEq.symm.trans tokensEq')
  have pointerEq : slot.isPointer = other.isPointer := by
    have noStar : ([] : List Token).head? ≠ some (.symbol .star) := by simp
    refine (optionalToken_append_inj noStar noStar ?_).1
    rw [List.append_nil, List.append_nil, behindType]
  have slotType : slot.type = other.type := by
    rw [typeSame, typeEq'] at typeEq
    exact (Option.some.inj typeEq).symm
  have categorySame : slot.category = other.category := by
    rw [← categoryEq, ← categoryEq', typeSame]
  exact ReturnSlot.ext slotType categorySame pointerEq namespacesEq

theorem ReturnValue.ReadFrom.unique {value other : ReturnValue} (h : value.ReadFrom tree)
    (h' : other.ReadFrom tree) : value = other := by
  unfold ReadFrom at h h'
  by_cases void : tree.rule? = some .voidReturn
  · rw [if_pos void] at h h'
    rw [h, h']
  · rw [if_neg void] at h h'
    have slots : value.slots = other.slots :=
      List.left_unique_forall₂' (fun _ _ _ one two => one.unique two) h h'
    have firsts : value.first = other.first := (List.cons.inj slots).1
    have seconds : value.second.toList = other.second.toList := (List.cons.inj slots).2
    have second : value.second = other.second := by
      rw [← Option.head?_toList (o := value.second), seconds, Option.head?_toList]
    exact ReturnValue.ext firsts second

theorem Constructor.ReadFrom.unique {className : String} {constructor other : Constructor}
    (h : constructor.ReadFrom className tree) (h' : other.ReadFrom className tree) :
    constructor = other := by
  obtain ⟨nameEq, written, args, argsRead, children⟩ := h
  obtain ⟨nameEq', written', args', argsRead', children'⟩ := h'
  have same := children.symm.trans children'
  simp only [List.cons.injEq, and_true, true_and] at same
  obtain ⟨-, rfl⟩ := same
  exact Constructor.ext (nameEq.trans nameEq'.symm) (argsRead.unique argsRead')

theorem Method.ReadFrom.unique {method other : Method} (h : method.ReadFrom tree)
    (h' : other.ReadFrom tree) : method = other := by
  obtain ⟨returns, args, returnsRead, argsRead, children⟩ := h
  obtain ⟨returns', args', returnsRead', argsRead', children'⟩ := h'
  have same := children.symm.trans children'
  simp only [List.cons.injEq, true_and, ParseTree.leaf.injEq, Token.lower.injEq] at same
  obtain ⟨rfl, nameEq, rfl, behind⟩ := same
  have constEq : method.isConst = other.isConst := by
    revert behind
    cases method.isConst <;> cases other.isConst <;> simp [Phrase.mark, optionalToken]
  exact Method.ext nameEq (argsRead.unique argsRead') (returnsRead.unique returnsRead') constEq

theorem StaticMethod.ReadFrom.unique {method other : StaticMethod} (h : method.ReadFrom tree)
    (h' : other.ReadFrom tree) : method = other := by
  obtain ⟨name, returns, args, nameEq, returnsRead, argsRead, children⟩ := h
  obtain ⟨name', returns', args', nameEq', returnsRead', argsRead', children'⟩ := h'
  have same := children.symm.trans children'
  simp only [List.cons.injEq, true_and, ParseTree.leaf.injEq, and_true] at same
  obtain ⟨rfl, nameSame, rfl⟩ := same
  have methodName : method.name = other.name := by
    rw [← nameEq, ← nameEq', Identifier.token_injective nameSame]
  exact StaticMethod.ext methodName (argsRead.unique argsRead') (returnsRead.unique returnsRead')

theorem Class.ReadFrom.unique {cls other : Class} {outer : List String}
    (h : cls.ReadFrom outer tree) (h' : other.ReadFrom outer tree) : cls = other := by
  have namespaces : cls.namespaces = other.namespaces := h.namespaces.trans h'.namespaces.symm
  have nameEq : cls.name = other.name := by
    have same := h.name.symm.trans h'.name
    simpa only [Option.some.injEq, ParseTree.leaf.injEq, Token.upper.injEq] using same
  have constructors := h'.constructors
  rw [← nameEq] at constructors
  refine Class.ext nameEq namespaces ?_ ?_ ?_ ?_
  · exact List.left_unique_forall₂' (fun _ _ _ one two => one.unique two)
      h.constructors constructors
  · exact List.left_unique_forall₂' (fun _ _ _ one two => one.unique two) h.methods h'.methods
  · exact List.left_unique_forall₂' (fun _ _ _ one two => one.unique two)
      h.staticMethods h'.staticMethods
  · refine List.left_unique_forall₂' (fun path other part one two => ?_) h.includes h'.includes
    have same := one.symm.trans two
    cases same
    rfl

theorem Class.ListReadFrom.unique {classes others : List Class}
    (h : Class.ListReadFrom classes tree) (h' : Class.ListReadFrom others tree) :
    classes = others :=
  List.left_unique_forall₂' (fun _ _ _ one two => one.unique two) h h'

end MexGlue
