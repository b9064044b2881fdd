import MexGlue.Proofs.Model.Classes
import MexGlue.Proofs.ReadingState.Settled
import MexGlue.Proofs.Tiling.Spelling

/-!
# Models that a text can say

The fields of the model are plain, and a text fills them in certain ways only: names are words,
types are written in one of a few shapes, and constructors have the name of their class. Whatever
well-formed tokens declare is of this kind.
-/

namespace MexGlue

def IsName (name : String) : Prop := IsLowerName name ∨ IsUpperName name

/-- Whether the name of a type is of this category. -/
def NamesType (type : String) : Category → Prop
  | .basis => ∃ t : BasisType, t.spelling = type
  | .container => ∃ t : ContainerType, t.spelling = type
  | .classType => IsUpperName type

theorem BasisType.spelling_mem_reservedWords (t : BasisType) : t.spelling ∈ reservedWords := by
  cases t <;> decide

theorem ContainerType.spelling_mem_reservedWords (t : ContainerType) :
    t.spelling ∈ reservedWords := by
  cases t <;> decide

theorem BasisType.spelling_ne_container (b : BasisType) (c : ContainerType) :
    b.spelling ≠ c.spelling := by
  cases b <;> cases c <;> decide

theorem IsUpperName.ne_basis {name : String} (h : IsUpperName name) (t : BasisType) :
    t.spelling ≠ name := by
  intro same
  exact h.2 (same ▸ t.spelling_mem_reservedWords)

theorem IsUpperName.ne_container {name : String} (h : IsUpperName name) (t : ContainerType) :
    t.spelling ≠ name := by
  intro same
  exact h.2 (same ▸ t.spelling_mem_reservedWords)

/-- A type's name is of one category only. -/
theorem NamesType.unique {type : String} {category other : Category} (h : NamesType type category)
    (h' : NamesType type other) : category = other := by
  cases category <;> cases other <;> simp only [NamesType] at h h' ⊢
  · exact absurd h.choose_spec (h'.ne_basis _)
  · exact absurd (h.choose_spec.trans h'.choose_spec.symm) (BasisType.spelling_ne_container _ _)
  · exact absurd h'.choose_spec (h.ne_basis _)
  · exact absurd h'.choose_spec (h.ne_container _)
  · exact absurd (h'.choose_spec.trans h.choose_spec.symm) (BasisType.spelling_ne_container _ _)
  · exact absurd h.choose_spec (h'.ne_container _)

/-- The ways in which the type of an argument is written. -/
inductive ArgumentShape where
  | basisValue | containerValue | containerReference | classReference | classPointer
  deriving DecidableEq, Repr

namespace ArgumentShape

def category : ArgumentShape → Category
  | .basisValue => .basis
  | .containerValue => .container
  | .containerReference => .container
  | .classReference => .classType
  | .classPointer => .classType

def isReference : ArgumentShape → Bool
  | .basisValue => false
  | .containerValue => false
  | .containerReference => true
  | .classReference => true
  | .classPointer => false

theorem eq_of_category_of_isReference {shape other : ArgumentShape}
    (category : shape.category = other.category)
    (reference : shape.isReference = other.isReference) : shape = other := by
  revert category reference
  cases shape <;> cases other <;> decide

end ArgumentShape

namespace Argument

def HasShape (arg : Argument) : ArgumentShape → Prop
  | .basisValue =>
      NamesType arg.type .basis ∧ arg.isConst = false ∧ arg.isPointer = false ∧
        arg.isReference = false ∧ arg.namespaces = []
  | .containerValue =>
      NamesType arg.type .container ∧ arg.isConst = false ∧ arg.isReference = false ∧
        arg.namespaces = []
  | .containerReference =>
      NamesType arg.type .container ∧ arg.isReference = true ∧ arg.isPointer = false ∧
        arg.namespaces = []
  | .classReference =>
      NamesType arg.type .classType ∧ arg.isReference = true ∧ arg.isPointer = false ∧
        ∀ name ∈ arg.namespaces, IsLowerName name
  | .classPointer =>
      NamesType arg.type .classType ∧ arg.isPointer = true ∧ arg.isConst = false ∧
        arg.isReference = false ∧ ∀ name ∈ arg.namespaces, IsLowerName name

structure WellFormed (arg : Argument) : Prop where
  name : IsName arg.name
  shape : ∃ shape, arg.HasShape shape ∧ ∀ other, arg.HasShape other → other = shape

theorem HasShape.category {arg : Argument} {shape : ArgumentShape} (h : arg.HasShape shape) :
    NamesType arg.type shape.category := by
  cases shape <;> exact h.1

theorem HasShape.isReference {arg : Argument} {shape : ArgumentShape} (h : arg.HasShape shape) :
    arg.isReference = shape.isReference := by
  cases shape with
  | basisValue => exact h.2.2.2.1
  | containerValue => exact h.2.2.1
  | containerReference => exact h.2.1
  | classReference => exact h.2.1
  | classPointer => exact h.2.2.2.1

theorem HasShape.unique {arg : Argument} {shape other : ArgumentShape} (h : arg.HasShape shape)
    (h' : arg.HasShape other) : other = shape := by
  have category : other.category = shape.category := h'.category.unique h.category
  have reference : other.isReference = shape.isReference :=
    h'.isReference.symm.trans h.isReference
  exact ArgumentShape.eq_of_category_of_isReference category reference

end Argument

/-- A slot is of a category exactly if its type is, and only classes have marks. -/
structure ReturnSlot.WellFormed (slot : ReturnSlot) : Prop where
  category : slot.category ≠ none
  category_iff : ∀ category, slot.category = some category ↔ NamesType slot.type category
  bare : slot.category ≠ some .classType → slot.isPointer = false ∧ slot.namespaces = []
  namespaces : ∀ name ∈ slot.namespaces, IsLowerName name

/-- Nothing is returned, or one or two slots, none of which is `void`. -/
def ReturnValue.WellFormed (value : ReturnValue) : Prop :=
  value = { first := .void, second := none } ∨ ∀ slot ∈ value.slots, slot.WellFormed

structure Class.WellFormed (cls : Class) : Prop where
  name : IsUpperName cls.name
  namespaces : ∀ name ∈ cls.namespaces, IsLowerName name
  constructors : ∀ constructor ∈ cls.constructors,
    constructor.name = cls.name ∧ ∀ arg ∈ constructor.args, arg.WellFormed
  methods : ∀ method ∈ cls.methods,
    IsLowerName method.name ∧ (∀ arg ∈ method.args, arg.WellFormed) ∧
      method.returnValue.WellFormed
  staticMethods : ∀ method ∈ cls.staticMethods,
    IsName method.name ∧ (∀ arg ∈ method.args, arg.WellFormed) ∧ method.returnValue.WellFormed
  includes : ∀ path ∈ cls.includes, '>' ∉ path.toList

def Interface.WellFormed (interface : Interface) : Prop :=
  ∀ cls ∈ interface.classes, cls.WellFormed

/-! ## What well-formed tokens declare -/

@[simp] theorem wellFormedTokens_scopeTokens {namespaces : List String} :
    WellFormedTokens (scopeTokens namespaces) ↔ ∀ name ∈ namespaces, IsLowerName name := by
  simp [scopeTokens]

@[simp] theorem wellFormedTokens_optionalToken {written : Bool} {token : Token} :
    WellFormedTokens (optionalToken written token) ↔ (written = true → token.WellFormed) := by
  cases written <;> simp

@[simp] theorem wellFormedTokens_qualifiedName {q : QualifiedName} :
    WellFormedTokens q.tokens ↔ (∀ name ∈ q.namespaces, IsLowerName name) ∧ IsUpperName q.name := by
  simp [QualifiedName.tokens]

theorem Identifier.isName {name : Identifier} (h : name.token.WellFormed) : IsName name.name := by
  cases name with
  | lower name => exact .inl h
  | upper name => exact .inr h

theorem ArgumentDecl.exists_hasShape {decl : ArgumentDecl} (h : WellFormedTokens decl.tokens) :
    ∃ shape, decl.argument.HasShape shape := by
  rcases decl with ⟨form, name⟩
  cases form with
  | basis t => exact ⟨.basisValue, ⟨t, rfl⟩, rfl, rfl, rfl, rfl⟩
  | container t => exact ⟨.containerValue, ⟨t, rfl⟩, rfl, rfl, rfl⟩
  | containerPointer t => exact ⟨.containerValue, ⟨t, rfl⟩, rfl, rfl, rfl⟩
  | containerReference isConst t => exact ⟨.containerReference, ⟨t, rfl⟩, rfl, rfl, rfl⟩
  | classReference isConst q =>
      have type : WellFormedTokens q.tokens := by
        simp only [tokens, ArgumentForm.tokens, wellFormedTokens_append] at h
        exact h.1.1.2
      obtain ⟨namespaces, className⟩ := wellFormedTokens_qualifiedName.mp type
      exact ⟨.classReference, className, rfl, rfl, namespaces⟩
  | classPointer q =>
      have type : WellFormedTokens q.tokens := by
        simp only [tokens, ArgumentForm.tokens, wellFormedTokens_append] at h
        exact h.1.1
      obtain ⟨namespaces, className⟩ := wellFormedTokens_qualifiedName.mp type
      exact ⟨.classPointer, className, rfl, rfl, rfl, namespaces⟩

theorem ArgumentDecl.name_argument (decl : ArgumentDecl) : decl.argument.name = decl.name.name := by
  rcases decl with ⟨form, name⟩
  cases form <;> rfl

theorem ArgumentDecl.argument_wellFormed {decl : ArgumentDecl}
    (h : WellFormedTokens decl.tokens) : decl.argument.WellFormed where
  name := by
    have last : decl.name.token.WellFormed := by
      simp only [tokens, wellFormedTokens_append, wellFormedTokens_cons] at h
      exact h.2.1
    rw [name_argument]
    exact Identifier.isName last
  shape := by
    obtain ⟨shape, found⟩ := exists_hasShape h
    exact ⟨shape, found, fun other => found.unique⟩

@[simp] theorem wellFormedTokens_arguments {args : List ArgumentDecl} :
    WellFormedTokens (argumentTokens args) ↔ ∀ arg ∈ args, WellFormedTokens arg.tokens := by
  cases args with
  | nil => simp [argumentTokens]
  | cons arg args => simp [argumentTokens, followingTokens]

theorem arguments_wellFormed {args : List ArgumentDecl}
    (h : WellFormedTokens (argumentTokens args)) :
    ∀ arg ∈ args.map ArgumentDecl.argument, arg.WellFormed := by
  intro arg member
  obtain ⟨decl, inside, rfl⟩ := List.mem_map.mp member
  exact ArgumentDecl.argument_wellFormed (wellFormedTokens_arguments.mp h decl inside)

/-- A category that a type's name has is the only one that it has. -/
theorem NamesType.category_iff {type : String} {category : Category}
    (h : NamesType type category) (other : Category) :
    some category = some other ↔ NamesType type other := by
  constructor
  · intro same
    cases same
    exact h
  · intro names
    rw [h.unique names]

theorem SlotForm.slot_wellFormed {form : SlotForm} (h : WellFormedTokens form.tokens) :
    form.slot.WellFormed := by
  cases form with
  | basis t =>
      have names : NamesType t.spelling .basis := ⟨t, rfl⟩
      exact ⟨Option.some_ne_none _, names.category_iff, fun _ => ⟨rfl, rfl⟩, List.forall_mem_nil _⟩
  | container t =>
      have names : NamesType t.spelling .container := ⟨t, rfl⟩
      exact ⟨Option.some_ne_none _, names.category_iff, fun _ => ⟨rfl, rfl⟩, List.forall_mem_nil _⟩
  | classType q isPointer =>
      simp only [tokens, wellFormedTokens_append] at h
      obtain ⟨namespaces, className⟩ := wellFormedTokens_qualifiedName.mp h.1
      have names : NamesType q.name .classType := className
      exact ⟨Option.some_ne_none _, names.category_iff, fun other => absurd rfl other, namespaces⟩

theorem ReturnForm.returnValue_wellFormed {form : ReturnForm} (h : WellFormedTokens form.tokens) :
    form.returnValue.WellFormed := by
  cases form with
  | void => exact .inl rfl
  | single slot =>
      refine .inr fun other member => ?_
      cases List.mem_singleton.mp member
      exact SlotForm.slot_wellFormed h
  | pair first second =>
      simp only [tokens, wellFormedTokens_append] at h
      refine .inr fun other member => ?_
      rcases List.mem_cons.mp member with rfl | last
      · exact SlotForm.slot_wellFormed h.1.1.1.2
      · cases List.mem_singleton.mp last
        exact SlotForm.slot_wellFormed h.1.2

theorem ClassDecl.wellFormedTokens_iff {decl : ClassDecl} : WellFormedTokens decl.tokens ↔
    IsUpperName decl.name ∧ ∀ member ∈ decl.members, WellFormedTokens member.tokens := by
  simp [tokens]

theorem MemberHead.wellFormedTokens_iff {head : MemberHead} {args : List ArgumentDecl} :
    WellFormedTokens (head.tokensWith args) ↔
      WellFormedTokens head.tokens ∧ WellFormedTokens (argumentTokens args) := by
  simp [tokensWith]

theorem ClassDecl.toClass_wellFormed {decl : ClassDecl} (h : WellFormedTokens decl.tokens) :
    decl.toClass.WellFormed := by
  obtain ⟨className, members⟩ := wellFormedTokens_iff.mp h
  refine ⟨className, List.forall_mem_nil _, ?_, ?_, ?_, ?_⟩
  · intro constructor inside
    obtain ⟨member, inMembers, found⟩ := List.mem_filterMap.mp inside
    have wellFormed := members member inMembers
    cases member <;> cases found
    simp only [MemberDecl.tokens, wellFormedTokens_append, MemberHead.wellFormedTokens_iff]
      at wellFormed
    exact ⟨rfl, arguments_wellFormed wellFormed.1.2⟩
  · intro method inside
    obtain ⟨member, inMembers, found⟩ := List.mem_filterMap.mp inside
    have wellFormed := members member inMembers
    cases member <;> cases found
    simp only [MemberDecl.tokens, wellFormedTokens_append, MemberHead.wellFormedTokens_iff,
      MemberHead.tokens, wellFormedTokens_cons] at wellFormed
    exact ⟨wellFormed.1.1.1.2.1, arguments_wellFormed wellFormed.1.1.2,
      ReturnForm.returnValue_wellFormed wellFormed.1.1.1.1⟩
  · intro method inside
    obtain ⟨member, inMembers, found⟩ := List.mem_filterMap.mp inside
    have wellFormed := members member inMembers
    cases member <;> cases found
    simp only [MemberDecl.tokens, wellFormedTokens_append, MemberHead.wellFormedTokens_iff,
      MemberHead.tokens, wellFormedTokens_cons] at wellFormed
    exact ⟨Identifier.isName wellFormed.1.1.2.1, arguments_wellFormed wellFormed.1.2,
      ReturnForm.returnValue_wellFormed wellFormed.1.1.1.2⟩
  · intro path inside
    obtain ⟨member, inMembers, found⟩ := List.mem_filterMap.mp inside
    have wellFormed := members member inMembers
    cases member <;> cases found
    exact (wellFormedTokens_cons.mp wellFormed).1

theorem Class.WellFormed.within {outer : String} {cls : Class} (h : cls.WellFormed)
    (isName : IsLowerName outer) : (cls.within outer).WellFormed :=
  ⟨h.name, List.forall_mem_cons.mpr ⟨isName, h.namespaces⟩, h.constructors, h.methods,
    h.staticMethods, h.includes⟩

/-- The classes of declarations with well-formed tokens are well-formed. -/
theorem Declarations.wellFormed_of_classesFrom {decls : Declarations} {first : Nat}
    {classes : List Class} (h : WellFormedTokens decls.tokens)
    (meant : decls.classesFrom first = .ok classes) : ∀ cls ∈ classes, cls.WellFormed := by
  induction decls generalizing first classes with
  | empty =>
      cases meant
      exact List.forall_mem_nil _
  | withClass before decl ih =>
      obtain ⟨earlier, beforeOk, rfl⟩ := classesFrom_withClass.mp meant
      simp only [tokens, wellFormedTokens_append] at h
      intro cls member
      rcases List.mem_append.mp member with inEarlier | last
      · exact ih h.1 beforeOk cls inEarlier
      · cases List.mem_singleton.mp last
        exact ClassDecl.toClass_wellFormed h.2
  | withNamespace before name body closing ihBefore ihBody =>
      obtain ⟨earlier, inner, beforeOk, bodyOk, -, rfl⟩ := classesFrom_withNamespace.mp meant
      simp only [tokens, namespaceOpening, wellFormedTokens_append, wellFormedTokens_cons,
        Token.wellFormed_lower_iff] at h
      intro cls member
      rcases List.mem_append.mp member with inEarlier | inBody
      · exact ihBefore h.1.1.1 beforeOk cls inEarlier
      · obtain ⟨original, inside, rfl⟩ := List.mem_map.mp inBody
        exact (ihBody h.1.2 bodyOk original inside).within h.1.1.2.2.1

end MexGlue
