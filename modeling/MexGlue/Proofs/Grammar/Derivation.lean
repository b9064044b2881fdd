import MexGlue.Proofs.Grammar.Covering
import MexGlue.Proofs.ReadingState.Written

/-!
# Declarations are derivations

Every declaration is written as a derivation tree, and every tree that the productions allow is
written by a declaration. So the grammar accepts exactly the tokens of declarations, and a sentence
has one derivation only, since its tokens fix the declarations.
-/

namespace MexGlue

open Grammar Phrase

/-! ## Types -/

def BasisType.tree (t : BasisType) : ParseTree := .node .basisType [.leaf (.basis t)]

def ContainerType.tree (t : ContainerType) : ParseTree :=
  .node .containerType [.leaf (.container t)]

def Identifier.tree (name : Identifier) : ParseTree := .node .argumentName [.leaf name.token]

def QualifiedName.tree (q : QualifiedName) : ParseTree := .node .qualifiedClass (q.tokens.map .leaf)

theorem BasisType.writtenBy : (rule .basisType).WrittenBy fun t : BasisType => [t.tree] := by
  have one (t : BasisType) :
      (terminal (.basis t)).WrittenBy fun _ : Unit => [.leaf (.basis t)] :=
    .terminal fun other => by cases other <;> simp [Terminal.ofToken, eq_comm]
  have all := ((((one .string).either (one .bool)).either (one .sizeT)).either (one .int)).either
    (one .double)
  have covered : Rule.basisType.phrase.WrittenBy fun t : BasisType => [.leaf (.basis t)] := by
    refine all.congr (fun x => ?_) fun t => ?_
    · rcases x with (((_ | _) | _) | _) | _
      · exact ⟨.string, rfl⟩
      · exact ⟨.bool, rfl⟩
      · exact ⟨.sizeT, rfl⟩
      · exact ⟨.int, rfl⟩
      · exact ⟨.double, rfl⟩
    · cases t with
      | string => exact ⟨.inl (.inl (.inl (.inl ()))), rfl⟩
      | bool => exact ⟨.inl (.inl (.inl (.inr ()))), rfl⟩
      | sizeT => exact ⟨.inl (.inl (.inr ())), rfl⟩
      | int => exact ⟨.inl (.inr ()), rfl⟩
      | double => exact ⟨.inr (), rfl⟩
  exact covered.rule

theorem ContainerType.writtenBy :
    (rule .containerType).WrittenBy fun t : ContainerType => [t.tree] := by
  have one (t : ContainerType) :
      (terminal (.container t)).WrittenBy fun _ : Unit => [.leaf (.container t)] :=
    .terminal fun other => by cases other <;> simp [Terminal.ofToken, eq_comm]
  have covered :
      Rule.containerType.phrase.WrittenBy fun t : ContainerType => [.leaf (.container t)] := by
    refine ((one .vector).either (one .matrix)).congr (fun x => ?_) fun t => ?_
    · rcases x with _ | _
      · exact ⟨.vector, rfl⟩
      · exact ⟨.matrix, rfl⟩
    · cases t with
      | vector => exact ⟨.inl (), rfl⟩
      | matrix => exact ⟨.inr (), rfl⟩
  exact covered.rule

theorem Identifier.writtenBy :
    (rule .argumentName).WrittenBy fun name : Identifier => [name.tree] := by
  have covered :
      Rule.argumentName.phrase.WrittenBy fun name : Identifier => [.leaf name.token] := by
    refine (WrittenBy.lowerName.either .upperName).congr (fun x => ?_) fun name => ?_
    · rcases x with name | name
      · exact ⟨.lower name, rfl⟩
      · exact ⟨.upper name, rfl⟩
    · cases name with
      | lower name => exact ⟨.inl name, rfl⟩
      | upper name => exact ⟨.inr name, rfl⟩
  exact covered.rule

theorem Identifier.writtenBy_staticName :
    Phrase.staticName.WrittenBy fun name : Identifier => [.leaf name.token] := by
  refine (WrittenBy.upperName.either .lowerName).congr (fun x => ?_) fun name => ?_
  · rcases x with name | name
    · exact ⟨.upper name, rfl⟩
    · exact ⟨.lower name, rfl⟩
  · cases name with
    | lower name => exact ⟨.inr name, rfl⟩
    | upper name => exact ⟨.inl name, rfl⟩

theorem QualifiedName.writtenBy :
    (rule .qualifiedClass).WrittenBy fun q : QualifiedName => [q.tree] := by
  have whole := (WrittenBy.lowerName.before (.sign .scope)).many.both .upperName
  have leaves (q : QualifiedName) : q.tokens.map ParseTree.leaf =
      (q.namespaces.flatMap fun name => [ParseTree.leaf (.lower name)] ++
        [.leaf (.symbol .scope)]) ++ [.leaf (.upper q.name)] := by
    simp [tokens, scopeTokens, List.map_flatMap]
  have covered :
      Rule.qualifiedClass.phrase.WrittenBy fun q : QualifiedName => q.tokens.map .leaf :=
    whole.congr (fun x => ⟨⟨x.1, x.2⟩, leaves _⟩)
      fun q => ⟨(q.namespaces, q.name), (leaves q).symm⟩
  exact covered.rule

/-! ## Arguments -/

def ArgumentForm.rule : ArgumentForm → Rule
  | .basis _ => .basisArgument
  | .container _ => .containerArgument
  | .containerPointer _ => .containerArgument
  | .containerReference _ _ => .containerReference
  | .classReference _ _ => .classReference
  | .classPointer _ => .classPointer

def ArgumentForm.forest : ArgumentForm → List ParseTree
  | .basis t => [t.tree]
  | .container t => [t.tree]
  | .containerPointer t => [t.tree, .leaf (.symbol .star)]
  | .containerReference isConst t =>
      mark (.keyword .constWord) isConst ++ [t.tree, .leaf (.symbol .ampersand)]
  | .classReference isConst q =>
      mark (.keyword .constWord) isConst ++ [q.tree, .leaf (.symbol .ampersand)]
  | .classPointer q => [q.tree, .leaf (.symbol .star)]

def ArgumentDecl.tree (arg : ArgumentDecl) : ParseTree :=
  .node arg.form.rule (arg.form.forest ++ [arg.name.tree])

def argumentsTree : List ArgumentDecl → ParseTree
  | [] => .node .arguments []
  | arg :: args =>
      .node .arguments (arg.tree :: args.flatMap fun arg => [.leaf (.symbol .comma), arg.tree])

theorem ArgumentDecl.writtenBy :
    Phrase.argument.WrittenBy fun arg : ArgumentDecl => [arg.tree] := by
  have basis := (BasisType.writtenBy.both Identifier.writtenBy).rule (r := .basisArgument)
  have container :=
    ((ContainerType.writtenBy.both (.mark (.sign .star))).both Identifier.writtenBy).rule
      (r := .containerArgument)
  have classReference :=
    ((((WrittenBy.mark (.word .constWord)).both QualifiedName.writtenBy).before
      (.sign .ampersand)).both Identifier.writtenBy).rule (r := .classReference)
  have classPointer :=
    ((QualifiedName.writtenBy.before (.sign .star)).both Identifier.writtenBy).rule
      (r := .classPointer)
  have containerReference :=
    ((((WrittenBy.mark (.word .constWord)).both ContainerType.writtenBy).before
      (.sign .ampersand)).both Identifier.writtenBy).rule (r := .containerReference)
  have all := (((basis.either container).either classReference).either classPointer).either
    containerReference
  refine all.congr (fun x => ?_) fun arg => ?_
  · rcases x with (((⟨t, name⟩ | ⟨⟨t, isPointer⟩, name⟩) | ⟨⟨isConst, q⟩, name⟩) | ⟨q, name⟩) |
      ⟨⟨isConst, t⟩, name⟩
    · exact ⟨⟨.basis t, name⟩, rfl⟩
    · cases isPointer with
      | false => exact ⟨⟨.container t, name⟩, rfl⟩
      | true => exact ⟨⟨.containerPointer t, name⟩, rfl⟩
    · exact ⟨⟨.classReference isConst q, name⟩, by simp [tree, ArgumentForm.forest,
        ArgumentForm.rule]⟩
    · exact ⟨⟨.classPointer q, name⟩, rfl⟩
    · exact ⟨⟨.containerReference isConst t, name⟩, by simp [tree, ArgumentForm.forest,
        ArgumentForm.rule]⟩
  · rcases arg with ⟨form, name⟩
    cases form with
    | basis t => exact ⟨.inl (.inl (.inl (.inl (t, name)))), rfl⟩
    | container t => exact ⟨.inl (.inl (.inl (.inr ((t, false), name)))), rfl⟩
    | containerPointer t => exact ⟨.inl (.inl (.inl (.inr ((t, true), name)))), rfl⟩
    | classReference isConst q =>
        refine ⟨.inl (.inl (.inr ((isConst, q), name))), ?_⟩
        simp [tree, ArgumentForm.forest, ArgumentForm.rule]
    | classPointer q => exact ⟨.inl (.inr (q, name)), rfl⟩
    | containerReference isConst t =>
        refine ⟨.inr ((isConst, t), name), ?_⟩
        simp [tree, ArgumentForm.forest, ArgumentForm.rule]

theorem writtenBy_arguments :
    (rule .arguments).WrittenBy fun args : List ArgumentDecl => [argumentsTree args] := by
  have following := (WrittenBy.behind (.sign .comma) ArgumentDecl.writtenBy).many
  have all := ((ArgumentDecl.writtenBy.both following).optional).rule (r := .arguments)
  refine all.congr (fun x => ?_) fun args => ?_
  · rcases x with _ | ⟨arg, args⟩
    · exact ⟨[], rfl⟩
    · exact ⟨arg :: args, rfl⟩
  · cases args with
    | nil => exact ⟨none, rfl⟩
    | cons arg args => exact ⟨some (arg, args), rfl⟩

/-! ## Return types and members -/

def SlotForm.tree : SlotForm → ParseTree
  | .basis t => .node .basisSlot [t.tree]
  | .container t => .node .containerSlot [t.tree]
  | .classType q isPointer => .node .classSlot (q.tree :: mark (.symbol .star) isPointer)

def ReturnForm.tree : ReturnForm → ParseTree
  | .void => .node .voidReturn [.leaf (.keyword .voidWord)]
  | .single slot => .node .singleReturn [slot.tree]
  | .pair first second =>
      .node .pairReturn [.leaf (.keyword .pairWord), .leaf (.symbol .openAngle), first.tree,
        .leaf (.symbol .comma), second.tree, .leaf (.symbol .closeAngle)]

def MemberDecl.tree : MemberDecl → ParseTree
  | .includeLine path => .node .includeLine [.leaf (.includePath path)]
  | .constructor written args =>
      .node .constructor [.leaf (.upper written), .leaf (.symbol .openParen), argumentsTree args,
        .leaf (.symbol .closeParen), .leaf (.symbol .semicolon)]
  | .method returns name args isConst =>
      .node .method ([returns.tree, .leaf (.lower name), .leaf (.symbol .openParen),
        argumentsTree args, .leaf (.symbol .closeParen)] ++ mark (.keyword .constWord) isConst ++
        [.leaf (.symbol .semicolon)])
  | .staticMethod returns name args =>
      .node .staticMethod [.leaf (.keyword .staticWord), returns.tree, .leaf name.token,
        .leaf (.symbol .openParen), argumentsTree args, .leaf (.symbol .closeParen),
        .leaf (.symbol .semicolon)]

theorem SlotForm.writtenBy : Phrase.returnSlot.WrittenBy fun slot : SlotForm => [slot.tree] := by
  have basis := BasisType.writtenBy.rule (r := .basisSlot)
  have classType :=
    (QualifiedName.writtenBy.both (.mark (.sign .star))).rule (r := .classSlot)
  have container := ContainerType.writtenBy.rule (r := .containerSlot)
  refine ((basis.either classType).either container).congr (fun x => ?_) fun slot => ?_
  · rcases x with (t | ⟨q, isPointer⟩) | t
    · exact ⟨.basis t, rfl⟩
    · exact ⟨.classType q isPointer, rfl⟩
    · exact ⟨.container t, rfl⟩
  · cases slot with
    | basis t => exact ⟨.inl (.inl t), rfl⟩
    | container t => exact ⟨.inr t, rfl⟩
    | classType q isPointer => exact ⟨.inl (.inr (q, isPointer)), rfl⟩

theorem ReturnForm.writtenBy :
    Phrase.returnType.WrittenBy fun form : ReturnForm => [form.tree] := by
  have void := (WrittenBy.word .voidWord).rule (r := .voidReturn)
  have single := SlotForm.writtenBy.rule (r := .singleReturn)
  have opening := (WrittenBy.word .pairWord).both (.sign .openAngle)
  have pair :=
    ((((opening.both SlotForm.writtenBy).before (.sign .comma)).both SlotForm.writtenBy).before
      (.sign .closeAngle)).rule (r := .pairReturn)
  refine ((void.either single).either pair).congr (fun x => ?_) fun form => ?_
  · rcases x with (_ | slot) | ⟨⟨_, first⟩, second⟩
    · exact ⟨.void, rfl⟩
    · exact ⟨.single slot, rfl⟩
    · exact ⟨.pair first second, rfl⟩
  · cases form with
    | void => exact ⟨.inl (.inl ()), rfl⟩
    | single slot => exact ⟨.inl (.inr slot), rfl⟩
    | pair first second => exact ⟨.inr ((((), ()), first), second), rfl⟩

theorem MemberDecl.writtenBy : Phrase.member.WrittenBy fun decl : MemberDecl => [decl.tree] := by
  have includeLine := WrittenBy.includeLine.rule (r := .includeLine)
  have constructor :=
    ((((WrittenBy.upperName.before (.sign .openParen)).both writtenBy_arguments).before
      (.sign .closeParen)).before (.sign .semicolon)).rule (r := .constructor)
  have method :=
    ((((((ReturnForm.writtenBy.both .lowerName).before (.sign .openParen)).both
      writtenBy_arguments).before (.sign .closeParen)).both
      (.mark (.word .constWord))).before (.sign .semicolon)).rule (r := .method)
  have static :=
    ((((((WrittenBy.behind (.word .staticWord) ReturnForm.writtenBy).both
      Identifier.writtenBy_staticName).before (.sign .openParen)).both
      writtenBy_arguments).before (.sign .closeParen)).before (.sign .semicolon)).rule
      (r := .staticMethod)
  refine (((includeLine.either constructor).either method).either static).congr (fun x => ?_)
    fun decl => ?_
  · rcases x with ((path | ⟨written, args⟩) | ⟨⟨⟨returns, name⟩, args⟩, isConst⟩) |
      ⟨⟨returns, name⟩, args⟩
    · exact ⟨.includeLine path, rfl⟩
    · exact ⟨.constructor written args, rfl⟩
    · exact ⟨.method returns name args isConst, rfl⟩
    · exact ⟨.staticMethod returns name args, rfl⟩
  · cases decl with
    | includeLine path => exact ⟨.inl (.inl (.inl path)), rfl⟩
    | constructor written args => exact ⟨.inl (.inl (.inr (written, args))), rfl⟩
    | method returns name args isConst =>
        exact ⟨.inl (.inr (((returns, name), args), isConst)), rfl⟩
    | staticMethod returns name args => exact ⟨.inr ((returns, name), args), rfl⟩

/-! ## Classes and namespaces -/

def ClassDecl.forest (decl : ClassDecl) : List ParseTree :=
  [.leaf (.keyword .classWord), .leaf (.upper decl.name), .leaf (.symbol .openBrace)] ++
    decl.members.map MemberDecl.tree ++ [.leaf (.symbol .endClass)]

def ClassDecl.tree (decl : ClassDecl) : ParseTree := .node .classDef decl.forest

/-- What a namespace is written with around its body. -/
def namespaceForest (name : String) (body : List ParseTree) (closing : Option String) :
    List ParseTree :=
  (namespaceOpening name).map .leaf ++ body ++ (namespaceEnd closing).map .leaf

def Declarations.forest : Declarations → List ParseTree
  | .empty => []
  | .withClass before decl => before.forest ++ [decl.tree]
  | .withNamespace before name body closing =>
      before.forest ++ [.node .namespaceDef (namespaceForest name body.forest closing)]

def Declarations.tree (decls : Declarations) : ParseTree := .node .start decls.forest

theorem ClassDecl.writtenBy : Rule.classDef.phrase.WrittenBy ClassDecl.forest := by
  have opening := (WrittenBy.behind (.word .classWord) .upperName).before (.sign .openBrace)
  have whole := (opening.both MemberDecl.writtenBy.many).before (.sign .endClass)
  have same (decl : ClassDecl) : decl.forest =
      [.leaf (.keyword .classWord), .leaf (.upper decl.name)] ++ [.leaf (.symbol .openBrace)] ++
        (decl.members.flatMap fun member => [member.tree]) ++ [.leaf (.symbol .endClass)] := by
    simp [forest, List.map_eq_flatMap]
  exact whole.congr (fun x => ⟨⟨x.1, x.2⟩, same _⟩)
    fun decl => ⟨(decl.name, decl.members), (same decl).symm⟩

theorem covers_namespaceDef {forest : List ParseTree} : Rule.namespaceDef.phrase.Covers forest ↔
    ∃ name body closing, (many item).Covers body ∧ namespaceForest name body closing = forest := by
  have opening :=
    (WrittenBy.behind (.word .namespaceWord) .lowerName).before (.sign .openBrace)
  have whole :=
    ((opening.both (WrittenBy.self (many item))).before (.sign .endNamespace)).both
      WrittenBy.lowerName.optional
  have end_eq (closing : Option String) :
      (namespaceEnd closing).map ParseTree.leaf = .leaf (.symbol .endNamespace) ::
        (closing.map fun name => [ParseTree.leaf (.lower name)]).getD [] := by
    cases closing <;> rfl
  refine (whole forest).trans ?_
  constructor
  · intro h
    rcases h with ⟨⟨⟨name, body⟩, closing⟩, rfl⟩
    refine ⟨name, body.val, closing, body.property, ?_⟩
    rw [namespaceForest, end_eq]
    simp [namespaceOpening]
  · intro h
    rcases h with ⟨name, body, closing, covered, rfl⟩
    refine ⟨((name, ⟨body, covered⟩), closing), ?_⟩
    rw [namespaceForest, end_eq]
    simp [namespaceOpening]

def Grammar.ParseTree.IsItem (tree : ParseTree) : Prop :=
  tree.rule? = some .classDef ∨ tree.rule? = some .namespaceDef

theorem covers_items {forest : List ParseTree} :
    (many item).Covers forest ↔ ∀ tree ∈ forest, tree.IsItem ∧ tree.Derived := by
  have one : item.WrittenBy fun tree : {tree : ParseTree // tree.IsItem ∧ tree.Derived} =>
      [tree.val] := by
    intro forest
    constructor
    · intro h
      rcases h with ⟨⟨children, rfl⟩ | ⟨children, rfl⟩, derived⟩
      · exact ⟨⟨_, .inl rfl, derived _ List.mem_cons_self⟩, rfl⟩
      · exact ⟨⟨_, .inr rfl, derived _ List.mem_cons_self⟩, rfl⟩
    · intro h
      rcases h with ⟨⟨tree, isItem, derived⟩, rfl⟩
      refine ⟨?_, by simpa using derived⟩
      cases tree with
      | leaf token => rcases isItem with h | h <;> cases h
      | node r children =>
          rcases isItem with h | h <;> cases h
          · exact .inl ⟨children, rfl⟩
          · exact .inr ⟨children, rfl⟩
  rw [one.many forest]
  constructor
  · intro h tree member
    rcases h with ⟨trees, rfl⟩
    obtain ⟨found, -, inside⟩ := List.mem_flatMap.mp member
    cases List.mem_singleton.mp inside
    exact found.property
  · intro all
    refine ⟨forest.attachWith _ all, ?_⟩
    show (forest.attachWith _ all).flatMap (fun tree => [tree.val]) = forest
    rw [← List.map_eq_flatMap, List.attachWith_map_subtype_val]

/-- A tree that can be put behind declarations, as one more of them. -/
def Grammar.ParseTree.Extends (tree : ParseTree) : Prop :=
  ∃ extend : Declarations → Declarations, ∀ before, (extend before).forest = before.forest ++ [tree]

theorem exists_forest_eq_append {forest : List ParseTree} (h : ∀ tree ∈ forest, tree.Extends)
    (before : Declarations) : ∃ decls : Declarations, decls.forest = before.forest ++ forest := by
  induction forest generalizing before with
  | nil => exact ⟨before, (List.append_nil _).symm⟩
  | cons tree forest ih =>
      obtain ⟨extend, extended⟩ := h tree List.mem_cons_self
      have later : ∀ other ∈ forest, other.Extends :=
        fun other member => h other (List.mem_cons_of_mem tree member)
      obtain ⟨decls, same⟩ := ih later (extend before)
      refine ⟨decls, ?_⟩
      rw [same, extended, List.append_assoc]
      rfl

theorem Grammar.ParseTree.Derived.extends {tree : ParseTree} (h : tree.Derived)
    (isItem : tree.IsItem) : tree.Extends := by
  induction h with
  | leaf token => rcases isItem with same | same <;> cases same
  | @node r children production derived ih =>
      rcases isItem with same | same
      · cases same
        obtain ⟨decl, rfl⟩ := (ClassDecl.writtenBy children).mp ⟨production, derived⟩
        exact ⟨fun before => before.withClass decl, fun before => rfl⟩
      · cases same
        obtain ⟨name, body, closing, covered, rfl⟩ := covers_namespaceDef.mp ⟨production, derived⟩
        have each : ∀ tree ∈ body, tree.Extends := fun tree member =>
          ih tree (by simp [namespaceForest, member]) (covers_items.mp covered tree member).1
        obtain ⟨decls, same⟩ := exists_forest_eq_append each .empty
        rw [Declarations.forest, List.nil_append] at same
        subst same
        exact ⟨fun before => before.withNamespace name decls closing, fun before => rfl⟩

theorem Declarations.forest_covered (decls : Declarations) : (many item).Covers decls.forest := by
  induction decls with
  | empty => exact covers_items.mpr (by simp [forest])
  | withClass before decl ih =>
      have derived : decl.tree.Derived :=
        ParseTree.derived_node_iff.mpr ((ClassDecl.writtenBy decl.forest).mpr ⟨decl, rfl⟩)
      rw [covers_items] at ih ⊢
      intro tree member
      rcases List.mem_append.mp member with earlier | last
      · exact ih tree earlier
      · cases List.mem_singleton.mp last
        exact ⟨.inl rfl, derived⟩
  | withNamespace before name body closing ihBefore ihBody =>
      have covered := covers_namespaceDef.mpr ⟨name, body.forest, closing, ihBody, rfl⟩
      rw [covers_items] at ihBefore ⊢
      intro tree member
      rcases List.mem_append.mp member with earlier | last
      · exact ihBefore tree earlier
      · cases List.mem_singleton.mp last
        exact ⟨.inr rfl, ParseTree.derived_node_iff.mpr covered⟩

/-- The grammar's trees are those of declarations. -/
theorem Declarations.writtenBy :
    (rule .start).WrittenBy fun decls : Declarations => [decls.tree] := by
  have covered : Rule.start.phrase.WrittenBy forest := by
    intro trees
    constructor
    · intro h
      have each : ∀ tree ∈ trees, tree.Extends := by
        intro tree member
        obtain ⟨isItem, derived⟩ := covers_items.mp h tree member
        exact derived.extends isItem
      obtain ⟨decls, same⟩ := exists_forest_eq_append each .empty
      exact ⟨decls, same⟩
    · intro h
      rcases h with ⟨decls, rfl⟩
      exact decls.forest_covered
  exact covered.rule

/-! ## The tokens of derivations -/

section Tokens

open Grammar.ParseTree (forestTokens tokens)

@[simp] theorem forestTokens_leaves (tokens : List Token) :
    forestTokens (tokens.map .leaf) = tokens := by
  induction tokens with
  | nil => rfl
  | cons token tokens ih => rw [List.map_cons, forestTokens, ih]; rfl

@[simp] theorem forestTokens_mark (token : Token) (written : Bool) :
    forestTokens (mark token written) = optionalToken written token := forestTokens_leaves _

@[simp] theorem BasisType.tokens_tree (t : BasisType) : t.tree.tokens = [.basis t] := rfl

@[simp] theorem ContainerType.tokens_tree (t : ContainerType) :
    t.tree.tokens = [.container t] := rfl

@[simp] theorem Identifier.tokens_tree (name : Identifier) : name.tree.tokens = [name.token] := rfl

@[simp] theorem QualifiedName.tokens_tree (q : QualifiedName) : q.tree.tokens = q.tokens :=
  forestTokens_leaves q.tokens

@[simp] theorem ArgumentDecl.tokens_tree (arg : ArgumentDecl) : arg.tree.tokens = arg.tokens := by
  rcases arg with ⟨form, name⟩
  cases form <;>
    simp [tree, ArgumentForm.forest, ArgumentDecl.tokens, ArgumentForm.tokens, ParseTree.tokens,
      forestTokens]

@[simp] theorem tokens_argumentsTree (args : List ArgumentDecl) :
    (argumentsTree args).tokens = argumentTokens args := by
  cases args with
  | nil => rfl
  | cons arg args =>
      have following : forestTokens (args.flatMap fun arg => [.leaf (.symbol .comma), arg.tree]) =
          followingTokens args := by
        induction args with
        | nil => rfl
        | cons next args ih => simp [followingTokens, forestTokens, ParseTree.tokens, ih]
      simp [argumentsTree, argumentTokens, forestTokens, ParseTree.tokens, following]

@[simp] theorem SlotForm.tokens_tree (slot : SlotForm) : slot.tree.tokens = slot.tokens := by
  cases slot <;> simp [tree, SlotForm.tokens, ParseTree.tokens, forestTokens]

@[simp] theorem ReturnForm.tokens_tree (form : ReturnForm) : form.tree.tokens = form.tokens := by
  cases form <;> simp [tree, ReturnForm.tokens, ParseTree.tokens, forestTokens]

@[simp] theorem MemberDecl.tokens_tree (decl : MemberDecl) : decl.tree.tokens = decl.tokens := by
  cases decl <;>
    simp [tree, MemberDecl.tokens, MemberHead.tokensWith, MemberHead.tokens, ParseTree.tokens,
      forestTokens]

@[simp] theorem ClassDecl.tokens_tree (decl : ClassDecl) : decl.tree.tokens = decl.tokens := by
  have members : forestTokens (decl.members.map MemberDecl.tree) =
      decl.members.flatMap MemberDecl.tokens := by
    simp [ParseTree.forestTokens_eq_flatMap, List.flatMap_map]
  simp [tree, forest, ClassDecl.tokens, ParseTree.tokens, forestTokens, members]

@[simp] theorem forestTokens_namespaceForest (name : String) (body : List ParseTree)
    (closing : Option String) : forestTokens (namespaceForest name body closing) =
      namespaceOpening name ++ forestTokens body ++ namespaceEnd closing := by
  simp [namespaceForest]

@[simp] theorem Declarations.forestTokens_forest (decls : Declarations) :
    forestTokens decls.forest = decls.tokens := by
  induction decls with
  | empty => rfl
  | withClass before decl ih =>
      simp [forest, Declarations.tokens, forestTokens, ih]
  | withNamespace before name body closing ihBefore ihBody =>
      simp [forest, Declarations.tokens, forestTokens, ParseTree.tokens, ihBefore, ihBody]

@[simp] theorem Declarations.tokens_tree (decls : Declarations) :
    decls.tree.tokens = decls.tokens := decls.forestTokens_forest

end Tokens

namespace Grammar

variable {tree : ParseTree} {tokens : List Token}

/-- The derivations of tokens are the trees of the declarations written with them. -/
theorem derives_iff :
    Derives tree tokens ↔ ∃ decls : Declarations, decls.tree = tree ∧ decls.tokens = tokens := by
  constructor
  · intro derives
    obtain ⟨derived, root, tokens_eq⟩ := derives
    cases tree with
    | leaf token => cases root
    | node r children =>
        cases root
        have covered : (rule .start).Covers [.node .start children] :=
          ⟨⟨children, rfl⟩, by simpa using derived⟩
        obtain ⟨decls, same⟩ := (Declarations.writtenBy _).mp covered
        cases same
        exact ⟨decls, rfl, decls.tokens_tree ▸ tokens_eq⟩
  · intro h
    rcases h with ⟨decls, rfl, rfl⟩
    have covered := (Declarations.writtenBy [decls.tree]).mpr ⟨decls, rfl⟩
    exact ⟨covered.2 decls.tree List.mem_cons_self, rfl, decls.tokens_tree⟩

theorem sentence_iff : Sentence tokens ↔ ∃ decls : Declarations, decls.tokens = tokens := by
  constructor
  · intro h
    rcases h with ⟨tree, derives⟩
    obtain ⟨decls, -, same⟩ := derives_iff.mp derives
    exact ⟨decls, same⟩
  · intro h
    rcases h with ⟨decls, same⟩
    exact ⟨decls.tree, derives_iff.mpr ⟨decls, rfl, same⟩⟩

/-- The grammar is unambiguous. -/
theorem Derives.unique {other : ParseTree} (h : Derives tree tokens) (h' : Derives other tokens) :
    tree = other := by
  obtain ⟨decls, rfl, same⟩ := derives_iff.mp h
  obtain ⟨others, rfl, same'⟩ := derives_iff.mp h'
  rw [Declarations.tokens_injective (same.trans same'.symm)]

end Grammar

end MexGlue
