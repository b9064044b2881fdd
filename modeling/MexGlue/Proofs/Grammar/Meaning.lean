import MexGlue.Proofs.Grammar.Derivation
import MexGlue.Proofs.Grammar.Reading
import MexGlue.Proofs.Model.Classes

/-!
# The classes of declarations are what their derivation says

Whatever is built from a declaration is read from its tree. Declarations have classes exactly when
every closing name in their tree agrees, and then the classes are read from the whole tree.
-/

namespace MexGlue

open Grammar

/-! ## Arguments and return types -/

theorem ArgumentDecl.readFrom (decl : ArgumentDecl) : decl.argument.ReadFrom decl.tree := by
  rcases decl with ⟨form, name⟩
  unfold Argument.ReadFrom
  rw [tokens_tree]
  cases form with
  | basis t => exact ⟨.basis t, name, rfl, rfl, rfl⟩
  | container t => exact ⟨.container t, name, rfl, rfl, rfl⟩
  | containerPointer t => exact ⟨.container t, name, rfl, rfl, rfl⟩
  | containerReference isConst t =>
      refine ⟨.container t, name, rfl, rfl, ?_⟩
      simp [argument, tokens, ArgumentForm.tokens]
  | classReference isConst q =>
      refine ⟨.upper q.name, name, rfl, rfl, ?_⟩
      simp [argument, tokens, ArgumentForm.tokens, QualifiedName.tokens]
  | classPointer q =>
      refine ⟨.upper q.name, name, rfl, rfl, ?_⟩
      simp [argument, tokens, ArgumentForm.tokens, QualifiedName.tokens]

theorem parts_argumentsTree (args : List ArgumentDecl) :
    (argumentsTree args).parts = args.map ArgumentDecl.tree := by
  have following (more : List ArgumentDecl) :
      (more.flatMap fun arg => [ParseTree.leaf (.symbol .comma), arg.tree]).filter
        (fun child => child.rule?.isSome) = more.map ArgumentDecl.tree := by
    induction more with
    | nil => rfl
    | cons arg more ih =>
        rw [List.flatMap_cons, List.filter_append, ih]
        rfl
  cases args with
  | nil => rfl
  | cons arg args =>
      have first : (argumentsTree (arg :: args)).parts = arg.tree ::
          (args.flatMap fun arg => [ParseTree.leaf (.symbol .comma), arg.tree]).filter
            (fun child => child.rule?.isSome) := rfl
      rw [first, following]
      rfl

theorem listReadFrom_arguments (args : List ArgumentDecl) :
    Argument.ListReadFrom (args.map ArgumentDecl.argument) (argumentsTree args) := by
  unfold Argument.ListReadFrom
  rw [parts_argumentsTree, List.forall₂_map_left_iff, List.forall₂_map_right_iff,
    List.forall₂_same]
  exact fun arg _ => arg.readFrom

theorem SlotForm.readFrom (form : SlotForm) : form.slot.ReadFrom form.tree := by
  unfold ReturnSlot.ReadFrom
  rw [tokens_tree]
  cases form with
  | basis t => exact ⟨.basis t, rfl, rfl, rfl⟩
  | container t => exact ⟨.container t, rfl, rfl, rfl⟩
  | classType q isPointer =>
      refine ⟨.upper q.name, rfl, rfl, ?_⟩
      simp [slot, tokens, QualifiedName.tokens]

theorem SlotForm.isSome_rule?_tree (form : SlotForm) : form.tree.rule?.isSome := by
  cases form <;> rfl

theorem ReturnForm.readFrom (form : ReturnForm) : form.returnValue.ReadFrom form.tree := by
  cases form with
  | void => exact (if_pos rfl).mpr rfl
  | single slot =>
      have parts : (single slot).tree.parts = [slot.tree] := by
        simp [ParseTree.parts, tree, slot.isSome_rule?_tree]
      refine (if_neg (by simp [tree])).mpr ?_
      rw [parts]
      exact .cons slot.readFrom .nil
  | pair first second =>
      have parts : (pair first second).tree.parts = [first.tree, second.tree] := by
        simp [ParseTree.parts, tree, first.isSome_rule?_tree, second.isSome_rule?_tree]
      refine (if_neg (by simp [tree])).mpr ?_
      rw [parts]
      exact .cons first.readFrom (.cons second.readFrom .nil)

/-! ## Members -/

/-- What is taken from a list is related to the kept part of its image if each element is. -/
theorem forall₂_filterMap_filter {α β γ : Type} {R : β → γ → Prop} {f : α → Option β} {g : α → γ}
    {q : γ → Bool} (taken : ∀ x y, f x = some y → q (g x) = true ∧ R y (g x))
    (left : ∀ x, f x = none → q (g x) = false) (xs : List α) :
    List.Forall₂ R (xs.filterMap f) ((xs.map g).filter q) := by
  induction xs with
  | nil => exact .nil
  | cons x xs ih =>
      rw [List.map_cons]
      cases found : f x with
      | none =>
          rw [List.filterMap_cons_none found, List.filter_cons_of_neg (by simp [left x found])]
          exact ih
      | some y =>
          obtain ⟨kept, related⟩ := taken x y found
          rw [List.filterMap_cons_some found, List.filter_cons_of_pos kept]
          exact .cons related ih

theorem ClassDecl.partsOf_tree (decl : ClassDecl) (r : Rule) :
    decl.tree.partsOf r =
      (decl.members.map MemberDecl.tree).filter fun child => child.rule? = some r := by
  simp [ParseTree.partsOf, tree, forest]

/-- The class that is written, with the namespaces around it. -/
theorem ClassDecl.readFrom (decl : ClassDecl) (outer : List String) :
    ({ decl.toClass with namespaces := outer } : Class).ReadFrom outer decl.tree where
  namespaces := rfl
  name := rfl
  constructors := by
    rw [partsOf_tree]
    refine forall₂_filterMap_filter ?_ ?_ decl.members
    · intro member constructor found
      cases member <;> cases found
      exact ⟨rfl, rfl, _, _, listReadFrom_arguments _, rfl⟩
    · intro member absent
      cases member <;> first | rfl | cases absent
  methods := by
    rw [partsOf_tree]
    refine forall₂_filterMap_filter ?_ ?_ decl.members
    · intro member method found
      cases member <;> cases found
      exact ⟨rfl, _, _, ReturnForm.readFrom _, listReadFrom_arguments _, rfl⟩
    · intro member absent
      cases member <;> first | rfl | cases absent
  staticMethods := by
    rw [partsOf_tree]
    refine forall₂_filterMap_filter ?_ ?_ decl.members
    · intro member method found
      cases member <;> cases found
      exact ⟨rfl, _, _, _, rfl, ReturnForm.readFrom _, listReadFrom_arguments _, rfl⟩
    · intro member absent
      cases member <;> first | rfl | cases absent
  includes := by
    rw [partsOf_tree]
    refine forall₂_filterMap_filter ?_ ?_ decl.members
    · intro member path found
      cases member <;> cases found
      exact ⟨rfl, rfl⟩
    · intro member absent
      cases member <;> first | rfl | cases absent

/-! ## Namespaces -/

namespace Grammar.ParseTree

theorem forestBlocks_append (outer : List String) (front back : List ParseTree) :
    forestBlocks outer (front ++ back) = forestBlocks outer front ++ forestBlocks outer back := by
  induction front with
  | nil => rfl
  | cons tree front ih => simp [forestBlocks, ih]

theorem forestBlocks_leaves (outer : List String) (tokens : List Token) :
    forestBlocks outer (tokens.map .leaf) = [] := by
  induction tokens with
  | nil => rfl
  | cons token tokens ih => simp [forestBlocks, blocks, ih]

theorem openedName?_namespace (name : String) (body : List ParseTree) (closing : Option String) :
    (node .namespaceDef (namespaceForest name body closing)).openedName? = some name := rfl

theorem closingName?_namespace (name : String) (body : List ParseTree) (closing : Option String) :
    (node .namespaceDef (namespaceForest name body closing)).closingName? = closing := by
  cases closing <;> simp [closingName?, namespaceForest, namespaceEnd, lowerName?]

theorem blocks_namespace (outer : List String) (name : String) (body : List ParseTree)
    (closing : Option String) :
    (node .namespaceDef (namespaceForest name body closing)).blocks outer =
      forestBlocks (outer ++ [name]) body := by
  rw [blocks, openedName?_namespace, namespaceForest, forestBlocks_append, forestBlocks_append,
    forestBlocks_leaves, forestBlocks_leaves, List.nil_append, List.append_nil]
  rfl

def ForestClosingsAgree (forest : List ParseTree) : Prop := ∀ tree ∈ forest, tree.ClosingsAgree

@[simp] theorem closingsAgree_leaf (token : Token) : (leaf token).ClosingsAgree := by
  intro block contains isNamespace
  cases contains
  cases isNamespace

@[simp] theorem closingsAgree_node_iff {r : Rule} {children : List ParseTree} :
    (node r children).ClosingsAgree ↔
      (r = .namespaceDef → ∀ name, (node r children).closingName? = some name →
        (node r children).openedName? = some name) ∧ ForestClosingsAgree children := by
  constructor
  · intro agree
    refine ⟨?_, fun child member block contains => agree block (.inside member contains)⟩
    intro isNamespace
    subst isNamespace
    exact agree _ (.refl _) rfl
  · intro h block contains isNamespace
    rcases h with ⟨own, inner⟩
    cases contains with
    | refl => exact own (Option.some.inj isNamespace)
    | inside member contains => exact inner _ member block contains isNamespace

@[simp] theorem forestClosingsAgree_nil : ForestClosingsAgree [] :=
  List.forall_mem_nil _

@[simp] theorem forestClosingsAgree_cons {tree : ParseTree} {forest : List ParseTree} :
    ForestClosingsAgree (tree :: forest) ↔ tree.ClosingsAgree ∧ ForestClosingsAgree forest :=
  List.forall_mem_cons

@[simp] theorem forestClosingsAgree_append {front back : List ParseTree} :
    ForestClosingsAgree (front ++ back) ↔
      ForestClosingsAgree front ∧ ForestClosingsAgree back :=
  List.forall_mem_append

@[simp] theorem forestClosingsAgree_leaves (tokens : List Token) :
    ForestClosingsAgree (tokens.map .leaf) := by
  intro tree member
  obtain ⟨token, -, rfl⟩ := List.mem_map.mp member
  exact closingsAgree_leaf token

end Grammar.ParseTree

/-! There is no namespace inside a class, so nothing is closed there. -/

section ClosingsAgree

open Grammar.ParseTree (ForestClosingsAgree)

@[simp] theorem forestClosingsAgree_mark (token : Token) (written : Bool) :
    ForestClosingsAgree (Phrase.mark token written) := ParseTree.forestClosingsAgree_leaves _

@[simp] theorem QualifiedName.closingsAgree (q : QualifiedName) : q.tree.ClosingsAgree := by
  simp [tree]

@[simp] theorem ArgumentDecl.closingsAgree (arg : ArgumentDecl) : arg.tree.ClosingsAgree := by
  rcases arg with ⟨form, name⟩
  have nameAgrees : name.tree.ClosingsAgree := by simp [Identifier.tree]
  cases form <;>
    simp [tree, ArgumentForm.rule, ArgumentForm.forest, BasisType.tree, ContainerType.tree,
      nameAgrees]

@[simp] theorem closingsAgree_argumentsTree (args : List ArgumentDecl) :
    (argumentsTree args).ClosingsAgree := by
  have following (more : List ArgumentDecl) : ForestClosingsAgree
      (more.flatMap fun arg => [ParseTree.leaf (.symbol .comma), arg.tree]) := by
    induction more with
    | nil => simp
    | cons arg more ih => simp [ih]
  cases args with
  | nil => simp [argumentsTree]
  | cons arg args => simp [argumentsTree, following]

@[simp] theorem SlotForm.closingsAgree (slot : SlotForm) : slot.tree.ClosingsAgree := by
  cases slot <;> simp [tree, BasisType.tree, ContainerType.tree]

@[simp] theorem ReturnForm.closingsAgree (form : ReturnForm) : form.tree.ClosingsAgree := by
  cases form <;> simp [tree]

@[simp] theorem MemberDecl.closingsAgree (decl : MemberDecl) : decl.tree.ClosingsAgree := by
  cases decl <;> simp [tree]

@[simp] theorem ClassDecl.closingsAgree (decl : ClassDecl) : decl.tree.ClosingsAgree := by
  have members : ForestClosingsAgree (decl.members.map MemberDecl.tree) := by
    intro tree member
    obtain ⟨inner, -, rfl⟩ := List.mem_map.mp member
    exact inner.closingsAgree
  simp [tree, forest, members]

theorem closingsAgree_namespace_iff {name : String} {body : List ParseTree}
    {closing : Option String} :
    (ParseTree.node .namespaceDef (namespaceForest name body closing)).ClosingsAgree ↔
      (∀ closed ∈ closing, closed = name) ∧ ForestClosingsAgree body := by
  rw [ParseTree.closingsAgree_node_iff, ParseTree.openedName?_namespace,
    ParseTree.closingName?_namespace]
  simp [namespaceForest, eq_comm]

end ClosingsAgree

/-! ## Classes -/

namespace Declarations

theorem exists_classesFrom_iff (decls : Declarations) (first : Nat) :
    (∃ classes, decls.classesFrom first = .ok classes) ↔
      ParseTree.ForestClosingsAgree decls.forest := by
  induction decls generalizing first with
  | empty => simp [classesFrom, forest]
  | withClass before decl ih =>
      simp [classesFrom_withClass, forest, ← ih first]
  | withNamespace before name body closing ihBefore ihBody =>
      simp only [classesFrom_withNamespace, forest, ParseTree.forestClosingsAgree_append,
        ParseTree.forestClosingsAgree_cons, ParseTree.forestClosingsAgree_nil,
        closingsAgree_namespace_iff,
        ← ihBefore first, ← ihBody (bodyStart first before name)]
      constructor
      · intro h
        rcases h with ⟨classes, earlier, inner, beforeOk, bodyOk, agree, same⟩
        exact ⟨⟨earlier, beforeOk⟩, ⟨agree, inner, bodyOk⟩, trivial⟩
      · intro h
        rcases h with ⟨⟨earlier, beforeOk⟩, ⟨agree, inner, bodyOk⟩, _⟩
        exact ⟨_, earlier, inner, beforeOk, bodyOk, agree, rfl⟩

theorem forall₂_blocks {decls : Declarations} {first : Nat} {classes : List Class}
    (h : decls.classesFrom first = .ok classes) (outer : List String) :
    List.Forall₂ (fun cls block => cls.ReadFrom block.1 block.2) (classes.map (Class.under outer))
      (ParseTree.forestBlocks outer decls.forest) := by
  induction decls generalizing first classes outer with
  | empty =>
      cases h
      exact .nil
  | withClass before decl ih =>
      obtain ⟨earlier, beforeOk, rfl⟩ := classesFrom_withClass.mp h
      have block : ParseTree.forestBlocks outer [decl.tree] = [(outer, decl.tree)] := rfl
      have last : Class.under outer decl.toClass = { decl.toClass with namespaces := outer } := by
        simp [Class.under, ClassDecl.toClass]
      rw [forest, ParseTree.forestBlocks_append, block, List.map_append]
      refine List.rel_append (ih beforeOk outer) ?_
      rw [List.map_singleton, last]
      exact .cons (decl.readFrom outer) .nil
  | withNamespace before name body closing ihBefore ihBody =>
      obtain ⟨earlier, inner, beforeOk, bodyOk, -, rfl⟩ := classesFrom_withNamespace.mp h
      have nested : (inner.map (Class.within name)).map (Class.under outer) =
          inner.map (Class.under (outer ++ [name])) := by
        rw [List.map_map]
        refine List.map_congr_left fun cls _ => ?_
        simp [Class.under, Class.within]
      rw [forest, ParseTree.forestBlocks_append, List.map_append, nested]
      refine List.rel_append (ihBefore beforeOk outer) ?_
      rw [ParseTree.forestBlocks, ParseTree.blocks_namespace, ParseTree.forestBlocks,
        List.append_nil]
      exact ihBody bodyOk (outer ++ [name])

/-- The classes are what the derivation says. -/
theorem listReadFrom {decls : Declarations} {classes : List Class}
    (h : decls.classes = .ok classes) : Class.ListReadFrom classes decls.tree := by
  have read := forall₂_blocks h []
  have same : classes.map (Class.under []) = classes := List.map_id classes
  rwa [same] at read

theorem exists_classes_iff (decls : Declarations) :
    (∃ classes, decls.classes = .ok classes) ↔ decls.tree.ClosingsAgree := by
  rw [tree, ParseTree.closingsAgree_node_iff, ← decls.exists_classesFrom_iff 0]
  simp only [classes, reduceCtorEq, false_implies, true_and]

end Declarations

end MexGlue
