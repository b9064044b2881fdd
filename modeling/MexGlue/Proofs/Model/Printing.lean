import Mathlib.Data.List.Basic
import MexGlue.Glue.TypeMap
import MexGlue.Proofs.Model.WellFormed

/-!
# Declarations for a model

Every part of the model has a declaration that is written for it, and a model that is well-formed is
what its declarations mean. Members are written by kind, and every class in namespaces of its own.
-/

namespace MexGlue

@[simp] theorem BasisType.ofName?_spelling (t : BasisType) : ofName? t.spelling = some t := by
  cases t <;> rfl

@[simp] theorem BasisType.ofName?_container (t : ContainerType) : ofName? t.spelling = none := by
  cases t <;> rfl

@[simp] theorem ContainerType.ofName?_spelling (t : ContainerType) :
    ofName? t.spelling = some t := by
  cases t <;> rfl

theorem BasisType.ofName?_of_isUpperName {name : String} (h : IsUpperName name) :
    ofName? name = none :=
  List.find?_eq_none.mpr fun t _ same => h.ne_basis t (eq_of_beq same)

theorem ContainerType.ofName?_of_isUpperName {name : String} (h : IsUpperName name) :
    ofName? name = none :=
  List.find?_eq_none.mpr fun t _ same => h.ne_container t (eq_of_beq same)

def Identifier.ofName (name : String) : Identifier :=
  if name.toList.head?.any Char.isUpper then .upper name else .lower name

@[simp] theorem Identifier.name_ofName (name : String) : (ofName name).name = name := by
  unfold ofName
  split <;> rfl

theorem Identifier.wellFormed_ofName {name : String} (h : IsName name) :
    (ofName name).token.WellFormed := by
  unfold ofName
  rcases h with isLower | isUpper
  · obtain ⟨first, rest, text, kind, -⟩ := isLower.1
    have notUpper : ¬ first.isUpper = true := by
      intro upper
      rw [Pattern.not_isLower_of_isUpper upper] at kind
      cases kind
    rw [text, List.head?_cons, Option.any_some, if_neg notUpper]
    exact isLower
  · obtain ⟨first, rest, text, kind, -⟩ := isUpper.1
    rw [text, List.head?_cons, Option.any_some, if_pos kind]
    exact isUpper

/-! ## Arguments and return types -/

namespace Argument

def form (arg : Argument) : ArgumentForm :=
  match BasisType.ofName? arg.type, ContainerType.ofName? arg.type with
  | some t, _ => .basis t
  | none, some t =>
      if arg.isReference then .containerReference arg.isConst t
      else if arg.isPointer then .containerPointer t
      else .container t
  | none, none =>
      if arg.isReference then .classReference arg.isConst ⟨arg.namespaces, arg.type⟩
      else .classPointer ⟨arg.namespaces, arg.type⟩

def decl (arg : Argument) : ArgumentDecl := ⟨arg.form, .ofName arg.name⟩

theorem argument_decl {arg : Argument} (h : arg.WellFormed) : arg.decl.argument = arg := by
  obtain ⟨-, shape, found, -⟩ := h
  rcases arg with ⟨type, name, isConst, isPointer, isReference, namespaces⟩
  cases shape with
  | basisValue =>
      obtain ⟨⟨t, rfl⟩, rfl, rfl, rfl, rfl⟩ := found
      simp [decl, form, ArgumentDecl.argument]
  | containerValue =>
      obtain ⟨⟨t, rfl⟩, rfl, rfl, rfl⟩ := found
      cases isPointer <;> simp [decl, form, ArgumentDecl.argument]
  | containerReference =>
      obtain ⟨⟨t, rfl⟩, rfl, rfl, rfl⟩ := found
      simp [decl, form, ArgumentDecl.argument]
  | classReference =>
      obtain ⟨isUpper, rfl, rfl, -⟩ := found
      simp [decl, form, ArgumentDecl.argument, BasisType.ofName?_of_isUpperName isUpper,
        ContainerType.ofName?_of_isUpperName isUpper]
  | classPointer =>
      obtain ⟨isUpper, rfl, rfl, rfl, -⟩ := found
      simp [decl, form, ArgumentDecl.argument, BasisType.ofName?_of_isUpperName isUpper,
        ContainerType.ofName?_of_isUpperName isUpper]

theorem wellFormedTokens_form {arg : Argument} (h : arg.WellFormed) :
    WellFormedTokens arg.form.tokens := by
  obtain ⟨-, shape, found, -⟩ := h
  rcases arg with ⟨type, name, isConst, isPointer, isReference, namespaces⟩
  cases shape with
  | basisValue =>
      obtain ⟨⟨t, rfl⟩, -⟩ := found
      simp [form, ArgumentForm.tokens]
  | containerValue =>
      obtain ⟨⟨t, rfl⟩, rfl, rfl, rfl⟩ := found
      cases isPointer <;> simp [form, ArgumentForm.tokens]
  | containerReference =>
      obtain ⟨⟨t, rfl⟩, rfl, -⟩ := found
      simp [form, ArgumentForm.tokens]
  | classReference =>
      obtain ⟨isUpper, rfl, -, scopes⟩ := found
      have type : IsUpperName type := isUpper
      have names : ∀ name ∈ namespaces, IsLowerName name := scopes
      simpa [form, ArgumentForm.tokens, BasisType.ofName?_of_isUpperName isUpper,
        ContainerType.ofName?_of_isUpperName isUpper, type] using names
  | classPointer =>
      obtain ⟨isUpper, -, -, rfl, scopes⟩ := found
      have type : IsUpperName type := isUpper
      have names : ∀ name ∈ namespaces, IsLowerName name := scopes
      simpa [form, ArgumentForm.tokens, BasisType.ofName?_of_isUpperName isUpper,
        ContainerType.ofName?_of_isUpperName isUpper, type] using names

theorem wellFormedTokens_decl {arg : Argument} (h : arg.WellFormed) :
    WellFormedTokens arg.decl.tokens := by
  have last : WellFormedTokens [(Identifier.ofName arg.name).token] :=
    wellFormedTokens_cons.mpr ⟨Identifier.wellFormed_ofName h.name, wellFormedTokens_nil⟩
  exact wellFormedTokens_append.mpr ⟨wellFormedTokens_form h, last⟩

theorem map_argument_decl {args : List Argument} (h : ∀ arg ∈ args, arg.WellFormed) :
    (args.map decl).map ArgumentDecl.argument = args := by
  have each : ∀ arg ∈ args, (ArgumentDecl.argument ∘ decl) arg = id arg :=
    fun arg member => argument_decl (h arg member)
  rw [List.map_map, List.map_congr_left each, List.map_id]

theorem wellFormedTokens_map_decl {args : List Argument} (h : ∀ arg ∈ args, arg.WellFormed) :
    WellFormedTokens (argumentTokens (args.map decl)) := by
  rw [wellFormedTokens_arguments]
  intro written member
  obtain ⟨arg, inside, rfl⟩ := List.mem_map.mp member
  exact wellFormedTokens_decl (h arg inside)

end Argument

def ReturnSlot.form (slot : ReturnSlot) : SlotForm :=
  match BasisType.ofName? slot.type, ContainerType.ofName? slot.type with
  | some t, _ => .basis t
  | none, some t => .container t
  | none, none => .classType ⟨slot.namespaces, slot.type⟩ slot.isPointer

theorem ReturnSlot.slot_form {slot : ReturnSlot} (h : slot.WellFormed) :
    slot.form.slot = slot ∧ WellFormedTokens slot.form.tokens := by
  obtain ⟨category, same⟩ := Option.ne_none_iff_exists'.mp h.category
  have names : NamesType slot.type category := (h.category_iff category).mp same
  have bare := h.bare
  have scopes := h.namespaces
  rcases slot with ⟨type, slotCategory, isPointer, namespaces⟩
  cases same
  cases category with
  | basis =>
      obtain ⟨t, rfl⟩ := names
      obtain ⟨rfl, rfl⟩ := bare (by simp)
      simp [form, SlotForm.slot, SlotForm.tokens]
  | container =>
      obtain ⟨t, rfl⟩ := names
      obtain ⟨rfl, rfl⟩ := bare (by simp)
      simp [form, SlotForm.slot, SlotForm.tokens]
  | classType =>
      have isUpper : IsUpperName type := names
      simpa [form, SlotForm.slot, SlotForm.tokens, BasisType.ofName?_of_isUpperName isUpper,
        ContainerType.ofName?_of_isUpperName isUpper, isUpper] using scopes

namespace ReturnValue

def form (value : ReturnValue) : ReturnForm :=
  match value.second with
  | some second => .pair value.first.form second.form
  | none => if value.isVoid then .void else .single value.first.form

theorem returnValue_form {value : ReturnValue} (h : value.WellFormed) :
    value.form.returnValue = value ∧ WellFormedTokens value.form.tokens := by
  rcases h with rfl | slots
  · simp [form, isVoid, ReturnSlot.void, ReturnForm.returnValue, ReturnForm.tokens]
  · rcases value with ⟨first, second⟩
    have firstWellFormed : first.WellFormed := slots first List.mem_cons_self
    obtain ⟨firstSame, firstTokens⟩ := ReturnSlot.slot_form firstWellFormed
    cases second with
    | none =>
        have notVoid : (ReturnValue.mk first none).isVoid = false :=
          Option.isNone_eq_false_iff.mpr (Option.isSome_iff_ne_none.mpr firstWellFormed.category)
        simp [form, notVoid, ReturnForm.returnValue, ReturnForm.tokens, firstSame, firstTokens]
    | some second =>
        have secondWellFormed : second.WellFormed := slots second (by simp [ReturnValue.slots])
        obtain ⟨secondSame, secondTokens⟩ := ReturnSlot.slot_form secondWellFormed
        simp [form, ReturnForm.returnValue, ReturnForm.tokens, firstSame, firstTokens, secondSame,
          secondTokens]

end ReturnValue

/-! ## Members and classes -/

def Constructor.decl (constructor : Constructor) : MemberDecl :=
  .constructor constructor.name (constructor.args.map Argument.decl)

def Method.decl (method : Method) : MemberDecl :=
  .method method.returnValue.form method.name (method.args.map Argument.decl) method.isConst

def StaticMethod.decl (method : StaticMethod) : MemberDecl :=
  .staticMethod method.returnValue.form (.ofName method.name) (method.args.map Argument.decl)

def Class.decl (cls : Class) : ClassDecl where
  name := cls.name
  members := cls.includes.map MemberDecl.includeLine ++ cls.constructors.map Constructor.decl ++
    cls.methods.map Method.decl ++ cls.staticMethods.map StaticMethod.decl

/-- What is found again of every element is the whole list. -/
theorem filterMap_map_eq_self {α β : Type} {f : β → Option α} {g : α → β} {xs : List α}
    (found : ∀ x ∈ xs, f (g x) = some x) : (xs.map g).filterMap f = xs := by
  induction xs with
  | nil => rfl
  | cons x xs ih =>
      have later : ∀ y ∈ xs, f (g y) = some y :=
        fun y member => found y (List.mem_cons_of_mem x member)
      rw [List.map_cons, List.filterMap_cons_some (found x List.mem_cons_self), ih later]

/-- A class is what its declaration means, up to the namespaces around it. -/
theorem Class.toClass_decl {cls : Class} (h : cls.WellFormed) :
    cls.decl.toClass = { cls with namespaces := [] } := by
  have constructors : ∀ constructor ∈ cls.constructors,
      MemberDecl.constructor? cls.name constructor.decl = some constructor := by
    intro constructor member
    obtain ⟨nameEq, args⟩ := h.constructors constructor member
    simp only [Constructor.decl, MemberDecl.constructor?, Argument.map_argument_decl args, ← nameEq]
  have methods : ∀ method ∈ cls.methods, MemberDecl.method? method.decl = some method := by
    intro method member
    obtain ⟨-, args, returns⟩ := h.methods method member
    simp only [Method.decl, MemberDecl.method?, Argument.map_argument_decl args,
      (ReturnValue.returnValue_form returns).1]
  have staticMethods : ∀ method ∈ cls.staticMethods,
      MemberDecl.staticMethod? method.decl = some method := by
    intro method member
    obtain ⟨-, args, returns⟩ := h.staticMethods method member
    simp only [StaticMethod.decl, MemberDecl.staticMethod?, Argument.map_argument_decl args,
      (ReturnValue.returnValue_form returns).1, Identifier.name_ofName]
  have includes : ∀ path ∈ cls.includes,
      MemberDecl.includePath? (.includeLine path) = some path := fun path _ => rfl
  simp only [ClassDecl.toClass, decl, List.filterMap_append]
  rw [filterMap_map_eq_self constructors, filterMap_map_eq_self methods,
    filterMap_map_eq_self staticMethods, filterMap_map_eq_self includes]
  simp [List.filterMap_map, Function.comp_def, Constructor.decl, Method.decl, StaticMethod.decl,
    MemberDecl.constructor?, MemberDecl.method?, MemberDecl.staticMethod?,
    MemberDecl.includePath?]

theorem Class.wellFormedTokens_decl {cls : Class} (h : cls.WellFormed) :
    WellFormedTokens cls.decl.tokens := by
  refine ClassDecl.wellFormedTokens_iff.mpr ⟨h.name, fun member inside => ?_⟩
  simp only [decl, List.mem_append, List.mem_map] at inside
  rcases inside with ((⟨path, found, rfl⟩ | ⟨constructor, found, rfl⟩) | ⟨method, found, rfl⟩) |
    ⟨method, found, rfl⟩
  · exact wellFormedTokens_cons.mpr ⟨h.includes path found, wellFormedTokens_nil⟩
  · obtain ⟨nameEq, args⟩ := h.constructors constructor found
    have isUpper : IsUpperName constructor.name := nameEq ▸ h.name
    simp [Constructor.decl, MemberDecl.tokens, MemberHead.wellFormedTokens_iff, MemberHead.tokens,
      isUpper, Argument.wellFormedTokens_map_decl args]
  · obtain ⟨isLower, args, returns⟩ := h.methods method found
    simp [Method.decl, MemberDecl.tokens, MemberHead.wellFormedTokens_iff, MemberHead.tokens,
      isLower, Argument.wellFormedTokens_map_decl args,
      (ReturnValue.returnValue_form returns).2]
  · obtain ⟨isName, args, returns⟩ := h.staticMethods method found
    simp [StaticMethod.decl, MemberDecl.tokens, MemberHead.wellFormedTokens_iff,
      MemberHead.tokens, Identifier.wellFormed_ofName isName,
      Argument.wellFormedTokens_map_decl args, (ReturnValue.returnValue_form returns).2]

/-! ## Whole models -/

namespace Declarations

/-- A class in namespaces, outermost first, behind other declarations. -/
def put (before : Declarations) : List String → ClassDecl → Declarations
  | [], decl => before.withClass decl
  | name :: inner, decl => before.withNamespace name (put .empty inner decl) none

theorem classesFrom_put {before : Declarations} {first : Nat} {earlier : List Class}
    (h : before.classesFrom first = .ok earlier) (namespaces : List String) (decl : ClassDecl) :
    (before.put namespaces decl).classesFrom first =
      .ok (earlier ++ [decl.toClass.under namespaces]) := by
  induction namespaces generalizing before first earlier with
  | nil => exact classesFrom_withClass.mpr ⟨earlier, h, rfl⟩
  | cons name inner ih =>
      have nothing : empty.classesFrom (bodyStart first before name) = .ok [] := rfl
      have body := ih nothing
      exact classesFrom_withNamespace.mpr ⟨earlier, _, h, body, by simp, rfl⟩

theorem wellFormedTokens_put {before : Declarations} {namespaces : List String} {decl : ClassDecl}
    (hb : WellFormedTokens before.tokens) (hn : ∀ name ∈ namespaces, IsLowerName name)
    (hd : WellFormedTokens decl.tokens) :
    WellFormedTokens (before.put namespaces decl).tokens := by
  induction namespaces generalizing before with
  | nil => exact wellFormedTokens_append.mpr ⟨hb, hd⟩
  | cons name inner ih =>
      obtain ⟨isLower, others⟩ := List.forall_mem_cons.mp hn
      have body : WellFormedTokens (put .empty inner decl).tokens := ih wellFormedTokens_nil others
      simp [put, tokens, namespaceOpening, namespaceEnd, hb, isLower, body]

/-- Declarations for classes, behind other declarations. -/
def putAll (before : Declarations) (classes : List Class) : Declarations :=
  classes.foldl (fun earlier cls => earlier.put cls.namespaces cls.decl) before

theorem classesFrom_putAll {before : Declarations} {first : Nat} {earlier classes : List Class}
    (hb : before.classesFrom first = .ok earlier) (hc : ∀ cls ∈ classes, cls.WellFormed) :
    (before.putAll classes).classesFrom first = .ok (earlier ++ classes) := by
  induction classes generalizing before earlier with
  | nil => rw [List.append_nil, putAll, List.foldl_nil, hb]
  | cons cls classes ih =>
      obtain ⟨wellFormed, others⟩ := List.forall_mem_cons.mp hc
      have same : cls.decl.toClass.under cls.namespaces = cls := by
        rw [Class.toClass_decl wellFormed]
        simp [Class.under]
      have put := classesFrom_put hb cls.namespaces cls.decl
      rw [same] at put
      rw [putAll, List.foldl_cons, ← putAll, ih put others, List.append_assoc]
      rfl

theorem wellFormedTokens_putAll {before : Declarations} {classes : List Class}
    (hb : WellFormedTokens before.tokens) (hc : ∀ cls ∈ classes, cls.WellFormed) :
    WellFormedTokens (before.putAll classes).tokens := by
  induction classes generalizing before with
  | nil => exact hb
  | cons cls classes ih =>
      obtain ⟨wellFormed, others⟩ := List.forall_mem_cons.mp hc
      have put := wellFormedTokens_put hb wellFormed.namespaces
        (Class.wellFormedTokens_decl wellFormed)
      exact ih put others

end Declarations

end MexGlue
