import Mathlib.Data.List.Forall2
import MexGlue.Proofs.Glue.Closed
import MexGlue.Proofs.Glue.Dispatch
import MexGlue.Proofs.OfText.Image
import MexGlue.Proofs.Toolbox.Apart

/-!
# Overloaded constructors

What a constructor is called keeps the first letters of its arguments' types, and what the proxy
asks for keeps their classes on the other side. Both forget something, and not the same: `string` and
`size_t` start alike and have different classes, `size_t` and `int` start differently and have one
class. So each of the two tells some overloads apart that the other does not.
-/

namespace MexGlue

theorem forall₂_congr_of_mem {α : Type} {R S : α → α → Prop} {xs ys : List α}
    (h : ∀ x ∈ xs, ∀ y ∈ ys, R x y ↔ S x y) : List.Forall₂ R xs ys ↔ List.Forall₂ S xs ys := by
  induction xs generalizing ys with
  | nil => cases ys <;> simp
  | cons x xs ih =>
      cases ys with
      | nil => simp
      | cons y ys =>
          rw [List.forall₂_cons, List.forall₂_cons, h x List.mem_cons_self y List.mem_cons_self,
            ih fun x' inXs y' inYs =>
              h x' (List.mem_cons_of_mem x inXs) y' (List.mem_cons_of_mem y inYs)]

theorem map_eq_map_iff_forall₂ {α β : Type} {f : α → β} {xs ys : List α} :
    xs.map f = ys.map f ↔ List.Forall₂ (fun x y => f x = f y) xs ys := by
  rw [← List.forall₂_eq_eq_eq, List.forall₂_map_left_iff, List.forall₂_map_right_iff]

/-! ## Names -/

namespace Argument

/-- Whether the types of two arguments start with the same letter. -/
def SharesLetter (arg other : Argument) : Prop := arg.type.toList.head? = other.type.toList.head?

instance (arg other : Argument) : Decidable (arg.SharesLetter other) :=
  inferInstanceAs (Decidable (_ = _))

end Argument

theorem map_of_mapM_eq_some {α β : Type} {f : α → Option β} {xs : List α} {ys : List β}
    (h : xs.mapM f = some ys) : xs.map f = ys.map some := by
  induction xs generalizing ys with
  | nil =>
      cases h
      rfl
  | cons x xs ih =>
      simp only [List.mapM_cons, Option.bind_eq_bind, Option.bind_eq_some_iff, Option.pure_def,
        Option.some.injEq] at h
      obtain ⟨first, found, rest, others, rfl⟩ := h
      rw [List.map_cons, List.map_cons, found, ih others]

/-- Signatures are told apart letter by letter. -/
theorem signature?_eq_iff {args others : List Argument} (named : ∀ arg ∈ args, arg.type ≠ "")
    (named' : ∀ arg ∈ others, arg.type ≠ "") :
    signature? args = signature? others ↔ List.Forall₂ Argument.SharesLetter args others := by
  obtain ⟨letters, signed⟩ := exists_signature? named
  obtain ⟨letters', signed'⟩ := exists_signature? named'
  rw [signed, signed']
  obtain ⟨firsts, found, rfl⟩ := Option.map_eq_some_iff.mp signed
  obtain ⟨firsts', found', rfl⟩ := Option.map_eq_some_iff.mp signed'
  calc some (String.ofList firsts) = some (String.ofList firsts')
      ↔ firsts = firsts' := by rw [Option.some.injEq, String.ofList_inj]
    _ ↔ firsts.map some = firsts'.map some :=
      (List.map_injective_iff.mpr fun _ _ => Option.some.inj).eq_iff.symm
    _ ↔ List.Forall₂ Argument.SharesLetter args others := by
      rw [← map_of_mapM_eq_some found, ← map_of_mapM_eq_some found', map_eq_map_iff_forall₂]
      rfl

/-! ## Conditions -/

theorem BasisType.matlabClass_eq {t t' : BasisType} (same : t.matlabClass = t'.matlabClass) :
    t = t' ∨ (t = .sizeT ∨ t = .int) ∧ (t' = .sizeT ∨ t' = .int) := by
  revert same
  cases t <;> cases t' <;> decide

theorem BasisType.matlabClass_eq_double {t : BasisType} (same : t.matlabClass = "double") :
    t = .double := by
  revert same
  cases t <;> decide

namespace Argument

variable {arg other : Argument}

/-- Whether the proxy asks for the same class for two arguments: they have one type, or two of the
whole numbers or of the values that are passed as doubles, or classes with one joined name. -/
inductive SharesGuard (arg other : Argument) : Prop
  | type (type : arg.type = other.type) (namespaces : arg.namespaces = other.namespaces)
  | numeric (type : arg.type = "size_t" ∨ arg.type = "int")
      (otherType : other.type = "size_t" ∨ other.type = "int")
  | double (type : arg.type = "double" ∨ arg.type = "Vector" ∨ arg.type = "Matrix")
      (otherType : other.type = "double" ∨ other.type = "Vector" ∨ other.type = "Matrix")
  | joined (type : NamesType arg.type .classType) (otherType : NamesType other.type .classType)
      (name : arg.qualifiedType "_" = other.qualifiedType "_")

theorem matlabClass_of_basis {t : BasisType} (h : t.spelling = arg.type) :
    arg.matlabClass = t.matlabClass := by
  simp [matlabClass, ← h]

theorem matlabClass_of_container {t : ContainerType} (h : t.spelling = arg.type) :
    arg.matlabClass = "double" := by
  simp [matlabClass, ← h, isContainerName, containerMatlabClass]

theorem matlabClass_of_classType (h : NamesType arg.type .classType) :
    arg.matlabClass = arg.qualifiedType "_" :=
  arg.matlabClass_of_isClass (by rw [isClass_of_category h]; rfl)

/-- Only an object's class is not built in. -/
theorem matlabClass_mem_builtInClasses_iff {category : Category}
    (h : NamesType arg.type category) :
    arg.matlabClass ∈ Matlab.builtInClasses ↔ category ≠ .classType := by
  cases category with
  | basis =>
      obtain ⟨t, spelled⟩ := h
      rw [matlabClass_of_basis spelled]
      cases t <;> decide
  | container =>
      obtain ⟨t, spelled⟩ := h
      rw [matlabClass_of_container spelled]
      decide
  | classType =>
      rw [matlabClass_of_classType h]
      exact ⟨fun member => absurd member (h.qualify_not_mem_builtInClasses arg.namespaces),
        fun other => absurd rfl other⟩

theorem SharesGuard.matlabClass (h : arg.SharesGuard other) :
    arg.matlabClass = other.matlabClass := by
  have numeric {arg : Argument} (type : arg.type = "size_t" ∨ arg.type = "int") :
      arg.matlabClass = "numeric" := by
    rcases type with same | same
    · exact matlabClass_of_basis (t := .sizeT) same.symm
    · exact matlabClass_of_basis (t := .int) same.symm
  have double {arg : Argument}
      (type : arg.type = "double" ∨ arg.type = "Vector" ∨ arg.type = "Matrix") :
      arg.matlabClass = "double" := by
    rcases type with same | same | same
    · exact matlabClass_of_basis (t := .double) same.symm
    · exact matlabClass_of_container (t := .vector) same.symm
    · exact matlabClass_of_container (t := .matrix) same.symm
  cases h with
  | type type namespaces =>
      rw [Argument.matlabClass, Argument.matlabClass, qualifiedType, qualifiedType, type,
        namespaces]
  | numeric type otherType => rw [numeric type, numeric otherType]
  | double type otherType => rw [double type, double otherType]
  | joined type otherType name =>
      rw [matlabClass_of_classType type, matlabClass_of_classType otherType, name]

/-- Two arguments that are no objects have one class only as listed. -/
theorem sharesGuard_of_not_class {category category' : Category}
    (names : NamesType arg.type category) (names' : NamesType other.type category')
    (notClass : category ≠ .classType) (notClass' : category' ≠ .classType)
    (namespaces : arg.namespaces = other.namespaces)
    (same : arg.matlabClass = other.matlabClass) : arg.SharesGuard other := by
  have whole {t : BasisType} (either : t = .sizeT ∨ t = .int) :
      t.spelling = "size_t" ∨ t.spelling = "int" := by
    rcases either with rfl | rfl
    · exact .inl rfl
    · exact .inr rfl
  have held (t : ContainerType) : t.spelling = "Vector" ∨ t.spelling = "Matrix" := by
    cases t
    · exact .inl rfl
    · exact .inr rfl
  cases category with
  | basis =>
      obtain ⟨t, spelled⟩ := names
      cases category' with
      | basis =>
          obtain ⟨t', spelled'⟩ := names'
          rw [matlabClass_of_basis spelled, matlabClass_of_basis spelled'] at same
          rcases BasisType.matlabClass_eq same with rfl | ⟨either, either'⟩
          · exact .type (spelled.symm.trans spelled') namespaces
          · exact .numeric (spelled ▸ whole either) (spelled' ▸ whole either')
      | container =>
          obtain ⟨t', spelled'⟩ := names'
          rw [matlabClass_of_basis spelled, matlabClass_of_container spelled'] at same
          cases BasisType.matlabClass_eq_double same
          exact .double (.inl spelled.symm) (.inr (spelled' ▸ held t'))
      | classType => exact absurd rfl notClass'
  | container =>
      obtain ⟨t, spelled⟩ := names
      cases category' with
      | basis =>
          obtain ⟨t', spelled'⟩ := names'
          rw [matlabClass_of_container spelled, matlabClass_of_basis spelled'] at same
          cases BasisType.matlabClass_eq_double same.symm
          exact .double (.inr (spelled ▸ held t)) (.inl spelled'.symm)
      | container =>
          obtain ⟨t', spelled'⟩ := names'
          exact .double (.inr (spelled ▸ held t)) (.inr (spelled' ▸ held t'))
      | classType => exact absurd rfl notClass'
  | classType => exact absurd rfl notClass

theorem WellFormed.sharesGuard_iff (h : arg.WellFormed) (h' : other.WellFormed) :
    arg.matlabClass = other.matlabClass ↔ arg.SharesGuard other := by
  refine ⟨fun same => ?_, SharesGuard.matlabClass⟩
  obtain ⟨shape, found, -⟩ := h.shape
  obtain ⟨shape', found', -⟩ := h'.shape
  have names := found.category
  have names' := found'.category
  have builtIn : shape.category ≠ .classType ↔ shape'.category ≠ .classType := by
    rw [← matlabClass_mem_builtInClasses_iff names, ← matlabClass_mem_builtInClasses_iff names',
      same]
  by_cases isClass : shape.category = .classType
  · have isClass' : shape'.category = .classType := by
      by_contra notClass'
      exact builtIn.mpr notClass' isClass
    rw [isClass] at names
    rw [isClass'] at names'
    rw [matlabClass_of_classType names, matlabClass_of_classType names'] at same
    exact .joined names names' same
  · have bare {arg : Argument} (h : arg.WellFormed) {category : Category}
        (names : NamesType arg.type category) (notClass : category ≠ .classType) :
        arg.namespaces = [] := by
      refine (h.marks_of_not_isClass ?_).1
      rw [isClass_of_category names]
      exact beq_eq_false_iff_ne.mpr notClass
    have isClass' := builtIn.mp isClass
    exact sharesGuard_of_not_class names names' isClass isClass'
      ((bare h names isClass).trans (bare h' names' isClass').symm) same

end Argument

/-- What a proxy asks before it takes a constructor: the number of what it is called with, and the
class of each of these. -/
def Matlab.Dispatch.condition (dispatch : Matlab.Dispatch) : String × List (String × String) :=
  (dispatch.count, dispatch.guards)

theorem Constructor.condition_dispatch_eq_iff {ctor other : Constructor} (name name' : String) :
    (ctor.dispatch name).condition = (other.dispatch name').condition ↔
      ctor.args.map Argument.matlabClass = other.args.map Argument.matlabClass := by
  have classes (args : List Argument) :
      ((args.zipIdx 1).map guardOf).map Prod.snd = args.map Argument.matlabClass := by
    have firsts := congrArg (List.map Argument.matlabClass) (List.zipIdx_map_fst 1 args)
    rw [List.map_map] at firsts ⊢
    exact firsts
  have guards (args : List Argument) : (args.zipIdx 1).map guardOf =
      ((args.map Argument.matlabClass).zipIdx 1).map fun guard =>
        (proxyParameter guard.2, guard.1) := by
    rw [List.zipIdx_map, List.map_map]
    rfl
  constructor
  · intro same
    have guarded := congrArg (List.map Prod.snd) (Prod.mk.inj same).2
    rwa [Constructor.dispatch, Constructor.dispatch, classes, classes] at guarded
  · intro same
    have lengths := congrArg List.length same
    rw [List.length_map, List.length_map] at lengths
    rw [Matlab.Dispatch.condition, Matlab.Dispatch.condition, Constructor.dispatch,
      Constructor.dispatch, guards, guards, same, lengths]

/-! ## Overloads -/

namespace Class

variable {cls : Class} {ctor other : Constructor}

theorem WellFormed.constructorName_eq_iff (h : cls.WellFormed) (member : ctor ∈ cls.constructors)
    (member' : other ∈ cls.constructors) :
    cls.constructorName? ctor = cls.constructorName? other ↔
      List.Forall₂ Argument.SharesLetter ctor.args other.args := by
  have named := h.namesConstructorTypes
  rw [← signature?_eq_iff (named ctor member) (named other member')]
  constructor
  · intro same
    rw [named.constructorName? member, named.constructorName? member', Option.some.injEq] at same
    exact constructorName_injective h member member' same
  · intro same
    rw [constructorName?, constructorName?, same]

/-- Files of two constructors have a place in common exactly if these have one name. -/
theorem WellFormed.disjoint_places_iff (h : cls.WellFormed) (member : ctor ∈ cls.constructors)
    (member' : other ∈ cls.constructors) (libraryNamespace : String) :
    List.Disjoint (cls.constructorFunction libraryNamespace ctor).places
        (cls.constructorFunction libraryNamespace other).places ↔
      cls.constructorName? ctor ≠ cls.constructorName? other := by
  have named := h.namesConstructorTypes
  rw [named.constructorName? member, named.constructorName? member', ne_eq, Option.some.injEq]
  constructor
  · intro disjoint same
    have stub : (cls.constructorFunction libraryNamespace ctor).stubPlace =
        (cls.constructorFunction libraryNamespace other).stubPlace := by
      rw [GlueFunction.stubPlace, GlueFunction.stubPlace, constructorFunction, constructorFunction,
        same]
    exact disjoint List.mem_cons_self (stub ▸ List.mem_cons_self)
  · intro different place inPlaces inOther
    exact different (congrArg Prod.snd (GlueFunction.key_eq_of_mem_places inPlaces inOther))

theorem WellFormed.condition_eq_iff (h : cls.WellFormed) (member : ctor ∈ cls.constructors)
    (member' : other ∈ cls.constructors) (name name' : String) :
    (ctor.dispatch name).condition = (other.dispatch name').condition ↔
      List.Forall₂ Argument.SharesGuard ctor.args other.args := by
  rw [Constructor.condition_dispatch_eq_iff, map_eq_map_iff_forall₂]
  exact forall₂_congr_of_mem fun arg inArgs arg' inArgs' =>
    ((h.constructors ctor member).2 arg inArgs).sharesGuard_iff
      ((h.constructors other member').2 arg' inArgs')

end Class

/-- Two constructors of a class that was read have different names, and with them different files,
exactly if the types of their arguments start with different letters somewhere or are more for one
of them; and what the proxy asks before it takes them is different exactly if some arguments of one
position do not share a guard or there are more for one of them. -/
theorem Interface.overloads_apart_iff {name : String} {verbose : Bool} {text : String}
    {interface : Interface} (read : Interface.ofText name verbose text = .ok interface)
    {cls : Class} (member : cls ∈ interface.classes) (libraryNamespace : String) :
    (∀ ctor ∈ cls.constructors, (cls.constructorName? ctor).isSome = true) ∧
    ∃ proxy, cls.proxy? = some proxy ∧
      (Matlab.dispatches proxy).length = cls.constructors.length ∧
      ∀ (i j : Nat) (ctor other : Constructor), cls.constructors[i]? = some ctor →
        cls.constructors[j]? = some other →
        (cls.constructorName? ctor ≠ cls.constructorName? other ↔
          ¬ List.Forall₂ Argument.SharesLetter ctor.args other.args) ∧
        (List.Disjoint (cls.constructorFunction libraryNamespace ctor).places
            (cls.constructorFunction libraryNamespace other).places ↔
          ¬ List.Forall₂ Argument.SharesLetter ctor.args other.args) ∧
        ((Matlab.dispatches proxy)[i]?.map Matlab.Dispatch.condition ≠
            (Matlab.dispatches proxy)[j]?.map Matlab.Dispatch.condition ↔
          ¬ List.Forall₂ Argument.SharesGuard ctor.args other.args) := by
  have wellFormed := Interface.wellFormed_of_ofText read cls member
  have named := wellFormed.namesConstructorTypes
  refine ⟨fun ctor inClass => by rw [named.constructorName? inClass]; rfl,
    cls.proxyArtifact.text, by rw [named.proxy?, Class.proxyArtifact_text],
    by rw [wellFormed.dispatches_proxy, List.length_map], ?_⟩
  intro i j ctor other found found'
  have inClass := List.mem_of_getElem? found
  have inClass' := List.mem_of_getElem? found'
  have names := wellFormed.constructorName_eq_iff inClass inClass'
  refine ⟨not_congr names, ?_, not_congr ?_⟩
  · rw [wellFormed.disjoint_places_iff inClass inClass']
    exact not_congr names
  · rw [wellFormed.dispatches_proxy, List.getElem?_map, List.getElem?_map, found, found',
      Option.map_some, Option.map_some, Option.map_some, Option.map_some, Option.some.injEq]
    exact wellFormed.condition_eq_iff inClass inClass' _ _

/-- A class with constructors that share a name or what is asked for. -/
def Class.withOverloads : Class where
  name := "A"
  constructors := [⟨"A", [{ type := "string", name := "s" }]⟩,
    ⟨"A", [{ type := "size_t", name := "n" }]⟩, ⟨"A", [{ type := "int", name := "i" }]⟩]

/-- The first and the last constructor have different names and no file in common, and the first and
the second are taken under different conditions. -/
theorem Interface.overloads_apart_iff_withOverloads : ∃ interface : Interface,
    Interface.ofText "m" false "class A { A(string s); A(size_t n); A(int i); };" = .ok interface ∧
    ∃ cls ∈ interface.classes, ∃ proxy, cls.proxy? = some proxy ∧
      ∃ ctor other third : Constructor, cls.constructors[0]? = some ctor ∧
        cls.constructors[1]? = some other ∧ cls.constructors[2]? = some third ∧
        cls.constructorName? ctor ≠ cls.constructorName? third ∧
        List.Disjoint (cls.constructorFunction "lib" ctor).places
          (cls.constructorFunction "lib" third).places ∧
        (Matlab.dispatches proxy)[0]?.map Matlab.Dispatch.condition ≠
          (Matlab.dispatches proxy)[1]?.map Matlab.Dispatch.condition := by
  have read : Interface.ofText "m" false "class A { A(string s); A(size_t n); A(int i); };" =
      .ok { name := "m", classes := [Class.withOverloads] } := by decide +kernel
  obtain ⟨-, proxy, made, -, apart⟩ :=
    Interface.overloads_apart_iff read (List.mem_singleton.mpr rfl) "lib"
  obtain ⟨names, files, -⟩ := apart 0 2 _ _ rfl rfl
  obtain ⟨-, -, conditions⟩ := apart 0 1 _ _ rfl rfl
  have letters : ¬ List.Forall₂ Argument.SharesLetter [{ type := "string", name := "s" }]
      [{ type := "int", name := "i" }] := by decide
  have guards : ¬ List.Forall₂ Argument.SharesGuard [{ type := "string", name := "s" }]
      [{ type := "size_t", name := "n" }] := by
    intro shared
    cases shared with
    | cons first _ =>
        cases first with
        | type same _ => exact absurd same (by decide)
        | numeric whole _ => exact absurd whole (by decide)
        | double passed _ => exact absurd passed (by decide)
        | joined upper _ _ => exact absurd (by decide : "string" ∈ reservedWords) upper.2
  exact ⟨_, read, _, List.mem_singleton.mpr rfl, proxy, made, _, _, _, rfl, rfl, rfl,
    names.mpr letters, files.mpr letters, conditions.mpr guards⟩

/-- Constructors of different arguments may have one name, and others that have different names may
be taken under one condition. -/
theorem Interface.overloads_coincide :
    Interface.ofText "m" false "class A { A(string s); A(size_t n); A(int i); };" =
      .ok { name := "m", classes := [Class.withOverloads] } ∧
    (∃ ctor ∈ Class.withOverloads.constructors, ∃ other ∈ Class.withOverloads.constructors,
      (ctor.args.map fun arg => (arg.namespaces, arg.type)) ≠
        (other.args.map fun arg => (arg.namespaces, arg.type)) ∧
      Class.withOverloads.constructorName? ctor = Class.withOverloads.constructorName? other) ∧
    ∃ ctor ∈ Class.withOverloads.constructors, ∃ other ∈ Class.withOverloads.constructors,
      (ctor.args.map fun arg => (arg.namespaces, arg.type)) ≠
        (other.args.map fun arg => (arg.namespaces, arg.type)) ∧
      ctor.guards = other.guards := by
  decide +kernel

end MexGlue
