import MexGlue.Proofs.Dependency.Reference
import MexGlue.Proofs.OfText.Image

/-!
# Which interfaces are accepted

An interface is accepted if each of its references finds its type: an argument's among the built-in
types and the classes, a returned class's among the classes. Paths are compared part by part.
Otherwise the reference at the first place that finds nothing is the one reported.
-/

namespace MexGlue

/-- Whether an argument of this kind may be of a built-in type. A returned value that is checked is
always a class. -/
def ReferenceGroup.admitsBuiltIn : ReferenceGroup → Bool
  | .constructorArguments => true
  | .staticArguments => true
  | .methodArguments => true
  | .staticReturns => false
  | .methodReturns => false

namespace Interface

/-- Whether a reference finds its type. -/
def Resolves (interface : Interface) (group : ReferenceGroup) (reference : TypeReference) : Prop :=
  (group.admitsBuiltIn = true ∧ IsBuiltIn reference.namespaces reference.name) ∨
    interface.Declares reference.namespaces reference.name

def ResolvesArgument (interface : Interface) (arg : Argument) : Prop :=
  IsBuiltIn arg.namespaces arg.type ∨ interface.Declares arg.namespaces arg.type

def ResolvesReturn (interface : Interface) (value : ReturnValue) : Prop :=
  ∀ slot ∈ value.slots, slot.category = some .classType →
    interface.Declares slot.namespaces slot.type

/-- Whether all types that a class uses are there. -/
structure ResolvesClass (interface : Interface) (cls : Class) : Prop where
  constructorArguments : ∀ ctor ∈ cls.constructors, ∀ arg ∈ ctor.args,
    interface.ResolvesArgument arg
  staticArguments : ∀ method ∈ cls.staticMethods, ∀ arg ∈ method.args,
    interface.ResolvesArgument arg
  methodArguments : ∀ method ∈ cls.methods, ∀ arg ∈ method.args, interface.ResolvesArgument arg
  staticReturns : ∀ method ∈ cls.staticMethods, interface.ResolvesReturn method.returnValue
  methodReturns : ∀ method ∈ cls.methods, interface.ResolvesReturn method.returnValue

end Interface

/-! ## Well-formed references -/

/-- A reference of a well-formed class: its path consists of words, and a returned class has the
name of a class. -/
structure TypeReference.WellFormed (group : ReferenceGroup) (reference : TypeReference) : Prop where
  words : ∀ part ∈ reference.namespaces ++ [reference.name], HoldsWordChars part
  className : group.admitsBuiltIn = false → IsUpperName reference.name

theorem Argument.WellFormed.holdsWordChars {arg : Argument} (h : arg.WellFormed) :
    ∀ part ∈ arg.namespaces ++ [arg.type], HoldsWordChars part := by
  obtain ⟨shape, found, -⟩ := h.shape
  have lower : ∀ name ∈ arg.namespaces, IsLowerName name := by
    cases shape with
    | basisValue => simp [found.2.2.2.2]
    | containerValue => simp [found.2.2.2]
    | containerReference => simp [found.2.2.2]
    | classReference => exact found.2.2.2
    | classPointer => exact found.2.2.2.2
  intro part member
  rcases List.mem_append.mp member with inNamespaces | last
  · exact (lower part inNamespaces).holdsWordChars
  · rw [List.mem_singleton.mp last]
    exact found.category.holdsWordChars

theorem ReturnSlot.WellFormed.isUpperName {slot : ReturnSlot} (h : slot.WellFormed)
    (isClass : slot.category = some .classType) : IsUpperName slot.type :=
  (h.category_iff .classType).mp isClass

theorem ReturnSlot.WellFormed.holdsWordChars {slot : ReturnSlot} (h : slot.WellFormed)
    (isClass : slot.category = some .classType) :
    ∀ part ∈ slot.namespaces ++ [slot.type], HoldsWordChars part := by
  intro part member
  rcases List.mem_append.mp member with inNamespaces | last
  · exact (h.namespaces part inNamespaces).holdsWordChars
  · rw [List.mem_singleton.mp last]
    exact (h.isUpperName isClass).holdsWordChars

theorem ReturnValue.WellFormed.slot {value : ReturnValue} (h : value.WellFormed)
    {slot : ReturnSlot} (member : slot ∈ value.slots)
    (isClass : slot.category = some .classType) : slot.WellFormed := by
  rcases h with rfl | slots
  · cases List.mem_singleton.mp member
    cases isClass
  · exact slots slot member

theorem ReturnSlot.reference?_eq_some_iff {member : String} {slot : ReturnSlot}
    {reference : TypeReference} : slot.reference? member = some reference ↔
      slot.category = some .classType ∧ ⟨slot.namespaces, slot.type, member⟩ = reference := by
  simp [reference?]

section Groups

variable {cls : Class} {reference : TypeReference}

theorem mem_arguments_iff {args : List Argument} {member : String} :
    some reference ∈ (args.map fun arg => some (arg.reference member)) ↔
      ∃ arg ∈ args, arg.reference member = reference := by
  simp

theorem mem_slots_iff {value : ReturnValue} {member : String} :
    some reference ∈ value.slots.map (ReturnSlot.reference? member) ↔
      ∃ slot ∈ value.slots, slot.category = some .classType ∧
        ⟨slot.namespaces, slot.type, member⟩ = reference := by
  simp [ReturnSlot.reference?_eq_some_iff]

theorem TypeReference.wellFormed_of_argument {args : List Argument} {member : String}
    {group : ReferenceGroup} (h : ∀ arg ∈ args, arg.WellFormed)
    (admits : group.admitsBuiltIn = true)
    (found : some reference ∈ (args.map fun arg => some (arg.reference member))) :
    reference.WellFormed group := by
  obtain ⟨arg, inArgs, rfl⟩ := mem_arguments_iff.mp found
  refine ⟨(h arg inArgs).holdsWordChars, fun refuses => ?_⟩
  rw [admits] at refuses
  cases refuses

theorem TypeReference.wellFormed_of_slot {value : ReturnValue} {member : String}
    {group : ReferenceGroup} (h : value.WellFormed)
    (found : some reference ∈ value.slots.map (ReturnSlot.reference? member)) :
    reference.WellFormed group := by
  obtain ⟨slot, inSlots, isClass, rfl⟩ := mem_slots_iff.mp found
  have slotWellFormed := h.slot inSlots isClass
  exact ⟨slotWellFormed.holdsWordChars isClass, fun _ => slotWellFormed.isUpperName isClass⟩

theorem Class.WellFormed.references (h : cls.WellFormed) {group : ReferenceGroup}
    {items : List (Option TypeReference)} (inGroup : items ∈ cls.references group)
    (found : some reference ∈ items) : reference.WellFormed group := by
  cases group with
  | constructorArguments =>
      obtain ⟨ctor, member, rfl⟩ := List.mem_map.mp inGroup
      exact TypeReference.wellFormed_of_argument (h.constructors ctor member).2 rfl found
  | staticArguments =>
      obtain ⟨method, member, rfl⟩ := List.mem_map.mp inGroup
      exact TypeReference.wellFormed_of_argument (h.staticMethods method member).2.1 rfl found
  | methodArguments =>
      obtain ⟨method, member, rfl⟩ := List.mem_map.mp inGroup
      exact TypeReference.wellFormed_of_argument (h.methods method member).2.1 rfl found
  | staticReturns =>
      obtain ⟨method, member, rfl⟩ := List.mem_map.mp inGroup
      exact TypeReference.wellFormed_of_slot (h.staticMethods method member).2.2 found
  | methodReturns =>
      obtain ⟨method, member, rfl⟩ := List.mem_map.mp inGroup
      exact TypeReference.wellFormed_of_slot (h.methods method member).2.2 found

end Groups

namespace Interface

variable {interface : Interface}

theorem WellFormed.reference {place : ReferencePlace} {reference : TypeReference}
    (h : interface.WellFormed) (found : interface.reference? place = some reference) :
    reference.WellFormed place.group := by
  obtain ⟨cls, atClass, items, atMember, atItem⟩ := reference?_eq_some_iff.mp found
  exact (h cls (List.mem_of_getElem? atClass)).references (List.mem_of_getElem? atMember)
    (List.mem_of_getElem? atItem)

/-- To look up the joined name of a reference is to look for its type. -/
theorem mem_knownTypes_iff_resolves {group : ReferenceGroup} {reference : TypeReference}
    (h : interface.WellFormed) (wellFormed : reference.WellFormed group) :
    reference.use.typeName ∈ interface.knownTypes ↔ interface.Resolves group reference := by
  rw [TypeReference.use, mem_knownTypes_iff h wellFormed.words]
  cases admits : group.admitsBuiltIn with
  | true => simp [Resolves, admits]
  | false =>
      have className : NamesType reference.name .classType := wellFormed.className admits
      have notBuiltIn : ¬ IsBuiltIn reference.namespaces reference.name := by
        intro builtIn
        rcases builtIn.2 with basis | container
        · cases basis.unique className
        · cases container.unique className
      simp [Resolves, admits, notBuiltIn]

theorem resolves_arguments_iff {group : ReferenceGroup} (admits : group.admitsBuiltIn = true)
    {args : List Argument} {member : String} :
    (∀ reference, some reference ∈ (args.map fun arg => some (arg.reference member)) →
      interface.Resolves group reference) ↔ ∀ arg ∈ args, interface.ResolvesArgument arg := by
  simp only [mem_arguments_iff, Resolves, admits, true_and]
  constructor
  · intro h arg inArgs
    exact h _ ⟨arg, inArgs, rfl⟩
  · intro h reference found
    obtain ⟨arg, inArgs, rfl⟩ := found
    exact h arg inArgs

theorem resolves_slots_iff {group : ReferenceGroup} (admits : group.admitsBuiltIn = false)
    {value : ReturnValue} {member : String} :
    (∀ reference, some reference ∈ value.slots.map (ReturnSlot.reference? member) →
      interface.Resolves group reference) ↔ interface.ResolvesReturn value := by
  simp only [mem_slots_iff, Resolves, admits, Bool.false_eq_true, false_and, false_or]
  constructor
  · intro h slot inSlots isClass
    exact h _ ⟨slot, inSlots, isClass, rfl⟩
  · intro h reference found
    obtain ⟨slot, inSlots, isClass, rfl⟩ := found
    exact h slot inSlots isClass

/-- All types that a class uses are there if each of its references finds its own. -/
theorem resolvesClass_iff {cls : Class} : interface.ResolvesClass cls ↔
    ∀ group, ∀ items ∈ cls.references group, ∀ reference, some reference ∈ items →
      interface.Resolves group reference := by
  constructor
  · intro h group
    cases group with
    | constructorArguments =>
        exact List.forall_mem_map.mpr fun ctor member =>
          (resolves_arguments_iff rfl).mpr (h.constructorArguments ctor member)
    | staticArguments =>
        exact List.forall_mem_map.mpr fun method member =>
          (resolves_arguments_iff rfl).mpr (h.staticArguments method member)
    | methodArguments =>
        exact List.forall_mem_map.mpr fun method member =>
          (resolves_arguments_iff rfl).mpr (h.methodArguments method member)
    | staticReturns =>
        exact List.forall_mem_map.mpr fun method member =>
          (resolves_slots_iff rfl).mpr (h.staticReturns method member)
    | methodReturns =>
        exact List.forall_mem_map.mpr fun method member =>
          (resolves_slots_iff rfl).mpr (h.methodReturns method member)
  · intro h
    constructor
    · intro ctor member
      exact (resolves_arguments_iff rfl).mp
        (List.forall_mem_map.mp (h .constructorArguments) ctor member)
    · intro method member
      exact (resolves_arguments_iff rfl).mp
        (List.forall_mem_map.mp (h .staticArguments) method member)
    · intro method member
      exact (resolves_arguments_iff rfl).mp
        (List.forall_mem_map.mp (h .methodArguments) method member)
    · intro method member
      exact (resolves_slots_iff rfl).mp (List.forall_mem_map.mp (h .staticReturns) method member)
    · intro method member
      exact (resolves_slots_iff rfl).mp (List.forall_mem_map.mp (h .methodReturns) method member)

/-- All references of an interface find their types if those of every class do. -/
theorem forall_resolves_iff : (∀ place reference, interface.reference? place = some reference →
      interface.Resolves place.group reference) ↔
    ∀ cls ∈ interface.classes, interface.ResolvesClass cls := by
  simp only [resolvesClass_iff]
  constructor
  · intro h cls inClasses group items inGroup reference inItems
    obtain ⟨i, atClass⟩ := List.getElem?_of_mem inClasses
    obtain ⟨j, atMember⟩ := List.getElem?_of_mem inGroup
    obtain ⟨k, atItem⟩ := List.getElem?_of_mem inItems
    exact h ⟨i, group, j, k⟩ reference
      (reference?_eq_some_iff.mpr ⟨cls, atClass, items, atMember, atItem⟩)
  · intro h place reference found
    obtain ⟨cls, atClass, items, atMember, atItem⟩ := reference?_eq_some_iff.mp found
    exact h cls (List.mem_of_getElem? atClass) place.group items (List.mem_of_getElem? atMember)
      reference (List.mem_of_getElem? atItem)

/-! ## Verification -/

theorem verify_eq_error_iff {use : TypeUse} : interface.verify = .error use ↔
    ∃ place, interface.FirstUse (fun use => !interface.knownTypes.contains use.typeName) use
      place := by
  rw [← find?_typeUses_eq_some_iff, verify, TypeUse.check]
  cases (interface.classes.flatMap Class.typeUses).find? _ <;> simp

theorem verify_eq_ok_iff : interface.verify = .ok () ↔
    ∀ place reference, interface.reference? place = some reference →
      reference.use.typeName ∈ interface.knownTypes := by
  have unchecked : interface.verify = .ok () ↔
      ∀ use ∈ interface.classes.flatMap Class.typeUses, use.typeName ∈ interface.knownTypes := by
    rw [verify, TypeUse.check]
    cases found : (interface.classes.flatMap Class.typeUses).find? _ with
    | none => simpa using List.find?_eq_none.mp found
    | some use =>
        have unknown := List.find?_some found
        have member := List.mem_of_find?_eq_some found
        simp only [reduceCtorEq, false_iff]
        intro known
        simp [known use member] at unknown
  rw [unchecked]
  constructor
  · intro h place reference found
    exact h _ (mem_typeUses_iff.mpr ⟨place, reference, found, rfl⟩)
  · intro h use member
    obtain ⟨place, reference, found, rfl⟩ := mem_typeUses_iff.mp member
    exact h place reference found

/-- An interface that was read is accepted exactly if all types that its classes use are there, and
otherwise the first reference that does not find its type is reported, with its joined name and its
member. Comparing joined names is the same as comparing paths. -/
theorem verify_exact {name text : String} {verbose : Bool}
    (read : ofText name verbose text = .ok interface) :
    (interface.verify = .ok () ↔ ∀ cls ∈ interface.classes, interface.ResolvesClass cls) ∧
    (∀ use, interface.verify = .error use ↔ ∃ place reference,
      interface.reference? place = some reference ∧
      ¬ interface.Resolves place.group reference ∧
      use = ⟨qualify "::" reference.namespaces reference.name, reference.member⟩ ∧
      ∀ earlier other, earlier.Before place → interface.reference? earlier = some other →
        interface.Resolves earlier.group other) ∧
    (∀ place reference, interface.reference? place = some reference →
      (∀ cls ∈ interface.classes,
        qualify "::" reference.namespaces reference.name = cls.cppName ↔
          reference.namespaces = cls.namespaces ∧ reference.name = cls.name) ∧
      ∀ builtIn ∈ builtInTypes,
        qualify "::" reference.namespaces reference.name = builtIn ↔
          reference.namespaces = [] ∧ reference.name = builtIn) := by
  have wellFormed := wellFormed_of_ofText read
  have known {place : ReferencePlace} {reference : TypeReference}
      (found : interface.reference? place = some reference) :=
    mem_knownTypes_iff_resolves wellFormed (wellFormed.reference found)
  refine ⟨?_, ?_, ?_⟩
  · rw [verify_eq_ok_iff, ← forall_resolves_iff]
    exact forall₃_congr fun place reference found => known found
  · intro use
    rw [verify_eq_error_iff]
    constructor
    · intro h
      obtain ⟨place, ⟨reference, found, rfl⟩, unknown, first⟩ := h
      refine ⟨place, reference, found, ?_, rfl, fun earlier other before foundOther => ?_⟩
      · rw [← known found]
        simpa using unknown
      · rw [← known foundOther]
        simpa using first earlier other before foundOther
    · intro h
      obtain ⟨place, reference, found, lost, rfl, first⟩ := h
      refine ⟨place, ⟨reference, found, rfl⟩, ?_, fun earlier other before foundOther => ?_⟩
      · rw [← known found] at lost
        simpa [TypeReference.use] using lost
      · have there := (known foundOther).mpr (first earlier other before foundOther)
        simpa using there
  · intro place reference found
    have words := (wellFormed.reference found).words
    exact ⟨fun cls member => qualify_eq_cppName_iff words (wellFormed cls member),
      fun builtIn member => qualify_eq_builtIn_iff words member⟩

/-- A class declared further down is found, and one of the same name in a namespace is not. -/
theorem verify_exact_otherNamespace : ∃ interface,
    ofText "" false "class A { void f(B* b); A(const B& b, const geo::B& c); }; class B { };" =
      .ok interface ∧
    interface.verify = .error ⟨"geo::B", "A"⟩ ∧
    ¬ ∀ cls ∈ interface.classes, interface.ResolvesClass cls := by
  have read : ofText "" false
      "class A { void f(B* b); A(const B& b, const geo::B& c); }; class B { };" =
    .ok { classes := [
      { name := "A"
        constructors := [⟨"A", [
          { type := "B", name := "b", isConst := true, isReference := true },
          { type := "B", name := "c", isConst := true, isReference := true,
            namespaces := ["geo"] }]⟩]
        methods := [{ name := "f", args := [{ type := "B", name := "b", isPointer := true }] }] },
      { name := "B" }] } := by decide +kernel
  refine ⟨_, read, by decide +kernel, fun resolves => ?_⟩
  have accepted := (verify_exact read).1.mpr resolves
  revert accepted
  decide +kernel

end Interface

end MexGlue
