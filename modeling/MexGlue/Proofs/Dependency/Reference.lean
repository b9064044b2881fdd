import MexGlue.Proofs.Dependency.Qualified

/-!
# References to types

Every use of a type has a place: the class, the group of its members' uses, the member and the item,
which is an argument or a returned slot. Places are read in the order of a book, and the use that is
refused is the one at the first place with a type that is not known.
-/

namespace MexGlue

/-- A use of a type by a member, with the type's path as it is written. -/
structure TypeReference where
  namespaces : List String
  name : String
  member : String
  deriving DecidableEq, Repr

/-- What is reported of a reference: the joined name of its type, and its member. -/
def TypeReference.use (reference : TypeReference) : TypeUse :=
  ⟨qualify "::" reference.namespaces reference.name, reference.member⟩

/-- The kinds of references of a class, in the order in which they are checked. -/
inductive ReferenceGroup where
  | constructorArguments | staticArguments | methodArguments | staticReturns | methodReturns
  deriving DecidableEq, Repr

namespace ReferenceGroup

def all : List ReferenceGroup :=
  [.constructorArguments, .staticArguments, .methodArguments, .staticReturns, .methodReturns]

def rank : ReferenceGroup → Nat
  | .constructorArguments => 0
  | .staticArguments => 1
  | .methodArguments => 2
  | .staticReturns => 3
  | .methodReturns => 4

theorem getElem?_all_iff {i : Nat} {group : ReferenceGroup} :
    all[i]? = some group ↔ i = group.rank := by
  constructor
  · intro h
    match i, h with
    | 0, h | 1, h | 2, h | 3, h | 4, h => cases h; rfl
  · intro h
    rw [h]
    cases group <;> rfl

theorem mem_all (group : ReferenceGroup) : group ∈ all :=
  List.mem_of_getElem? (getElem?_all_iff.mpr rfl)

theorem rank_injective {group other : ReferenceGroup} (h : group.rank = other.rank) :
    group = other := by
  cases group <;> cases other <;> first | rfl | cases h

end ReferenceGroup

def Argument.reference (member : String) (arg : Argument) : TypeReference :=
  ⟨arg.namespaces, arg.type, member⟩

/-- What a returned slot refers to, if it is a class. -/
def ReturnSlot.reference? (member : String) (slot : ReturnSlot) : Option TypeReference :=
  if slot.category = some .classType then some ⟨slot.namespaces, slot.type, member⟩ else none

/-- The items of a group, member by member, with what each of them refers to. -/
def Class.references (cls : Class) : ReferenceGroup → List (List (Option TypeReference))
  | .constructorArguments =>
      cls.constructors.map fun ctor => ctor.args.map fun arg => some (arg.reference ctor.name)
  | .staticArguments =>
      cls.staticMethods.map fun method =>
        method.args.map fun arg => some (arg.reference method.name)
  | .methodArguments =>
      cls.methods.map fun method => method.args.map fun arg => some (arg.reference method.name)
  | .staticReturns =>
      cls.staticMethods.map fun method =>
        method.returnValue.slots.map (ReturnSlot.reference? method.name)
  | .methodReturns =>
      cls.methods.map fun method => method.returnValue.slots.map (ReturnSlot.reference? method.name)

/-- Where an interface refers to a type. -/
structure ReferencePlace where
  /-- The number of the class. -/
  cls : Nat
  group : ReferenceGroup
  /-- The number of the member among those of its kind. -/
  member : Nat
  /-- The number of the argument or of the returned slot. -/
  item : Nat
  deriving DecidableEq, Repr

namespace ReferencePlace

/-- The order of checking: class by class, group by group, member by member, item by item. -/
def Before (place other : ReferencePlace) : Prop :=
  place.cls < other.cls ∨ place.cls = other.cls ∧
    (place.group.rank < other.group.rank ∨ place.group = other.group ∧
      (place.member < other.member ∨ place.member = other.member ∧ place.item < other.item))

/-- Of two places one is before the other. -/
theorem eq_or_before (place other : ReferencePlace) :
    place = other ∨ place.Before other ∨ other.Before place := by
  obtain ⟨cls, group, member, item⟩ := place
  obtain ⟨cls', group', member', item'⟩ := other
  simp only [Before, mk.injEq]
  rcases Nat.lt_trichotomy group.rank group'.rank with lower | same | higher
  · omega
  · cases ReferenceGroup.rank_injective same
    simp only [true_and]
    omega
  · omega

end ReferencePlace

def Interface.reference? (interface : Interface) (place : ReferencePlace) :
    Option TypeReference := do
  let cls ← interface.classes[place.cls]?
  let items ← (cls.references place.group)[place.member]?
  (items[place.item]?).join

theorem Interface.reference?_eq_some_iff {interface : Interface} {place : ReferencePlace}
    {reference : TypeReference} : interface.reference? place = some reference ↔
      ∃ cls, interface.classes[place.cls]? = some cls ∧
        ∃ items, (cls.references place.group)[place.member]? = some items ∧
          items[place.item]? = some (some reference) := by
  simp only [reference?, bind, Option.bind_eq_some_iff, Option.join_eq_some_iff]

/-! ## The uses of a class by their places -/

/-- The uses that an item of a group makes, which are one at most. -/
def TypeReference.useOf? (item : Option TypeReference) : Option TypeUse := item.map use

theorem TypeUse.ofArguments_eq_filterMap (member : String) (args : List Argument) :
    ofArguments member args =
      (args.map fun arg => some (arg.reference member)).filterMap TypeReference.useOf? := by
  rw [List.filterMap_map]
  exact (congrFun List.filterMap_eq_map args).symm

theorem TypeUse.ofReturnValue_eq_filterMap (member : String) (value : ReturnValue) :
    ofReturnValue member value =
      (value.slots.map (ReturnSlot.reference? member)).filterMap TypeReference.useOf? := by
  rw [List.filterMap_map, ofReturnValue]
  induction value.slots with
  | nil => rfl
  | cons slot slots ih =>
      by_cases isClass : slot.category = some .classType
      · simp [isClass, ReturnSlot.reference?, TypeReference.useOf?, TypeReference.use,
          ReturnSlot.qualifiedType, ← ih]
      · simp [isClass, ih, ReturnSlot.reference?, TypeReference.useOf?]

/-- A class's uses are those of its groups in order, member by member. -/
theorem Class.typeUses_eq_flatMap (cls : Class) :
    cls.typeUses = ReferenceGroup.all.flatMap fun group =>
      (cls.references group).flatMap (List.filterMap TypeReference.useOf?) := by
  simp only [typeUses, constructorArgumentUses, staticArgumentUses, methodArgumentUses,
    staticReturnUses, methodReturnUses, TypeUse.ofArguments_eq_filterMap,
    TypeUse.ofReturnValue_eq_filterMap, ReferenceGroup.all, List.flatMap_cons, List.flatMap_nil,
    references, List.flatMap_map, List.append_nil, List.append_assoc]

theorem Interface.mem_typeUses_iff {interface : Interface} {use : TypeUse} :
    use ∈ interface.classes.flatMap Class.typeUses ↔
      ∃ place reference, interface.reference? place = some reference ∧ reference.use = use := by
  simp only [Class.typeUses_eq_flatMap, List.mem_flatMap, List.mem_filterMap,
    TypeReference.useOf?, Option.map_eq_some_iff, reference?_eq_some_iff]
  constructor
  · intro h
    obtain ⟨cls, inClasses, group, -, items, inGroup, item, inItems, reference, rfl, same⟩ := h
    obtain ⟨i, at_i⟩ := List.getElem?_of_mem inClasses
    obtain ⟨j, at_j⟩ := List.getElem?_of_mem inGroup
    obtain ⟨k, at_k⟩ := List.getElem?_of_mem inItems
    exact ⟨⟨i, group, j, k⟩, reference, ⟨cls, at_i, items, at_j, at_k⟩, same⟩
  · intro h
    obtain ⟨place, reference, ⟨cls, atClass, items, atMember, atItem⟩, same⟩ := h
    exact ⟨cls, List.mem_of_getElem? atClass, place.group, place.group.mem_all, items,
      List.mem_of_getElem? atMember, some reference, List.mem_of_getElem? atItem, reference, rfl,
      same⟩

/-! ## The first use with a property -/

section First

variable {α β : Type}

/-- What a list finds first it finds at a place with none before it. -/
theorem exists_first_of_findSome? {xs : List α} {f : α → Option β} {b : β}
    (h : xs.findSome? f = some b) : ∃ (i : Nat) (x : α), xs[i]? = some x ∧ f x = some b ∧
      ∀ j < i, ∀ y, xs[j]? = some y → f y = none := by
  obtain ⟨front, x, back, rfl, found, before⟩ := List.findSome?_eq_some_iff.mp h
  refine ⟨front.length, x, by simp, found, fun j early y at_j => before y ?_⟩
  rw [List.getElem?_append_left early] at at_j
  exact List.mem_of_getElem? at_j

theorem find?_filterMap_eq_findSome? {xs : List α} {f : α → Option β} {p : β → Bool} :
    (xs.filterMap f).find? p = xs.findSome? fun x => (f x).filter p := by
  induction xs with
  | nil => rfl
  | cons x xs ih =>
      cases here : f x with
      | none => simp [here, ih]
      | some y => by_cases holds : p y = true <;> simp [here, holds, ih, Option.filter]

end First

namespace Interface

variable {interface : Interface} {p : TypeUse → Bool} {use : TypeUse} {place : ReferencePlace}

/-- Whether the use is made at this place, has the property, and is the first that has it. -/
structure FirstUse (interface : Interface) (p : TypeUse → Bool) (use : TypeUse)
    (place : ReferencePlace) : Prop where
  made : ∃ reference, interface.reference? place = some reference ∧ reference.use = use
  holds : p use = true
  first : ∀ earlier other, earlier.Before place → interface.reference? earlier = some other →
    p other.use = false

theorem FirstUse.unique {other : TypeUse} {otherPlace : ReferencePlace}
    (h : interface.FirstUse p use place) (h' : interface.FirstUse p other otherPlace) :
    use = other := by
  obtain ⟨reference, found, rfl⟩ := h.made
  obtain ⟨reference', found', rfl⟩ := h'.made
  rcases place.eq_or_before otherPlace with same | before | behind
  · rw [same, found'] at found
    rw [Option.some.inj found]
  · have absent := h'.first place reference before found
    rw [h.holds] at absent
    cases absent
  · have absent := h.first otherPlace reference' behind found'
    rw [h'.holds] at absent
    cases absent

theorem exists_firstUse_of_find?
    (h : (interface.classes.flatMap Class.typeUses).find? p = some use) :
    ∃ place, interface.FirstUse p use place := by
  simp only [Class.typeUses_eq_flatMap, List.find?_flatMap, find?_filterMap_eq_findSome?] at h
  obtain ⟨i, cls, atClass, inClass, beforeClass⟩ := exists_first_of_findSome? h
  obtain ⟨_, group, atGroup, inGroup, beforeGroup⟩ := exists_first_of_findSome? inClass
  obtain ⟨j, items, atMember, inMember, beforeMember⟩ := exists_first_of_findSome? inGroup
  obtain ⟨k, item, atItem, inItem, beforeItem⟩ := exists_first_of_findSome? inMember
  cases ReferenceGroup.getElem?_all_iff.mp atGroup
  obtain ⟨made, holds⟩ := Option.filter_eq_some_iff.mp inItem
  obtain ⟨reference, rfl, same⟩ := Option.map_eq_some_iff.mp made
  -- What a list does not find is at none of its places.
  have absent {other : TypeReference}
      (none_found : (TypeReference.useOf? (some other)).filter p = none) : p other.use = false := by
    simpa [TypeReference.useOf?, Option.filter] using none_found
  refine ⟨⟨i, group, j, k⟩, ⟨reference, ?_, same⟩, holds, fun earlier other before found => ?_⟩
  · exact reference?_eq_some_iff.mpr ⟨cls, atClass, items, atMember, atItem⟩
  · obtain ⟨cls', atClass', items', atMember', atItem'⟩ := reference?_eq_some_iff.mp found
    obtain ⟨i', group', j', k'⟩ := earlier
    dsimp only at atClass' atMember' atItem'
    have inItems' := List.mem_of_getElem? atItem'
    have inMembers' := List.mem_of_getElem? atMember'
    rcases before with early | ⟨rfl, early | ⟨rfl, early | ⟨rfl, early⟩⟩⟩
    · have noGroup := List.findSome?_eq_none_iff.mp (beforeClass i' early cls' atClass') group'
        group'.mem_all
      have noMember := List.findSome?_eq_none_iff.mp noGroup items' inMembers'
      exact absent (List.findSome?_eq_none_iff.mp noMember _ inItems')
    all_goals
      cases atClass.symm.trans atClass'
    · have noGroup := beforeGroup _ early group' (ReferenceGroup.getElem?_all_iff.mpr rfl)
      have noMember := List.findSome?_eq_none_iff.mp noGroup items' inMembers'
      exact absent (List.findSome?_eq_none_iff.mp noMember _ inItems')
    · have noMember := beforeMember j' early items' atMember'
      exact absent (List.findSome?_eq_none_iff.mp noMember _ inItems')
    · cases atMember.symm.trans atMember'
      exact absent (beforeItem k' early _ atItem')

/-- The use that is found first is the one at the first place that has the property. -/
theorem find?_typeUses_eq_some_iff :
    (interface.classes.flatMap Class.typeUses).find? p = some use ↔
      ∃ place, interface.FirstUse p use place := by
  constructor
  · exact exists_firstUse_of_find?
  · intro h
    obtain ⟨place, first⟩ := h
    have member : use ∈ interface.classes.flatMap Class.typeUses := by
      obtain ⟨reference, found, same⟩ := first.made
      exact mem_typeUses_iff.mpr ⟨place, reference, found, same⟩
    cases found : (interface.classes.flatMap Class.typeUses).find? p with
    | none => exact absurd first.holds (List.find?_eq_none.mp found use member)
    | some other =>
        obtain ⟨otherPlace, otherFirst⟩ := exists_firstUse_of_find? found
        rw [first.unique otherFirst]

end Interface

end MexGlue
