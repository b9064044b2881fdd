import MexGlue.Proofs.Dependency.Verification
import MexGlue.Proofs.Renaming.Meaning

/-!
# Renamed references

Renaming moves no reference to another place, and a renamed reference finds its type exactly if it
did before: built-in types keep their names, and the paths of two classes stay different. So the same
place of an interface is refused, under the renamed type and member.
-/

namespace MexGlue

section References

variable (f : String → String)

def TypeReference.mapNames (reference : TypeReference) : TypeReference :=
  ⟨reference.namespaces.map f, f reference.name, f reference.member⟩

theorem ReturnSlot.reference?_mapNames (member : String) (slot : ReturnSlot) :
    (slot.mapNames f).reference? (f member) =
      (slot.reference? member).map (TypeReference.mapNames f) := by
  by_cases isClass : slot.category = some .classType
  · simp [reference?, mapNames, isClass, TypeReference.mapNames]
  · simp [reference?, mapNames, isClass]

theorem ReturnValue.slots_mapNames (value : ReturnValue) :
    (value.mapNames f).slots = value.slots.map (ReturnSlot.mapNames f) := by
  obtain ⟨first, second⟩ := value
  cases second <;> rfl

theorem map_reference_mapNames (member : String) (args : List Argument) :
    (args.map (Argument.mapNames f)).map (fun arg => some (arg.reference (f member))) =
      (args.map fun arg => some (arg.reference member)).map
        (Option.map (TypeReference.mapNames f)) := by
  rw [List.map_map, List.map_map]
  rfl

theorem map_reference?_mapNames (member : String) (value : ReturnValue) :
    (value.mapNames f).slots.map (ReturnSlot.reference? (f member)) =
      (value.slots.map (ReturnSlot.reference? member)).map
        (Option.map (TypeReference.mapNames f)) := by
  rw [ReturnValue.slots_mapNames, List.map_map, List.map_map]
  exact List.map_congr_left fun slot _ => slot.reference?_mapNames f member

theorem Class.references_mapNames (cls : Class) (group : ReferenceGroup) :
    (cls.mapNames f).references group =
      (cls.references group).map (List.map (Option.map (TypeReference.mapNames f))) := by
  cases group <;> simp only [references, mapNames, List.map_map] <;>
    refine List.map_congr_left fun member _ => ?_
  · exact map_reference_mapNames f member.name member.args
  · exact map_reference_mapNames f member.name member.args
  · exact map_reference_mapNames f member.name member.args
  · exact map_reference?_mapNames f member.name member.returnValue
  · exact map_reference?_mapNames f member.name member.returnValue

/-- What stands at a place is renamed where it stands. -/
theorem Interface.reference?_mapNames (interface : Interface) (place : ReferencePlace) :
    (interface.mapNames f).reference? place =
      (interface.reference? place).map (TypeReference.mapNames f) := by
  simp only [reference?, mapNames, List.getElem?_map, bind]
  cases interface.classes[place.cls]? with
  | none => rfl
  | some cls =>
      simp only [Option.map_some, Option.bind_some, Class.references_mapNames, List.getElem?_map]
      cases (cls.references place.group)[place.member]? with
      | none => rfl
      | some items =>
          simp only [Option.map_some, Option.bind_some, List.getElem?_map]
          cases items[place.item]? <;> rfl

end References

section Verification

variable (r : Renaming) {interface : Interface}

/-! ## Finding types -/

theorem Renaming.map_apply_inj {names others : List String}
    (same : names.map r.apply = others.map r.apply) : names = others :=
  List.map_injective_iff.mpr (fun _ _ => r.apply_injective) same

/-- A word is renamed to one that keeps its name only if it is that word. -/
theorem Renaming.apply_eq_iff {name fixed : String} (keeps : r.apply fixed = fixed) :
    fixed = r.apply name ↔ fixed = name := by
  constructor
  · intro same
    rw [← keeps] at same
    exact r.apply_injective same
  · intro same
    rw [← same, keeps]

theorem isBuiltIn_mapNames {namespaces : List String} {name : String} :
    IsBuiltIn (namespaces.map r.apply) (r.apply name) ↔ IsBuiltIn namespaces name := by
  simp only [IsBuiltIn, NamesType, List.map_eq_nil_iff, r.apply_eq_iff (r.apply_basis _),
    r.apply_eq_iff (r.apply_container _)]

theorem Interface.declares_mapNames {namespaces : List String} {name : String} :
    (interface.mapNames r.apply).Declares (namespaces.map r.apply) (r.apply name) ↔
      interface.Declares namespaces name := by
  simp only [Declares, mapNames, List.mem_map]
  constructor
  · intro h
    obtain ⟨_, ⟨cls, member, rfl⟩, outer, named⟩ := h
    exact ⟨cls, member, r.map_apply_inj outer, r.apply_injective named⟩
  · intro h
    obtain ⟨cls, member, rfl, rfl⟩ := h
    exact ⟨_, ⟨cls, member, rfl⟩, rfl, rfl⟩

/-! ## Verifying -/

namespace Interface

variable (wellFormed : interface.WellFormed)
  (wellFormedMapped : (interface.mapNames r.apply).WellFormed)

include wellFormed wellFormedMapped

theorem mem_knownTypes_mapNames {place : ReferencePlace} {reference : TypeReference}
    (found : interface.reference? place = some reference) :
    (reference.mapNames r.apply).use.typeName ∈ (interface.mapNames r.apply).knownTypes ↔
      reference.use.typeName ∈ interface.knownTypes := by
  have foundMapped := interface.reference?_mapNames r.apply place
  rw [found] at foundMapped
  have words := (wellFormed.reference found).words
  have wordsMapped := (wellFormedMapped.reference foundMapped).words
  rw [TypeReference.use, TypeReference.use, mem_knownTypes_iff wellFormed words,
    mem_knownTypes_iff wellFormedMapped wordsMapped]
  exact or_congr (isBuiltIn_mapNames r) (declares_mapNames r)

theorem verify_mapNames_eq_ok_iff :
    (interface.mapNames r.apply).verify = .ok () ↔ interface.verify = .ok () := by
  rw [verify_eq_ok_iff, verify_eq_ok_iff]
  refine forall_congr' fun place => ?_
  rw [reference?_mapNames]
  cases found : interface.reference? place with
  | none => simp
  | some reference => simp [mem_knownTypes_mapNames r wellFormed wellFormedMapped found]

/-- The first reference that finds no type is the renamed one. -/
theorem verify_mapNames_eq_error {use : TypeUse} (h : interface.verify = .error use) :
    ∃ place reference, interface.reference? place = some reference ∧ reference.use = use ∧
      (interface.mapNames r.apply).verify = .error (reference.mapNames r.apply).use := by
  have known {place : ReferencePlace} {reference : TypeReference}
      (found : interface.reference? place = some reference) :=
    mem_knownTypes_mapNames r wellFormed wellFormedMapped found
  obtain ⟨place, ⟨reference, found, rfl⟩, unknown, first⟩ := verify_eq_error_iff.mp h
  have foundMapped := interface.reference?_mapNames r.apply place
  rw [found] at foundMapped
  refine ⟨place, reference, found, rfl, verify_eq_error_iff.mpr
    ⟨place, ⟨_, foundMapped, rfl⟩, ?_, ?_⟩⟩
  · simpa [known found] using unknown
  · intro earlier other before foundOther
    rw [reference?_mapNames] at foundOther
    obtain ⟨original, foundOriginal, rfl⟩ := Option.map_eq_some_iff.mp foundOther
    simpa [known foundOriginal] using first earlier original before foundOriginal

end Interface

end Verification

end MexGlue
