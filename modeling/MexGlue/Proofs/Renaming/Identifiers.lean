import Mathlib.Logic.Equiv.Basic
import MexGlue.Proofs.Model.WellFormed

/-!
# Renamings of identifiers

A renaming gives every identifier another one that starts with a letter of the same kind and is not
reserved, and no two identifiers the same. Applied to the names of a text it leaves all other words
alone, the reserved ones among them, and so it is injective on everything.
-/

namespace MexGlue

/-! ## Deciding what an identifier is -/

theorem isWord_cons_iff {starts : Char → Bool} {first : Char} {rest : List Char} :
    IsWord starts (first :: rest) ↔
      starts first = true ∧ rest.all Pattern.isWordChar = true := by
  rw [List.all_eq_true]
  constructor
  · intro h
    obtain ⟨_, _, same, start, word⟩ := h
    cases same
    exact ⟨start, word⟩
  · intro h
    exact ⟨first, rest, rfl, h⟩

instance (starts : Char → Bool) : (text : List Char) → Decidable (IsWord starts text)
  | [] => isFalse fun h => h.ne_nil rfl
  | _ :: _ => decidable_of_iff _ isWord_cons_iff.symm

instance (name : String) : Decidable (IsLowerName name) :=
  inferInstanceAs (Decidable (_ ∧ _))

instance (name : String) : Decidable (IsUpperName name) :=
  inferInstanceAs (Decidable (_ ∧ _))

instance (name : String) : Decidable (IsName name) :=
  inferInstanceAs (Decidable (_ ∨ _))

/-- An injective renaming of identifiers that keeps names apart from the reserved words. -/
structure Renaming where
  map : String → String
  lower : ∀ name, IsLowerName name → IsLowerName (map name)
  upper : ∀ name, IsUpperName name → IsUpperName (map name)
  injective : ∀ name other, IsName name → IsName other → map name = map other → name = other

namespace Renaming

variable (r : Renaming) {name : String}

/-- The word that stands in the renamed text for this one. -/
def apply (name : String) : String := if IsName name then r.map name else name

theorem isLowerName_apply (h : IsLowerName name) : IsLowerName (r.apply name) := by
  rw [apply, if_pos (.inl h)]
  exact r.lower name h

theorem isUpperName_apply (h : IsUpperName name) : IsUpperName (r.apply name) := by
  rw [apply, if_pos (.inr h)]
  exact r.upper name h

theorem isName_apply_iff : IsName (r.apply name) ↔ IsName name := by
  by_cases h : IsName name
  · refine ⟨fun _ => h, fun _ => ?_⟩
    exact h.imp r.isLowerName_apply r.isUpperName_apply
  · rw [apply, if_neg h]

theorem apply_of_mem_reservedWords (h : name ∈ reservedWords) : r.apply name = name := by
  have notName : ¬ IsName name := by
    intro isName
    rcases isName with lower | upper
    · exact lower.2 h
    · exact upper.2 h
  exact if_neg notName

/-- No two words become the same, whether they are identifiers or not. -/
theorem apply_injective {other : String} (same : r.apply name = r.apply other) : name = other := by
  by_cases h : IsName name
  · have isName : IsName other := by
      rw [← r.isName_apply_iff, ← same, r.isName_apply_iff]
      exact h
    rw [apply, apply, if_pos h, if_pos isName] at same
    exact r.injective name other h isName same
  · have notName : ¬ IsName other := by
      rwa [← r.isName_apply_iff, ← same, r.isName_apply_iff]
    rwa [apply, apply, if_neg h, if_neg notName] at same

theorem not_isLowerName_of_isUpperName (h : IsUpperName name) : ¬ IsLowerName name := by
  intro lower
  obtain ⟨⟨first, rest, spelled, isUpper, -⟩, -⟩ := h
  obtain ⟨⟨first', rest', spelled', isLower, -⟩, -⟩ := lower
  rw [spelled] at spelled'
  cases spelled'
  rw [Pattern.not_isLower_of_isUpper isUpper] at isLower
  cases isLower

/-- Two class names, exchanged. -/
def exchange {name other : String} (h : IsUpperName name) (h' : IsUpperName other) : Renaming where
  map := Equiv.swap name other
  lower word isName := by
    have notName : word ≠ name := fun same => not_isLowerName_of_isUpperName h (same ▸ isName)
    have notOther : word ≠ other := fun same => not_isLowerName_of_isUpperName h' (same ▸ isName)
    rwa [Equiv.swap_apply_of_ne_of_ne notName notOther]
  upper word isName := by
    rw [Equiv.swap_apply_def]
    split_ifs <;> assumption
  injective _ _ _ _ same := (Equiv.swap name other).injective same

end Renaming

end MexGlue
