import MexGlue.Proofs.Model.Printing
import MexGlue.Proofs.OfText.Stages

/-!
# What texts can say

The interfaces that are read from texts are exactly the well-formed ones. Each has a text of its
own, the spelling of the declarations that are written for it.
-/

namespace MexGlue

theorem Declarations.ofText_spellAll {decls : Declarations} (h : WellFormedTokens decls.tokens) :
    ofText (Token.spellAll decls.tokens) = .ok decls := by
  obtain ⟨spelled, complete⟩ := Token.ofText_spellAll h
  exact ofText_eq_ok_iff_tiling.mpr ⟨spelled.symm, complete⟩

theorem Declarations.wellFormedTokens_of_ofText {text : List Char} {decls : Declarations}
    (h : ofText text = .ok decls) : WellFormedTokens decls.tokens := by
  obtain ⟨pieces, laid, tokens⟩ := ofText_eq_ok_iff.mp h
  rw [tokens]
  exact laid.wellFormedTokens

namespace Interface

/-- A text for the interface. -/
def text (interface : Interface) : String :=
  String.ofList (Token.spellAll (Declarations.putAll .empty interface.classes).tokens)

/-- A well-formed interface is read again from its text. -/
theorem ofText_text {interface : Interface} (h : interface.WellFormed) :
    ofText interface.name interface.verbose interface.text = .ok interface := by
  have nothing : Declarations.empty.classesFrom 0 = .ok [] := rfl
  have meant := Declarations.classesFrom_putAll nothing h
  have plain : WellFormedTokens Declarations.empty.tokens := wellFormedTokens_nil
  have written := Declarations.ofText_spellAll (Declarations.wellFormedTokens_putAll plain h)
  refine ofText_eq_ok_iff.mpr ⟨interface.classes, ?_, rfl⟩
  rw [text, String.toList_ofList]
  exact Class.listOfText_eq_ok_iff.mpr ⟨_, written, meant⟩

/-- Everything that is read from a text is well-formed. -/
theorem wellFormed_of_ofText {name : String} {verbose : Bool} {text : String}
    {interface : Interface} (h : ofText name verbose text = .ok interface) :
    interface.WellFormed := by
  obtain ⟨classes, listed, same⟩ := ofText_eq_ok_iff.mp h
  obtain ⟨decls, written, meant⟩ := Class.listOfText_eq_ok_iff.mp listed
  subst same
  exact Declarations.wellFormed_of_classesFrom (Declarations.wellFormedTokens_of_ofText written)
    meant

/-- The interfaces that texts say are the well-formed ones. -/
theorem exists_ofText_eq_ok_iff (interface : Interface) :
    (∃ name verbose text, ofText name verbose text = .ok interface) ↔ interface.WellFormed := by
  constructor
  · intro h
    rcases h with ⟨name, verbose, text, read⟩
    exact wellFormed_of_ofText read
  · intro wellFormed
    exact ⟨interface.name, interface.verbose, interface.text, ofText_text wellFormed⟩

end Interface

end MexGlue
