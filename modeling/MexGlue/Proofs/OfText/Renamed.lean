import MexGlue.Proofs.Renaming.Text
import MexGlue.Proofs.Renaming.Verification

/-!
# Renamed texts

No identifier is special. A text with its names replaced, and everything else left as it is, says the
renamed interface, which is verified like the original one; or it fails at the same token for the
same reason, in which the names are replaced.
-/

namespace MexGlue.Interface

/-- A renamed text says the renamed interface, of which the same reference is refused if any is, or
it fails at the token at which the original text fails. -/
theorem ofText_renamed (r : Renaming) (name : String) (verbose : Bool) {text : String}
    {pieces : List Piece} (laid : LaidOut text.toList pieces []) :
    (∃ interface, ofText name verbose text = .ok interface ∧
      ofText name verbose (String.ofList (Piece.textWithNames r.apply pieces)) =
        .ok (interface.mapNames r.apply) ∧
      ((interface.mapNames r.apply).verify = .ok () ↔ interface.verify = .ok ()) ∧
      ∀ use, interface.verify = .error use → ∃ place reference,
        interface.reference? place = some reference ∧ reference.use = use ∧
        (interface.mapNames r.apply).verify = .error (reference.mapNames r.apply).use) ∨
    ∃ fault : Fault, ofText name verbose text = .error (fault.failure text.toList) ∧
      ofText name verbose (String.ofList (Piece.textWithNames r.apply pieces)) =
        .error ((fault.mapNames r.apply).failure (Piece.textWithNames r.apply pieces)) ∧
      (fault.failure text.toList).StandsAt text.toList fault.token ∧
      ((fault.mapNames r.apply).failure (Piece.textWithNames r.apply pieces)).StandsAt
        (Piece.textWithNames r.apply pieces) fault.token := by
  have renamed := Tiling.classes_mapNames r laid
  cases meant : (Tiling.ofText text.toList).classes with
  | ok classes =>
      rw [meant] at renamed
      have read : ofText name verbose text = .ok ⟨name, verbose, classes⟩ := by
        rw [ofText_eq_classes, meant]
      have readRenamed :
          ofText name verbose (String.ofList (Piece.textWithNames r.apply pieces)) =
            .ok (mapNames r.apply ⟨name, verbose, classes⟩) := by
        rw [ofText_eq_classes, String.toList_ofList, renamed]
        rfl
      have wellFormed := wellFormed_of_ofText read
      have wellFormedMapped := wellFormed_of_ofText readRenamed
      exact .inl ⟨_, read, readRenamed, verify_mapNames_eq_ok_iff r wellFormed wellFormedMapped,
        fun use => verify_mapNames_eq_error r wellFormed wellFormedMapped⟩
  | error fault =>
      rw [meant] at renamed
      have rest : (Tiling.ofText text.toList).rest = [] := by rw [Tiling.laidOut_nil_iff.mp laid]
      have restRenamed : (Tiling.ofText (Piece.textWithNames r.apply pieces)).rest = [] := by
        rw [Tiling.laidOut_nil_iff.mp (laid.mapNames r)]
      refine .inr ⟨fault, ?_, ?_, Tiling.standsAt_of_fault rest meant, ?_⟩
      · rw [ofText_eq_classes, meant]
      · rw [ofText_eq_classes, String.toList_ofList, renamed]
        rfl
      · have stands := Tiling.standsAt_of_fault restRenamed renamed
        rwa [Fault.token_mapNames] at stands

theorem isUpperName_Vector2 : IsUpperName "Vector2" := by decide +kernel

/-- The class and the type of its constructor's argument exchange their names, of which one starts
with a reserved word. -/
theorem ofText_renamed_exchange : ∃ (r : Renaming) (pieces : List Piece) (interface : Interface),
    LaidOut "class A \x7b A(const Vector2& constant); \x7d;".toList pieces [] ∧
    Piece.textWithNames r.apply pieces =
      "class Vector2 \x7b Vector2(const A& constant); \x7d;".toList ∧
    ofText "" false (String.ofList (Piece.textWithNames r.apply pieces)) =
      .ok (interface.mapNames r.apply) ∧
    interface.verify = .error ⟨"Vector2", "A"⟩ ∧
    ∃ place reference, interface.reference? place = some reference ∧
      reference.use = ⟨"Vector2", "A"⟩ ∧
      (interface.mapNames r.apply).verify = .error (reference.mapNames r.apply).use := by
  let text := "class A \x7b A(const Vector2& constant); \x7d;"
  let arg : Argument :=
    { type := "Vector2", name := "constant", isConst := true, isReference := true }
  let interface : Interface := { classes := [{ name := "A", constructors := [⟨"A", [arg]⟩] }] }
  have read : ofText "" false text = .ok interface := by decide +kernel
  have unknown : interface.verify = .error ⟨"Vector2", "A"⟩ := by decide +kernel
  have complete : (Tiling.ofText text.toList).rest = [] := by decide +kernel
  have laid := Tiling.laidOut text.toList
  rw [complete] at laid
  refine ⟨.exchange isUpperName_A isUpperName_Vector2, _, interface, laid, by decide +kernel, ?_⟩
  rcases ofText_renamed (.exchange isUpperName_A isUpperName_Vector2) "" false laid with
    ⟨other, readOther, renamed, -, refused⟩ | ⟨fault, failed, -⟩
  · cases Except.ok.inj (read.symm.trans readOther)
    exact ⟨renamed, unknown, refused _ unknown⟩
  · cases read.symm.trans failed

end MexGlue.Interface
