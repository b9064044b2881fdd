import MexGlue.Interface.OfText
import MexGlue.Proofs.ReadingState.Written
import MexGlue.Proofs.Tiling.LaidOut

/-!
# The stages of reading a text

A text goes through three stages: it is cut into pieces, their tokens are read as declarations, and
these are taken for classes. It is an interface if every stage goes through, and it fails where the
first of them does.
-/

namespace MexGlue

theorem Tiling.declarations_eq_ok_iff {tiling : Tiling} {decls : Declarations} :
    tiling.declarations = .ok decls ↔ decls.tokens = tiling.tokens ∧ tiling.rest = [] := by
  rw [declarations, ← Declarations.ofTokens_eq_ok_iff]
  cases Declarations.ofTokens tiling.tokens with
  | error i => simp
  | ok found => by_cases done : tiling.rest = [] <;> simp [done]

theorem Declarations.ofText_eq_ok_iff_tiling {text : List Char} {decls : Declarations} :
    ofText text = .ok decls ↔
      decls.tokens = (Tiling.ofText text).tokens ∧ (Tiling.ofText text).rest = [] := by
  rw [← Tiling.declarations_eq_ok_iff]
  simp only [ofText]
  cases (Tiling.ofText text).declarations <;> simp

/-- A text writes declarations if its pieces have their tokens. -/
theorem Declarations.ofText_eq_ok_iff {text : List Char} {decls : Declarations} :
    ofText text = .ok decls ↔
      ∃ pieces, LaidOut text pieces [] ∧ decls.tokens = pieces.filterMap (·.token) := by
  rw [ofText_eq_ok_iff_tiling]
  constructor
  · intro h
    rcases h with ⟨tokens, rest⟩
    have laid := Tiling.laidOut text
    rw [rest] at laid
    exact ⟨_, laid, tokens⟩
  · intro h
    rcases h with ⟨pieces, laid, tokens⟩
    rw [Tiling.laidOut_nil_iff.mp laid]
    exact ⟨tokens, rfl⟩

theorem Class.listOfText_eq_ok_iff {text : List Char} {classes : List Class} :
    listOfText text = .ok classes ↔
      ∃ decls, Declarations.ofText text = .ok decls ∧ decls.classes = .ok classes := by
  unfold listOfText
  cases Declarations.ofText text with
  | error failure => simp
  | ok decls => cases same : decls.classes <;> simp [same]

theorem Interface.ofText_eq_ok_iff {name : String} {verbose : Bool} {text : String}
    {interface : Interface} : ofText name verbose text = .ok interface ↔
      ∃ classes, Class.listOfText text.toList = .ok classes ∧
        interface = ⟨name, verbose, classes⟩ := by
  unfold ofText
  cases Class.listOfText text.toList <;> simp [eq_comm]

theorem Declarations.ofText_eq_error_iff {text : List Char} {failure : ParseFailure} :
    ofText text = .error failure ↔ ∃ i, (Tiling.ofText text).declarations = .error i ∧
      failure = .at text ((Tiling.ofText text).offset i) := by
  simp only [ofText]
  cases (Tiling.ofText text).declarations with
  | error i => simp [eq_comm]
  | ok decls => simp

/-- A text is refused by the grammar, or it is read and has a wrong closing name. -/
theorem Class.listOfText_eq_error_iff {text : List Char} {failure : ParseFailure} :
    listOfText text = .error failure ↔ Declarations.ofText text = .error failure ∨
      ∃ decls wrong, Declarations.ofText text = .ok decls ∧ decls.classes = .error wrong ∧
        failure = .closing ((Tiling.ofText text).offset wrong.token) wrong.opened wrong.closed := by
  unfold listOfText
  cases Declarations.ofText text with
  | error found => simp
  | ok decls => cases meant : decls.classes <;> simp [meant, eq_comm]

theorem Interface.ofText_eq_error_iff {name : String} {verbose : Bool} {text : String}
    {failure : ParseFailure} : ofText name verbose text = .error failure ↔
      Class.listOfText text.toList = .error failure := by
  unfold ofText
  cases Class.listOfText text.toList <;> simp

end MexGlue
