import MexGlue.Proofs.OfText.Exactness
import MexGlue.Proofs.ReadingState.Completion
import MexGlue.Proofs.Tiling.Offset

/-!
# Where a text leaves the grammar

A failure of the grammar stands at the end of the longest part of the text that can be completed.
What is in front of it is the beginning of a sentence, and a completion is spelled out behind a line
feed. What stands there is a token that no sentence has in this place, or nothing that is a piece,
or the end of a text that stops too early.
-/

namespace MexGlue

open Grammar

theorem ParseFailure.reason_closing_ne (offset : Nat) (opened closed : String) :
    (closing offset opened closed).reason ≠ "" := by
  intro same
  have characters := congrArg String.toList same
  simp [reason] at characters

/-- Declarations stop at a failing token, and if the whole text is pieces, all of its tokens are no
declarations. -/
theorem Tiling.declarations_eq_error {tiling : Tiling} {i : Nat}
    (h : tiling.declarations = .error i) :
    Declarations.StopAt tiling.tokens i ∧
      (tiling.rest = [] → ∀ decls, Declarations.tokens decls ≠ tiling.tokens) := by
  unfold declarations at h
  cases read : Declarations.ofTokens tiling.tokens with
  | error j =>
      rw [read] at h
      cases h
      obtain ⟨stops, unread⟩ := Declarations.ofTokens_eq_error read
      exact ⟨stops, fun _ => unread⟩
  | ok decls =>
      rw [read] at h
      have tokens := Declarations.ofTokens_eq_ok_iff.mp read
      by_cases done : tiling.rest = []
      · simp [done] at h
      · simp only [if_neg done, Except.error.injEq] at h
        subst h
        have complete : Declarations.tokens decls = tiling.tokens ++ [] := by
          rw [tokens, List.append_nil]
        exact ⟨.length ⟨[], decls, wellFormedTokens_nil, complete⟩, fun all => absurd all done⟩

/-- A text and the spelling of what its tokens lack are declarations together. -/
theorem Declarations.ofText_append_spellAll {text : List Char} {pieces : List Piece}
    {suffix : List Token} {decls : Declarations} (laid : LaidOut text pieces [])
    (wellFormed : WellFormedTokens suffix)
    (tokens : decls.tokens = pieces.filterMap (·.token) ++ suffix) :
    ofText (text ++ '\n' :: Token.spellAll suffix) = .ok decls := by
  obtain ⟨spelled, complete⟩ := Token.ofText_spellAll wellFormed
  have both := Tiling.ofText_append_lineFeed laid (Token.spellAll suffix)
  have bothTokens := both.tokens
  rw [spelled] at bothTokens
  exact ofText_eq_ok_iff_tiling.mpr ⟨tokens.trans bothTokens.symm, both.rest.trans complete⟩

namespace Tiling

variable {text : String} {i : Nat}

/-- The text in front of a failure can be completed. -/
theorem exists_derivesText (failed : (ofText text.toList).declarations = .error i) :
    ∃ (suffix : String) (tree : ParseTree),
      DerivesText tree (String.ofList (text.toList.take ((ofText text.toList).offset i)) ++
        suffix) := by
  have stops := (declarations_eq_error failed).1
  obtain ⟨suffix, decls, wellFormed, completed⟩ := stops.completable
  obtain ⟨front, laid, tokens⟩ := laidOut_take stops.bound
  rw [← tokens] at completed
  have written := Declarations.ofText_append_spellAll laid wellFormed completed
  refine ⟨String.ofList ('\n' :: Token.spellAll suffix), decls.tree, ?_⟩
  refine derivesText_iff.mpr ⟨decls, ?_, rfl⟩
  rw [String.toList_append, String.toList_ofList, String.toList_ofList]
  exact written

/-- No sentence goes on with the token at a failure. -/
theorem not_viablePrefix (failed : (ofText text.toList).declarations = .error i)
    {before : List Token} {token : Token}
    (starts : TokenAt text.toList before token ((ofText text.toList).offset i)) :
    ¬ ViablePrefix (before ++ [token]) := by
  have stops := (declarations_eq_error failed).1
  obtain ⟨found, tokens⟩ := tokenAt_unique starts
  intro h
  rcases h with ⟨back, sentence⟩
  obtain ⟨decls, same⟩ := sentence_iff.mp sentence
  rw [List.append_assoc, ← tokens] at same
  exact stops.refused token found decls back same

/-- A failure at the end of the text is one of tokens that stop too early. -/
theorem viablePrefix_of_offset_eq_length (failed : (ofText text.toList).declarations = .error i)
    (atEnd : (ofText text.toList).offset i = text.toList.length) :
    ∃ pieces, LaidOut text.toList pieces [] ∧ ViablePrefix (pieces.filterMap (·.token)) ∧
      ¬ Sentence (pieces.filterMap (·.token)) := by
  obtain ⟨stops, unread⟩ := declarations_eq_error failed
  obtain ⟨suffix, decls, -, completed⟩ := stops.completable
  obtain ⟨last, noRest⟩ := (offset_eq_length_iff stops.bound).mp atEnd
  have laid := laidOut text.toList
  rw [noRest] at laid
  rw [last, List.take_length] at completed
  refine ⟨_, laid, ⟨suffix, sentence_iff.mpr ⟨decls, completed⟩⟩, fun sentence => ?_⟩
  obtain ⟨others, same⟩ := sentence_iff.mp sentence
  exact unread noRest others same

end Tiling

namespace Interface

variable {name : String} {verbose : Bool} {text : String} {failure : ParseFailure}

/-- A failure without a reason is one of the grammar. -/
theorem exists_declarations_eq_error (h : ofText name verbose text = .error failure)
    (noReason : failure.reason = "") :
    ∃ i, (Tiling.ofText text.toList).declarations = .error i ∧
      failure = .at text.toList ((Tiling.ofText text.toList).offset i) := by
  rcases Class.listOfText_eq_error_iff.mp (ofText_eq_error_iff.mp h) with refused | closed
  · exact Declarations.ofText_eq_error_iff.mp refused
  · obtain ⟨decls, wrong, -, -, same⟩ := closed
    rw [same] at noReason
    exact absurd noReason (ParseFailure.reason_closing_ne _ _ _)

/-- A failure of the grammar stands behind the longest part of the text that a sentence begins
with: this part can be completed, and what follows it fits in no sentence. -/
theorem ofText_error_position (h : ofText name verbose text = .error failure)
    (noReason : failure.reason = "") :
    failure.offset ≤ text.toList.length ∧
    failure.excerpt = String.ofList ((text.toList.drop failure.offset).take 20) ∧
    (∃ (suffix : String) (tree : ParseTree),
      DerivesText tree (String.ofList (text.toList.take failure.offset) ++ suffix)) ∧
    (∀ before token, TokenAt text.toList before token failure.offset →
      ¬ ViablePrefix (before ++ [token])) ∧
    ((∀ before token, ¬ TokenAt text.toList before token failure.offset) →
      failure.offset ≠ text.toList.length →
        text.toList.drop failure.offset ≠ [] ∧
        ∀ (p : Pattern) (piece : Piece) (rest : List Char), p.HasPiece piece →
          text.toList.drop failure.offset ≠ piece.text ++ rest) ∧
    (failure.offset = text.toList.length → ∃ pieces, LaidOut text.toList pieces [] ∧
      ViablePrefix (pieces.filterMap (·.token)) ∧ ¬ Sentence (pieces.filterMap (·.token))) := by
  obtain ⟨i, failed, same⟩ := exists_declarations_eq_error h noReason
  have bound := Tiling.offset_le_length text.toList i
  subst same
  refine ⟨bound, rfl, Tiling.exists_derivesText failed, ?_, ?_, ?_⟩
  · intro before token starts
    exact Tiling.not_viablePrefix failed starts
  · intro noToken notEnd
    refine ⟨?_, fun p piece rest found => Tiling.no_piece noToken found rest⟩
    intro noRest
    exact notEnd (Nat.le_antisymm bound (List.drop_eq_nil_iff.mp noRest))
  · intro atEnd
    exact Tiling.viablePrefix_of_offset_eq_length failed atEnd

theorem ofText_error_position_endClass :
    ofText "" false "class A\x7d;" = .error (.grammar 7 "\x7d;") ∧
      ∃ (suffix : String) (tree : ParseTree),
        DerivesText tree (String.ofList ("class A\x7d;".toList.take 7) ++ suffix) := by
  have failed : ofText "" false "class A\x7d;" = .error (.grammar 7 "\x7d;") := by decide +kernel
  exact ⟨failed, (ofText_error_position failed rfl).2.2.1⟩

end Interface

end MexGlue
