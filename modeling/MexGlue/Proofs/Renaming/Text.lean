import MexGlue.Proofs.OfText.Fault
import MexGlue.Proofs.Renaming.Meaning

/-!
# Renaming in a text

A renamed text has the same pieces with the names replaced and nothing else touched. A renamed name
starts with a letter of the same kind and is not reserved, so it is a piece of the same pattern, and
what is in front of it ends there as before.
-/

namespace MexGlue

/-- The piece with another name, if it is a name. -/
def Piece.mapNames (f : String → String) (piece : Piece) : Piece :=
  match piece.token with
  | some (.lower name) => ⟨(f name).toList, some (.lower (f name))⟩
  | some (.upper name) => ⟨(f name).toList, some (.upper (f name))⟩
  | _ => piece

/-- The text of pieces with their names replaced. -/
def Piece.textWithNames (f : String → String) (pieces : List Piece) : List Char :=
  (pieces.map (mapNames f)).flatMap (·.text)

/-! ## Pieces -/

theorem Piece.token_mapNames (f : String → String) (piece : Piece) :
    (piece.mapNames f).token = piece.token.map (Token.mapNames f) := by
  obtain ⟨text, token⟩ := piece
  cases token with
  | none => rfl
  | some token => cases token <;> rfl

/-- A reserved word is no name. -/
theorem Piece.mapNames_of_mem_reserved (f : String → String) {text : List Char}
    {entry : String × Token} (member : entry ∈ Token.reserved) :
    mapNames f ⟨text, some entry.2⟩ = ⟨text, some entry.2⟩ := by
  simp only [Token.reserved, List.mem_append, List.mem_map] at member
  rcases member with (⟨word, -, rfl⟩ | ⟨type, -, rfl⟩) | ⟨type, -, rfl⟩ <;> rfl

section Pieces

variable (r : Renaming) {p : Pattern} {piece : Piece}

theorem Pattern.HasPiece.mapNames (h : p.HasPiece piece) :
    p.HasPiece (piece.mapNames r.apply) := by
  cases h with
  | @lowerWord text word =>
      rcases Token.ofLowerWord_cases (String.ofList text) with ⟨same, free⟩ | member
      · have isName : IsLowerName (String.ofList text) := ⟨by simpa using word, free⟩
        have renamed := r.isLowerName_apply isName
        rw [same]
        exact Token.lowerWord_hasPiece renamed.1 (Token.ofLowerWord_of_isLowerName renamed)
      · rw [Piece.mapNames_of_mem_reserved r.apply member]
        exact .lowerWord word
  | @upperWord text word =>
      rcases Token.ofUpperWord_cases (String.ofList text) with ⟨same, free⟩ | member
      · have isName : IsUpperName (String.ofList text) := ⟨by simpa using word, free⟩
        have renamed := r.isUpperName_apply isName
        rw [same]
        exact Token.upperWord_hasPiece renamed.1 (Token.ofUpperWord_of_isUpperName renamed)
      · rw [Piece.mapNames_of_mem_reserved r.apply member]
        exact .upperWord word
  | includeLine blank unclosed => exact .includeLine blank unclosed
  | layout nonempty all => exact .layout nonempty all
  | blockComment unclosed => exact .blockComment unclosed
  | lineComment oneLine => exact .lineComment oneLine
  | symbol s => exact .symbol s

/-- Whether a piece may end somewhere is the same in front of all word characters. -/
theorem Pattern.endsBefore_eq_of_isWordChar (p : Pattern) {c d : Char} (hc : isWordChar c = true)
    (hd : isWordChar d = true) : p.endsBefore c = p.endsBefore d := by
  have notFeed {e : Char} (he : isWordChar e = true) : (e == '\n') = false := by
    rw [beq_eq_false_iff_ne]
    intro same
    rw [same] at he
    cases he
  cases p with
  | lowerWord | upperWord => simp [endsBefore, hc, hd]
  | layout =>
      simp [endsBefore, not_isLayoutChar_of_isWordChar hc, not_isLayoutChar_of_isWordChar hd]
  | lineComment => simp [endsBefore, notFeed hc, notFeed hd]
  | _ => rfl

theorem Pattern.HasPiece.isWordChar_text (h : p.HasPiece piece) (word : p = .lowerWord ∨ p = .upperWord) :
    ∀ c ∈ piece.text, isWordChar c = true := by
  cases h with
  | lowerWord isWord => exact isWord.isWordChar fun _ => isWordChar_of_isLower
  | upperWord isWord => exact isWord.isWordChar fun _ => isWordChar_of_isUpper
  | _ => simp at word

/-- A renamed piece has the same text, or both texts are words. -/
theorem Pattern.HasPiece.text_mapNames (h : p.HasPiece piece) :
    (piece.mapNames r.apply).text = piece.text ∨
      (∀ c ∈ piece.text, isWordChar c = true) ∧
        ∀ c ∈ (piece.mapNames r.apply).text, isWordChar c = true := by
  have renamed := h.mapNames r
  cases p with
  | lowerWord => exact .inr ⟨h.isWordChar_text (.inl rfl), renamed.isWordChar_text (.inl rfl)⟩
  | upperWord => exact .inr ⟨h.isWordChar_text (.inr rfl), renamed.isWordChar_text (.inr rfl)⟩
  | _ =>
      cases h
      exact .inl rfl

end Pieces

/-! ## Layouts -/

namespace LaidOut

variable (r : Renaming) {s : List Char} {pieces : List Piece}

/-- What may end in front of a text may end in front of the renamed one. -/
theorem endsAt_mapNames (h : LaidOut s pieces []) {q : Pattern} (stops : q.EndsAt s) :
    q.EndsAt (Piece.textWithNames r.apply pieces) := by
  cases pieces with
  | nil => exact q.endsAt_nil
  | cons piece pieces =>
      cases h with
      | @cons p _ after _ _ piece_of _ _ =>
          obtain ⟨c, run, spelled⟩ := List.exists_cons_of_ne_nil piece_of.text_ne_nil
          obtain ⟨d, runMapped, spelledMapped⟩ :=
            List.exists_cons_of_ne_nil (piece_of.mapNames r).text_ne_nil
          have atFront : q.endsBefore c = true := stops c (by rw [spelled]; rfl)
          have same : q.endsBefore d = q.endsBefore c := by
            rcases piece_of.text_mapNames r with same | ⟨word, wordMapped⟩
            · rw [spelled, spelledMapped] at same
              rw [(List.cons.inj same).1]
            · refine q.endsBefore_eq_of_isWordChar (wordMapped d ?_) (word c ?_)
              · rw [spelledMapped]
                exact List.mem_cons_self
              · rw [spelled]
                exact List.mem_cons_self
          rw [Piece.textWithNames, List.map_cons, List.flatMap_cons, spelledMapped]
          intro e member
          cases member
          exact same.trans atFront

/-- A renamed text is laid out in the renamed pieces. -/
theorem mapNames (h : LaidOut s pieces []) :
    LaidOut (Piece.textWithNames r.apply pieces) (pieces.map (Piece.mapNames r.apply)) [] := by
  induction pieces generalizing s with
  | nil => exact .nil []
  | cons piece pieces ih =>
      cases h with
      | cons piece_of stops laid =>
          rw [Piece.textWithNames, List.map_cons, List.flatMap_cons]
          exact .cons (piece_of.mapNames r) (laid.endsAt_mapNames r stops) (ih laid)

end LaidOut

/-! ## What a renamed text says -/

def Fault.mapNames (f : String → String) : Fault → Fault
  | .grammar token => .grammar token
  | .closing wrong => .closing (wrong.mapNames f)

theorem Fault.token_mapNames (f : String → String) (fault : Fault) :
    (fault.mapNames f).token = fault.token := by
  cases fault <;> rfl

/-- A renamed text says the renamed classes, or it has the same fault at the same token. -/
theorem Tiling.classes_mapNames (r : Renaming) {s : List Char} {pieces : List Piece}
    (laid : LaidOut s pieces []) :
    (ofText (Piece.textWithNames r.apply pieces)).classes =
      ((ofText s).classes.map (List.map (Class.mapNames r.apply))).mapError
        (Fault.mapNames r.apply) := by
  have tokens : (pieces.map (Piece.mapNames r.apply)).filterMap (·.token) =
      (pieces.filterMap (·.token)).map (Token.mapNames r.apply) := by
    rw [List.filterMap_map, List.map_filterMap]
    exact congrArg (List.filterMap · pieces) (funext (Piece.token_mapNames r.apply))
  rw [laidOut_nil_iff.mp laid, laidOut_nil_iff.mp (laid.mapNames r)]
  simp only [classes, declarations, Tiling.tokens, tokens, Declarations.ofTokens_mapNames]
  cases Declarations.ofTokens (pieces.filterMap (·.token)) with
  | error i => rfl
  | ok decls =>
      have meant := decls.classesFrom_mapNames r 0
      simp only [Except.map, if_true, Declarations.classesOrFault, Declarations.classes, meant]
      cases decls.classesFrom 0 <;> rfl

end MexGlue
