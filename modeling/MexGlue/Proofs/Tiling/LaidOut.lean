import MexGlue.Proofs.Tiling.Piece

/-!
# Texts laid out in pieces

A text is laid out in pieces if it is these pieces, one behind the other, each of some pattern and
ending where it may. A tiling is the only way to lay a text out as far as it goes. Layouts may be
cut between two pieces.
-/

namespace MexGlue

/-- The text is these pieces with this rest behind them. -/
inductive LaidOut : List Char → List Piece → List Char → Prop where
  | nil (rest : List Char) : LaidOut rest [] rest
  | cons {p : Pattern} {piece : Piece} {after rest : List Char} {pieces : List Piece}
      (piece_of : p.HasPiece piece) (stops : p.EndsAt after) (laid : LaidOut after pieces rest) :
      LaidOut (piece.text ++ after) (piece :: pieces) rest

namespace LaidOut

variable {s rest : List Char} {pieces : List Piece}

theorem text_eq (h : LaidOut s pieces rest) : s = pieces.flatMap (·.text) ++ rest := by
  induction h with
  | nil rest => rfl
  | cons piece_of stops laid ih =>
      rw [List.flatMap_cons, List.append_assoc, ← ih]

theorem exists_pattern {piece : Piece} (h : LaidOut s pieces rest) (member : piece ∈ pieces) :
    ∃ p : Pattern, p.HasPiece piece := by
  induction h with
  | nil rest => cases member
  | cons piece_of stops laid ih =>
      rcases List.mem_cons.mp member with rfl | later
      · exact ⟨_, piece_of⟩
      · exact ih later

theorem pieces_eq_nil (h : LaidOut [] pieces rest) : pieces = [] := by
  generalize empty : ([] : List Char) = s at h
  cases h with
  | nil => rfl
  | cons piece_of =>
      have noText := (List.append_eq_nil_iff.mp empty.symm).1
      exact absurd noText piece_of.text_ne_nil

theorem of_append {front back : List Piece} (h : LaidOut s (front ++ back) rest) :
    ∃ middle, LaidOut s front middle ∧ LaidOut middle back rest := by
  induction front generalizing s with
  | nil => exact ⟨s, .nil s, h⟩
  | cons piece front ih =>
      cases h with
      | cons piece_of stops laid =>
          obtain ⟨middle, first, second⟩ := ih laid
          exact ⟨middle, .cons piece_of stops first, second⟩

/-- What stands behind the pieces may be left out. -/
theorem without_rest (h : LaidOut s pieces rest) :
    LaidOut (pieces.flatMap (·.text)) pieces [] := by
  induction h with
  | nil rest => exact .nil []
  | @cons p piece after rest pieces piece_of stops laid ih =>
      rw [List.flatMap_cons]
      refine .cons piece_of ?_ ih
      cases laid with
      | nil => exact p.endsAt_nil
      | cons next_of =>
          refine stops.of_head?_eq ?_
          obtain ⟨c, run, same⟩ := List.exists_cons_of_ne_nil next_of.text_ne_nil
          rw [List.flatMap_cons, same]
          rfl

end LaidOut

namespace Tiling

theorem laidOut (s : List Char) : LaidOut s (ofText s).pieces (ofText s).rest := by
  induction hn : s.length using Nat.strongRecOn generalizing s with
  | ind n ih =>
      cases h : Piece.first? s with
      | none =>
          rw [ofText_of_none h]
          exact .nil s
      | some found =>
          obtain ⟨piece, after⟩ := found
          obtain ⟨whole, p, piece_of, stops⟩ := Piece.first?_eq_some_iff.mp h
          have shorter := Piece.first?_length h
          have laid := ih after.length (by omega) after rfl
          rw [ofText_of_some h]
          subst whole
          exact .cons piece_of stops laid

theorem first?_rest (s : List Char) : Piece.first? (ofText s).rest = none := by
  induction hn : s.length using Nat.strongRecOn generalizing s with
  | ind n ih =>
      cases h : Piece.first? s with
      | none => rw [ofText_of_none h, h]
      | some found =>
          obtain ⟨piece, after⟩ := found
          have shorter := Piece.first?_length h
          rw [ofText_of_some h]
          exact ih after.length (by omega) after rfl

/-- A tiling goes on behind pieces as if it started there. -/
theorem ofText_of_laidOut {s rest : List Char} {pieces : List Piece}
    (h : LaidOut s pieces rest) :
    ofText s = ⟨pieces ++ (ofText rest).pieces, (ofText rest).rest⟩ := by
  induction h with
  | nil rest => rfl
  | @cons p piece after rest pieces piece_of stops laid ih =>
      have first := Piece.first?_eq_some_iff.mpr ⟨rfl, p, piece_of, stops⟩
      rw [ofText_of_some first, ih]
      rfl

theorem ofText_nil : ofText [] = ⟨[], []⟩ := ofText_of_none rfl

/-- A text is cut completely exactly when it is laid out in pieces, and in one way only. -/
theorem laidOut_nil_iff {s : List Char} {pieces : List Piece} :
    LaidOut s pieces [] ↔ ofText s = ⟨pieces, []⟩ := by
  constructor
  · intro h
    rw [ofText_of_laidOut h, ofText_nil, List.append_nil]
  · intro h
    have laid := laidOut s
    rw [h] at laid
    exact laid

end Tiling

end MexGlue
