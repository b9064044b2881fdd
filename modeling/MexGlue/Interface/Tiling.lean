import MexGlue.Interface.Pattern

/-!
# Tilings

An interface text is laid out in pieces, each taken from the front of what the pieces before it
leave. A tiling holds these pieces and the rest where no pattern takes anything, which is empty
exactly when the whole text is laid out. Grammar rules speak of the tiling's tokens by number;
failures speak of offsets, and `Tiling.offset` goes from one to the other.
-/

namespace MexGlue

/-- The piece at the front of a text, with the text after it. -/
def Piece.first? (s : List Char) : Option (Piece × List Char) :=
  Pattern.all.findSome? fun p => p.take? s

theorem Piece.first?_eq_append {s rest : List Char} {piece : Piece}
    (h : first? s = some (piece, rest)) : s = piece.text ++ rest ∧ piece.text ≠ [] := by
  obtain ⟨p, -, taken⟩ := List.exists_of_findSome?_eq_some h
  exact Pattern.take?_eq_append taken

theorem Piece.first?_length {s rest : List Char} {piece : Piece}
    (h : first? s = some (piece, rest)) : rest.length < s.length := by
  obtain ⟨whole, nonempty⟩ := first?_eq_append h
  have positive := List.length_pos_iff.mpr nonempty
  have total := congrArg List.length whole
  rw [List.length_append] at total
  omega

/-- A text cut into pieces, as far as pieces can be taken. -/
structure Tiling where
  pieces : List Piece
  rest : List Char
  deriving DecidableEq, Repr

namespace Tiling

def ofText (s : List Char) : Tiling :=
  match _h : Piece.first? s with
  | none => ⟨[], s⟩
  | some (piece, rest) =>
      let after := ofText rest
      ⟨piece :: after.pieces, after.rest⟩
termination_by s.length
decreasing_by exact Piece.first?_length _h

def tokens (t : Tiling) : List Token := t.pieces.filterMap (·.token)

/-- The number of characters in front of the token with this number, or of all characters where
there is no such token. -/
def charsBefore : List Piece → Nat → Nat
  | [], _ => 0
  | piece :: pieces, i =>
      match piece.token, i with
      | some _, 0 => 0
      | some _, i + 1 => piece.text.length + charsBefore pieces i
      | none, i => piece.text.length + charsBefore pieces i

/-- Where the token with this number starts. Past the last token this is where the tiling stops. -/
def offset (t : Tiling) (i : Nat) : Nat := charsBefore t.pieces i

theorem ofText_of_none {s : List Char} (h : Piece.first? s = none) : ofText s = ⟨[], s⟩ := by
  rw [ofText]
  split
  · rfl
  · simp_all

theorem ofText_of_some {s rest : List Char} {piece : Piece}
    (h : Piece.first? s = some (piece, rest)) :
    ofText s = ⟨piece :: (ofText rest).pieces, (ofText rest).rest⟩ := by
  rw [ofText]
  split
  · simp_all
  · rename_i found
    rw [h] at found
    cases found
    rfl

/-- The pieces, put together again, are the text up to the rest. -/
theorem ofText_concat (s : List Char) :
    (ofText s).pieces.flatMap (·.text) ++ (ofText s).rest = s := by
  induction hn : s.length using Nat.strongRecOn generalizing s with
  | ind n ih =>
      cases h : Piece.first? s with
      | none => simp [ofText_of_none h]
      | some found =>
          obtain ⟨piece, rest⟩ := found
          have shorter := Piece.first?_length h
          have inner := ih rest.length (by omega) rest rfl
          rw [ofText_of_some h, List.flatMap_cons, List.append_assoc]
          simp only [inner]
          exact (Piece.first?_eq_append h).1.symm

end Tiling

end MexGlue
