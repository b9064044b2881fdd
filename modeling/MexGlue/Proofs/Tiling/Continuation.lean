import MexGlue.Proofs.Tiling.LaidOut

/-!
# How a tiling goes on

Behind a piece the rest of a text is cut as if it stood alone: its tokens come behind those in front,
and they start as many characters further to the back. Layout in front of a text is skipped even
where it grows together with layout that the text starts with, and so a line feed parts two texts.
-/

namespace MexGlue.Tiling

/-- Whether a tiling, behind these tokens and this many characters, goes on like another one. -/
structure GoesOn (whole : Tiling) (before : List Token) (length : Nat) (back : Tiling) : Prop where
  tokens : whole.tokens = before ++ back.tokens
  rest : whole.rest = back.rest
  offset : ∀ i, whole.offset (before.length + i) = length + back.offset i

theorem GoesOn.trans {whole middle back : Tiling} {before between : List Token}
    {length more : Nat} (h : whole.GoesOn before length middle)
    (h' : middle.GoesOn between more back) :
    whole.GoesOn (before ++ between) (length + more) back where
  tokens := by rw [h.tokens, h'.tokens, List.append_assoc]
  rest := h.rest.trans h'.rest
  offset i := by rw [List.length_append, Nat.add_assoc, h.offset, h'.offset, Nat.add_assoc]

theorem goesOn_of_first? {s after : List Char} {piece : Piece}
    (h : Piece.first? s = some (piece, after)) :
    (ofText s).GoesOn piece.token.toList piece.text.length (ofText after) := by
  rw [ofText_of_some h]
  cases kind : piece.token with
  | none =>
      refine ⟨by simp [tokens, kind], rfl, fun i => ?_⟩
      simp [offset, charsBefore, kind]
  | some token =>
      refine ⟨by simp [tokens, kind], rfl, fun i => ?_⟩
      have next : [token].length + i = i + 1 := Nat.add_comm 1 i
      rw [Option.toList_some, next]
      simp [offset, charsBefore, kind]

theorem goesOn_piece {p : Pattern} {piece : Piece} {after : List Char} (found : p.HasPiece piece)
    (stops : p.EndsAt after) :
    (ofText (piece.text ++ after)).GoesOn piece.token.toList piece.text.length (ofText after) :=
  goesOn_of_first? (Piece.first?_eq_some_iff.mpr ⟨rfl, p, found, stops⟩)

theorem filterMap_token_cons (piece : Piece) (pieces : List Piece) :
    (piece :: pieces).filterMap (·.token) =
      piece.token.toList ++ pieces.filterMap (·.token) := by
  cases kind : piece.token <;> simp [kind]

theorem goesOn_laidOut {s rest : List Char} {pieces : List Piece} (h : LaidOut s pieces rest) :
    (ofText s).GoesOn (pieces.filterMap (·.token)) (pieces.flatMap (·.text)).length
      (ofText rest) := by
  induction h with
  | nil rest => exact ⟨rfl, rfl, fun i => by simp⟩
  | cons piece_of stops laid ih =>
      rw [filterMap_token_cons, List.flatMap_cons, List.length_append]
      exact (goesOn_piece piece_of stops).trans ih

/-! ## Layout -/

theorem goesOn_dropWhile_layout (s : List Char) :
    (ofText s).GoesOn [] (s.takeWhile Pattern.isLayoutChar).length
      (ofText (s.dropWhile Pattern.isLayoutChar)) := by
  by_cases empty : s.takeWhile Pattern.isLayoutChar = []
  · have whole := List.takeWhile_append_dropWhile (p := Pattern.isLayoutChar) (l := s)
    rw [empty, List.nil_append] at whole
    rw [whole, empty]
    exact ⟨rfl, rfl, fun i => by simp⟩
  · have taken : Pattern.layout.take? s =
        some (⟨s.takeWhile Pattern.isLayoutChar, none⟩, s.dropWhile Pattern.isLayoutChar) := by
      simp only [Pattern.take?]
    exact goesOn_of_first? (Piece.first?_of_take? taken)

/-- Layout in front of a text only moves what the text is cut into. -/
theorem goesOn_layout {run : List Char} (all : ∀ c ∈ run, Pattern.isLayoutChar c = true)
    (s : List Char) : (ofText (run ++ s)).GoesOn [] run.length (ofText s) := by
  have both := goesOn_dropWhile_layout (run ++ s)
  have alone := goesOn_dropWhile_layout s
  rw [List.dropWhile_append_of_pos all, List.takeWhile_append_of_pos all,
    List.length_append] at both
  refine ⟨both.tokens.trans alone.tokens.symm, both.rest.trans alone.rest.symm, fun i => ?_⟩
  rw [both.offset i, Nat.add_assoc, ← alone.offset i, List.length_nil, Nat.zero_add]

theorem goesOn_lineFeed (t : List Char) : (ofText ('\n' :: t)).GoesOn [] 1 (ofText t) :=
  goesOn_layout (List.all_eq_true.mp rfl : ∀ c ∈ ['\n'], Pattern.isLayoutChar c = true) t

/-! ## A line feed between two texts -/

/-- Everything but layout ends in front of a line feed. -/
theorem endsAt_lineFeed {p : Pattern} (notLayout : p ≠ .layout) (t : List Char) :
    p.EndsAt ('\n' :: t) := by
  intro c member
  cases member
  cases p with
  | layout => exact absurd rfl notLayout
  | _ => rfl

/-- A line feed parts what is in front of it from what is behind it. -/
theorem ofText_append_lineFeed {s : List Char} {pieces : List Piece} (h : LaidOut s pieces [])
    (t : List Char) :
    (ofText (s ++ '\n' :: t)).GoesOn (pieces.filterMap (·.token)) (s.length + 1) (ofText t) := by
  induction pieces generalizing s with
  | nil =>
      cases h
      exact goesOn_lineFeed t
  | cons piece pieces ih =>
      cases h with
      | @cons p _ after _ _ piece_of stops laid =>
          by_cases stopsHere : p.EndsAt (after ++ '\n' :: t)
          · have both := (goesOn_piece piece_of stopsHere).trans (ih laid)
            rw [← Nat.add_assoc, ← List.length_append, ← List.append_assoc] at both
            rwa [filterMap_token_cons]
          · -- Only layout at the very end of the text goes on with the line feed.
            cases after with
            | cons c after => exact absurd (stops.of_head?_eq rfl) stopsHere
            | nil =>
                have noPieces := laid.pieces_eq_nil
                subst noPieces
                cases piece_of with
                | @layout text nonempty all =>
                    have longer : ∀ c ∈ text ++ ['\n'], Pattern.isLayoutChar c = true := by
                      intro c member
                      rcases List.mem_append.mp member with inside | feed
                      · exact all c inside
                      · cases List.mem_singleton.mp feed
                        decide
                    have skipped := goesOn_layout longer t
                    rw [List.append_assoc, List.length_append] at skipped
                    simpa using skipped
                | _ => exact absurd (endsAt_lineFeed (by simp) t) stopsHere

end MexGlue.Tiling
