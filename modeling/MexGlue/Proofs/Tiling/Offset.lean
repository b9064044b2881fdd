import MexGlue.Proofs.Tiling.LaidOut

/-!
# Where tokens start

A token starts at an offset if the text is laid out, up to and with its piece, so that this many
characters stand in front. The offsets of a tiling are exactly these, and they grow with the number
of the token, so an offset belongs to one token at most.
-/

namespace MexGlue

/-- The token starts at this offset, behind these tokens. -/
def TokenAt (s : List Char) (before : List Token) (token : Token) (offset : Nat) : Prop :=
  ∃ front piece rest, LaidOut s (front ++ [piece]) rest ∧ piece.token = some token ∧
    front.filterMap (·.token) = before ∧ (front.flatMap (·.text)).length = offset

namespace Tiling

variable {pieces : List Piece}

theorem charsBefore_split {front back : List Piece} {piece : Piece} {token : Token}
    (isToken : piece.token = some token) :
    charsBefore (front ++ piece :: back) (front.filterMap (·.token)).length =
      (front.flatMap (·.text)).length := by
  induction front with
  | nil => simp [charsBefore, isToken]
  | cons first front ih =>
      rw [List.flatMap_cons, List.length_append, ← ih]
      cases kind : first.token <;> simp [charsBefore, kind]

theorem charsBefore_past {i : Nat} (past : (pieces.filterMap (·.token)).length ≤ i) :
    charsBefore pieces i = (pieces.flatMap (·.text)).length := by
  induction pieces generalizing i with
  | nil => rfl
  | cons first pieces ih =>
      rw [List.flatMap_cons, List.length_append]
      cases kind : first.token with
      | none =>
          have later : (pieces.filterMap (·.token)).length ≤ i := by simpa [kind] using past
          simp [charsBefore, kind, ih later]
      | some token =>
          cases i with
          | zero => simp [kind] at past
          | succ i =>
              have later : (pieces.filterMap (·.token)).length ≤ i := by simpa [kind] using past
              simp [charsBefore, kind, ih later]

/-- Further tokens stand further to the back. -/
theorem charsBefore_lt {i j : Nat} (nonempty : ∀ piece ∈ pieces, piece.text ≠ []) (less : i < j)
    (bound : i < (pieces.filterMap (·.token)).length) :
    charsBefore pieces i < charsBefore pieces j := by
  induction pieces generalizing i j with
  | nil => cases bound
  | cons first pieces ih =>
      have positive := List.length_pos_iff.mpr (nonempty first List.mem_cons_self)
      have others : ∀ piece ∈ pieces, piece.text ≠ [] :=
        fun piece member => nonempty piece (List.mem_cons_of_mem first member)
      cases kind : first.token with
      | none =>
          have inside : i < (pieces.filterMap (·.token)).length := by simpa [kind] using bound
          have further := ih others less inside
          simp only [charsBefore, kind]
          omega
      | some token =>
          cases j with
          | zero => cases less
          | succ j =>
              cases i with
              | zero =>
                  simp only [charsBefore, kind]
                  omega
              | succ i =>
                  have inside : i < (pieces.filterMap (·.token)).length := by
                    simpa [kind] using bound
                  have further := ih others (Nat.lt_of_succ_lt_succ less) inside
                  simp only [charsBefore, kind]
                  omega

theorem exists_split {i : Nat} {token : Token}
    (found : (pieces.filterMap (·.token))[i]? = some token) :
    ∃ front piece back, pieces = front ++ piece :: back ∧ piece.token = some token ∧
      front.filterMap (·.token) = (pieces.filterMap (·.token)).take i := by
  induction pieces generalizing i with
  | nil => cases found
  | cons first pieces ih =>
      cases kind : first.token with
      | none =>
          have inside : (pieces.filterMap (·.token))[i]? = some token := by
            simpa [kind] using found
          obtain ⟨front, piece, back, rfl, isToken, before⟩ := ih inside
          exact ⟨first :: front, piece, back, rfl, isToken, by simpa [kind] using before⟩
      | some other =>
          cases i with
          | zero =>
              have same : first.token = some token := by simpa [kind] using found
              exact ⟨[], first, pieces, rfl, same, rfl⟩
          | succ i =>
              have inside : (pieces.filterMap (·.token))[i]? = some token := by
                simpa [kind] using found
              obtain ⟨front, piece, back, rfl, isToken, before⟩ := ih inside
              exact ⟨first :: front, piece, back, rfl, isToken, by simpa [kind] using before⟩

theorem text_ne_nil {s : List Char} {piece : Piece} (member : piece ∈ (ofText s).pieces) :
    piece.text ≠ [] := by
  obtain ⟨p, found⟩ := (laidOut s).exists_pattern member
  exact found.text_ne_nil

theorem offset_lt {s : List Char} {i j : Nat} (less : i < j)
    (bound : i < (ofText s).tokens.length) : (ofText s).offset i < (ofText s).offset j :=
  charsBefore_lt (fun _ => text_ne_nil) less bound

/-- Past the last token a tiling's offset is where the rest begins. -/
theorem offset_past {s : List Char} {i : Nat} (past : (ofText s).tokens.length ≤ i) :
    (ofText s).offset i + (ofText s).rest.length = s.length ∧
      s.drop ((ofText s).offset i) = (ofText s).rest := by
  have offset_eq : (ofText s).offset i = ((ofText s).pieces.flatMap (·.text)).length :=
    charsBefore_past past
  have whole := (laidOut s).text_eq
  rw [offset_eq]
  constructor
  · rw [← List.length_append, ← whole]
  · have cut : ((ofText s).pieces.flatMap (·.text) ++ (ofText s).rest).drop
        ((ofText s).pieces.flatMap (·.text)).length = (ofText s).rest := List.drop_left
    rwa [← whole] at cut

theorem offset_le_length (s : List Char) (i : Nat) : (ofText s).offset i ≤ s.length := by
  have past := (offset_past (s := s) (Nat.le_refl _)).1
  by_cases inside : i < (ofText s).tokens.length
  · have less := offset_lt inside inside
    omega
  · have here := (offset_past (s := s) (Nat.le_of_not_lt inside)).1
    omega

/-- A tiling's offset is the end of the text only behind all of its pieces. -/
theorem offset_eq_length_iff {s : List Char} {i : Nat} (bound : i ≤ (ofText s).tokens.length) :
    (ofText s).offset i = s.length ↔ i = (ofText s).tokens.length ∧ (ofText s).rest = [] := by
  have past := (offset_past (s := s) (Nat.le_refl _)).1
  rw [← List.length_eq_zero_iff]
  constructor
  · intro atEnd
    rcases Nat.lt_or_eq_of_le bound with inside | last
    · have less := offset_lt inside inside
      omega
    · subst last
      exact ⟨rfl, by omega⟩
  · intro h
    rcases h with ⟨last, noRest⟩
    subst last
    omega

/-- The tokens of a tiling start where it says and nowhere else. -/
theorem tokenAt_iff {s : List Char} {before : List Token} {token : Token} {n : Nat} :
    TokenAt s before token n ↔ ∃ i, (ofText s).tokens[i]? = some token ∧
      (ofText s).tokens.take i = before ∧ (ofText s).offset i = n := by
  constructor
  · intro h
    rcases h with ⟨front, piece, rest, laid, isToken, tokens, start⟩
    have pieces_eq : (ofText s).pieces = front ++ piece :: (ofText rest).pieces := by
      rw [ofText_of_laidOut laid, List.append_assoc]
      rfl
    have tokens_eq : (ofText s).tokens =
        before ++ token :: (ofText rest).pieces.filterMap (·.token) := by
      rw [Tiling.tokens, pieces_eq, List.filterMap_append, tokens,
        List.filterMap_cons_some isToken]
    refine ⟨before.length, ?_, ?_, ?_⟩
    · rw [tokens_eq, List.getElem?_append_right (Nat.le_refl _), Nat.sub_self]
      rfl
    · rw [tokens_eq, List.take_left]
    · rw [offset, pieces_eq, ← tokens, charsBefore_split isToken, start]
  · intro h
    rcases h with ⟨i, found, tokens, start⟩
    obtain ⟨front, piece, back, pieces_eq, isToken, before_eq⟩ := exists_split found
    have bound : i < (ofText s).tokens.length := (List.getElem?_eq_some_iff.mp found).choose
    have laid := laidOut s
    rw [pieces_eq, ← List.singleton_append, ← List.append_assoc] at laid
    obtain ⟨middle, reached, -⟩ := laid.of_append
    have count : (front.filterMap (·.token)).length = i := by
      rw [before_eq]
      exact List.length_take_of_le (Nat.le_of_lt bound)
    refine ⟨front, piece, middle, reached, isToken, before_eq.trans tokens, ?_⟩
    rw [← start, offset, pieces_eq, ← count, charsBefore_split isToken]

/-- One token at most starts at an offset. -/
theorem tokenAt_unique {s : List Char} {before : List Token} {token : Token} {i : Nat}
    (h : TokenAt s before token ((ofText s).offset i)) :
    (ofText s).tokens[i]? = some token ∧ (ofText s).tokens.take i = before := by
  obtain ⟨j, found, tokens, start⟩ := tokenAt_iff.mp h
  have bound : j < (ofText s).tokens.length := (List.getElem?_eq_some_iff.mp found).choose
  have same : j = i := by
    rcases Nat.lt_trichotomy j i with less | same | more
    · have further := offset_lt less bound
      omega
    · exact same
    · have further := offset_lt more (Nat.lt_trans more bound)
      omega
  subst same
  exact ⟨found, tokens⟩

/-- Where no token starts, no pattern has a piece, be it one without a token. -/
theorem no_piece {s : List Char} {i : Nat}
    (noToken : ∀ before token, ¬ TokenAt s before token ((ofText s).offset i)) {p : Pattern}
    {piece : Piece} (found : p.HasPiece piece) (rest : List Char) :
    s.drop ((ofText s).offset i) ≠ piece.text ++ rest := by
  have past : (ofText s).tokens.length ≤ i := by
    refine Nat.le_of_not_lt fun inside => ?_
    exact noToken _ _ (tokenAt_iff.mpr ⟨i, List.getElem?_eq_getElem inside, rfl, rfl⟩)
  rw [(offset_past past).2]
  intro same
  obtain ⟨taken, takes⟩ := found.exists_take? rest
  have stopped := Piece.first?_eq_none_iff.mp (first?_rest s) p
  rw [same, takes] at stopped
  cases stopped

/-- The text in front of a token is laid out in the pieces in front of it. -/
theorem laidOut_take {s : List Char} {i : Nat} (bound : i ≤ (ofText s).tokens.length) :
    ∃ front, LaidOut (s.take ((ofText s).offset i)) front [] ∧
      front.filterMap (·.token) = (ofText s).tokens.take i := by
  have cut {front : List Piece} {middle : List Char} (laid : LaidOut s front middle)
      (start : (front.flatMap (·.text)).length = (ofText s).offset i) :
      LaidOut (s.take ((ofText s).offset i)) front [] := by
    have front_eq : (front.flatMap (·.text) ++ middle).take (front.flatMap (·.text)).length =
        front.flatMap (·.text) := List.take_left
    rw [← laid.text_eq, start] at front_eq
    rw [front_eq]
    exact laid.without_rest
  rcases Nat.lt_or_eq_of_le bound with inside | last
  · obtain ⟨token, found⟩ : ∃ token, (ofText s).tokens[i]? = some token :=
      ⟨_, List.getElem?_eq_getElem inside⟩
    obtain ⟨front, piece, rest, laid, -, tokens, start⟩ := tokenAt_iff.mpr ⟨i, found, rfl, rfl⟩
    obtain ⟨middle, reached, -⟩ := laid.of_append
    exact ⟨front, cut reached start, tokens⟩
  · have start : ((ofText s).pieces.flatMap (·.text)).length = (ofText s).offset i :=
      (charsBefore_past (Nat.le_of_eq last.symm)).symm
    refine ⟨(ofText s).pieces, cut (laidOut s) start, ?_⟩
    rw [last, List.take_length]
    rfl

end Tiling

end MexGlue
