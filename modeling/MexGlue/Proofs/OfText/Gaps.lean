import Mathlib.Data.List.Chain
import MexGlue.Proofs.OfText.Fault

/-!
# Gaps between tokens

Layout and comments may stand between any two tokens and nothing else may, and only two words need
them. So a text says the same, and fails at the same token, whatever its gaps are filled with.
-/

namespace MexGlue

/-! ## Fillers -/

/-- Layout, closed comments, and line comments with the line feed that ends them, in any order. -/
inductive Filler : List Char → Prop where
  | nil : Filler []
  | layout {c : Char} {rest : List Char} (kind : Pattern.isLayoutChar c = true)
      (more : Filler rest) : Filler (c :: rest)
  | blockComment {comment rest : List Char}
      (found : Pattern.blockComment.HasPiece ⟨comment, none⟩) (more : Filler rest) :
      Filler (comment ++ rest)
  | lineComment {comment rest : List Char}
      (found : Pattern.lineComment.HasPiece ⟨comment, none⟩) (more : Filler rest) :
      Filler (comment ++ '\n' :: rest)

/-- What may stand behind the last token: filler, and then a line comment that the text ends in. -/
inductive LastFiller : List Char → Prop where
  | closed {gap : List Char} (filler : Filler gap) : LastFiller gap
  | lineComment {gap comment : List Char} (filler : Filler gap)
      (found : Pattern.lineComment.HasPiece ⟨comment, none⟩) : LastFiller (gap ++ comment)

/-- A filler in front of a text only moves what the text is cut into. -/
theorem Filler.goesOn {gap : List Char} (h : Filler gap) (s : List Char) :
    (Tiling.ofText (gap ++ s)).GoesOn [] gap.length (Tiling.ofText s) := by
  induction h with
  | nil => exact ⟨rfl, rfl, fun i => by simp⟩
  | @layout c rest kind more ih =>
      have first := Tiling.goesOn_layout (List.forall_mem_singleton.mpr kind) (rest ++ s)
      rw [List.length_cons, Nat.add_comm]
      exact first.trans ih
  | @blockComment comment rest found more ih =>
      have stops : Pattern.blockComment.EndsAt (rest ++ s) := fun _ _ => rfl
      rw [List.append_assoc, List.length_append]
      exact (Tiling.goesOn_piece found stops).trans ih
  | @lineComment comment rest found more ih =>
      have stops : Pattern.lineComment.EndsAt ('\n' :: (rest ++ s)) :=
        Tiling.endsAt_lineFeed (by simp) _
      have parted := (Tiling.goesOn_piece found stops).trans (Tiling.goesOn_lineFeed (rest ++ s))
      rw [List.append_assoc, List.length_append, List.length_cons, Nat.add_comm rest.length,
        ← Nat.add_assoc]
      exact parted.trans ih

/-- A filler starts with no character that could go on with a word. -/
theorem Filler.head_not_word {gap : List Char} (h : Filler gap) :
    ∀ c ∈ gap.head?, Pattern.isWordChar c = false := by
  intro c member
  cases h with
  | nil => cases member
  | @layout d rest kind more =>
      cases member
      exact Pattern.not_isWordChar_of_isLayoutChar kind
  | blockComment found more =>
      cases found
      cases member
      rfl
  | lineComment found more =>
      cases found
      cases member
      rfl

theorem LastFiller.tokens {last : List Char} (h : LastFiller last) :
    (Tiling.ofText last).tokens = [] ∧ (Tiling.ofText last).rest = [] := by
  cases h with
  | closed filler =>
      have skipped := filler.goesOn []
      rw [List.append_nil, Tiling.ofText_nil] at skipped
      exact ⟨skipped.tokens, skipped.rest⟩
  | @lineComment gap comment filler found =>
      have alone := Tiling.goesOn_piece found (Pattern.endsAt_nil .lineComment)
      rw [List.append_nil, Tiling.ofText_nil] at alone
      have both := (filler.goesOn comment).trans alone
      exact ⟨both.tokens, both.rest⟩

theorem LastFiller.head_not_word {last : List Char} (h : LastFiller last) :
    ∀ c ∈ last.head?, Pattern.isWordChar c = false := by
  cases h with
  | closed filler => exact filler.head_not_word
  | @lineComment gap comment filler found =>
      cases gap with
      | nil =>
          intro c member
          cases found
          cases member
          rfl
      | cons d gap => exact filler.head_not_word

/-! ## Words -/

/-- Whether a token is written as a word, be it a name or a reserved one. -/
def Token.isWord : Token → Bool
  | .includePath _ => false
  | .symbol _ => false
  | _ => true

def Piece.isWord (piece : Piece) : Bool := piece.token.any Token.isWord

theorem Token.isWord_of_mem_reserved {entry : String × Token} (member : entry ∈ reserved) :
    entry.2.isWord = true := by
  simp only [reserved, List.mem_append, List.mem_map] at member
  rcases member with (⟨word, -, rfl⟩ | ⟨type, -, rfl⟩) | ⟨type, -, rfl⟩ <;> rfl

theorem Token.isWord_ofLowerWord (word : String) : (ofLowerWord word).isWord = true := by
  rcases ofLowerWord_cases word with ⟨same, -⟩ | member
  · rw [same]
    rfl
  · exact isWord_of_mem_reserved member

theorem Token.isWord_ofUpperWord (word : String) : (ofUpperWord word).isWord = true := by
  rcases ofUpperWord_cases word with ⟨same, -⟩ | member
  · rw [same]
    rfl
  · exact isWord_of_mem_reserved member

namespace Pattern

variable {p : Pattern} {piece : Piece}

/-- A token ends where it may, unless it is a word and more of a word follows. -/
theorem HasPiece.endsAt_of_token (h : p.HasPiece piece) (isToken : piece.token.isSome = true)
    {rest : List Char}
    (stops : piece.isWord = true → ∀ c ∈ rest.head?, isWordChar c = false) : p.EndsAt rest := by
  intro c member
  cases h with
  | @lowerWord text word =>
      have stopped := stops (by simp [Piece.isWord, Token.isWord_ofLowerWord]) c member
      simp [endsBefore, stopped]
  | @upperWord text word =>
      have stopped := stops (by simp [Piece.isWord, Token.isWord_ofUpperWord]) c member
      simp [endsBefore, stopped]
  | includeLine blank unclosed => rfl
  | symbol s => rfl
  | _ => cases isToken

/-- A token that is no word starts with no character that could go on with a word. -/
theorem HasPiece.head_not_word (h : p.HasPiece piece) (isToken : piece.token.isSome = true)
    (noWord : piece.isWord = false) (rest : List Char) :
    ∀ c ∈ (piece.text ++ rest).head?, isWordChar c = false := by
  intro c member
  cases h with
  | @lowerWord text word => simp [Piece.isWord, Token.isWord_ofLowerWord] at noWord
  | @upperWord text word => simp [Piece.isWord, Token.isWord_ofUpperWord] at noWord
  | includeLine blank unclosed =>
      cases member
      rfl
  | symbol s =>
      cases s <;> cases member <;> rfl
  | _ => cases isToken

end Pattern

/-! ## Spacings -/

/-- A piece with the gap in front of it. -/
structure SpacedPiece where
  gap : List Char
  piece : Piece

/-- Pieces with gaps around them. -/
structure Spacing where
  items : List SpacedPiece
  /-- The gap behind the last piece. -/
  last : List Char

namespace Spacing

def text (spacing : Spacing) : List Char :=
  spacing.items.flatMap (fun item => item.gap ++ item.piece.text) ++ spacing.last

def pieces (spacing : Spacing) : List Piece := spacing.items.map (·.piece)

/-- Whether all gaps are fillers, and none is empty between two words. -/
structure Proper (spacing : Spacing) : Prop where
  fillers : ∀ item ∈ spacing.items, Filler item.gap
  apart : spacing.items.IsChain fun item next =>
    item.piece.isWord = true → next.piece.isWord = true → next.gap ≠ []
  last : LastFiller spacing.last

variable {items : List SpacedPiece} {item : SpacedPiece} {last : List Char}

theorem Proper.tail (h : Proper ⟨item :: items, last⟩) : Proper ⟨items, last⟩ where
  fillers other member := h.fillers other (List.mem_cons_of_mem item member)
  apart := (List.isChain_cons.mp h.apart).2
  last := h.last

/-- Behind a word there is no character that could go on with it. -/
theorem Proper.stops (h : Proper ⟨item :: items, last⟩)
    (tokens : ∀ other ∈ items, other.piece.token.isSome = true ∧
      ∃ p : Pattern, p.HasPiece other.piece)
    (word : item.piece.isWord = true) :
    ∀ c ∈ (text ⟨items, last⟩).head?, Pattern.isWordChar c = false := by
  cases items with
  | nil => exact h.last.head_not_word
  | cons next items =>
      have filler := h.fillers next (by simp)
      obtain ⟨isToken, p, found⟩ := tokens next List.mem_cons_self
      rw [text, List.flatMap_cons, List.append_assoc, List.append_assoc]
      cases gap : next.gap with
      | cons c more =>
          rw [gap] at filler
          exact filler.head_not_word
      | nil =>
          have noWord : next.piece.isWord = false := by
            cases kind : next.piece.isWord with
            | false => rfl
            | true => exact absurd gap ((List.isChain_cons.mp h.apart).1 next rfl word kind)
          exact found.head_not_word isToken noWord _

/-- A text with proper gaps is cut into the tokens that it has between them. -/
theorem Proper.tokens {spacing : Spacing} (h : spacing.Proper)
    (tokens : ∀ piece ∈ spacing.pieces, piece.token.isSome = true ∧
      ∃ p : Pattern, p.HasPiece piece) :
    (Tiling.ofText spacing.text).tokens = spacing.pieces.filterMap (·.token) ∧
      (Tiling.ofText spacing.text).rest = [] := by
  obtain ⟨items, last⟩ := spacing
  induction items with
  | nil => exact h.last.tokens
  | cons item items ih =>
      obtain ⟨⟨isToken, p, found⟩, others⟩ := List.forall_mem_cons.mp tokens
      have stops := found.endsAt_of_token isToken (h.stops (List.forall_mem_map.mp others))
      have first := ((h.fillers item List.mem_cons_self).goesOn _).trans
        (Tiling.goesOn_piece found stops)
      obtain ⟨tokensAfter, restAfter⟩ := ih h.tail others
      have whole : text ⟨item :: items, last⟩ =
          item.gap ++ (item.piece.text ++ text ⟨items, last⟩) := by simp [text]
      rw [whole, first.tokens, first.rest, tokensAfter]
      refine ⟨?_, restAfter⟩
      obtain ⟨token, kind⟩ := Option.isSome_iff_exists.mp isToken
      simp [pieces, kind]

end Spacing

namespace Interface

/-- A text whose tokens stand in other gaps says the same, or it fails for the same reason at the
same token. -/
theorem ofText_respaced (name : String) (verbose : Bool) {text : String} {pieces : List Piece}
    {spacing : Spacing} (laid : LaidOut text.toList pieces [])
    (tokens : spacing.pieces = pieces.filter (·.token.isSome)) (proper : spacing.Proper) :
    (∃ interface, ofText name verbose text = .ok interface ∧
      ofText name verbose (String.ofList spacing.text) = .ok interface) ∨
    ∃ failure moved i, ofText name verbose text = .error failure ∧
      ofText name verbose (String.ofList spacing.text) = .error moved ∧
      failure.reason = moved.reason ∧ failure.StandsAt text.toList i ∧
      moved.StandsAt spacing.text i := by
  have found : ∀ piece ∈ spacing.pieces, piece.token.isSome = true ∧
      ∃ p : Pattern, p.HasPiece piece := by
    intro piece member
    rw [tokens] at member
    obtain ⟨inPieces, isToken⟩ := List.mem_filter.mp member
    exact ⟨isToken, laid.exists_pattern inPieces⟩
  obtain ⟨movedTokens, movedRest⟩ := proper.tokens found
  have tiling := Tiling.laidOut_nil_iff.mp laid
  have rest : (Tiling.ofText text.toList).rest = [] := by rw [tiling]
  have kept : (pieces.filter (·.token.isSome)).filterMap (·.token) =
      pieces.filterMap (·.token) := by
    rw [List.filterMap_filter]
    congr 1
    funext piece
    cases piece.token <;> rfl
  have sameTokens : (Tiling.ofText text.toList).tokens = (Tiling.ofText spacing.text).tokens := by
    rw [movedTokens, tokens, kept, tiling]
    rfl
  have same := Tiling.classes_congr sameTokens rest movedRest
  rw [ofText_eq_classes, ofText_eq_classes, String.toList_ofList, ← same]
  cases classes : (Tiling.ofText text.toList).classes with
  | ok classes => exact .inl ⟨_, rfl, rfl⟩
  | error fault =>
      refine .inr ⟨_, _, fault.token, rfl, rfl, fault.reason_failure _ _, ?_, ?_⟩
      · exact Tiling.standsAt_of_fault rest classes
      · exact Tiling.standsAt_of_fault movedRest (same.symm.trans classes)

/-- A comment parts two words, nothing parts the end of a namespace from its name, and the text may
end in an open comment. -/
theorem ofText_respaced_namespace : ∃ (pieces : List Piece) (spacing : Spacing),
    LaidOut "namespace a \x7b class A \x7b \x7d; \x7d///\\namespace a".toList pieces [] ∧
    spacing.pieces = pieces.filter (·.token.isSome) ∧ spacing.Proper ∧
    spacing.text = "namespace/**/a\x7bclass\nA\x7b\x7d;\x7d///\\namespacea//".toList ∧
    ∃ interface,
      ofText "" false "namespace a \x7b class A \x7b \x7d; \x7d///\\namespace a" = .ok interface ∧
      ofText "" false (String.ofList spacing.text) = .ok interface := by
  let text := "namespace a \x7b class A \x7b \x7d; \x7d///\\namespace a"
  have complete : (Tiling.ofText text.toList).rest = [] := by decide +kernel
  have laid := Tiling.laidOut text.toList
  rw [complete] at laid
  have feed : Filler ['\n'] := .layout rfl .nil
  have comment : Filler ['/', '*', '*', '/'] :=
    .blockComment (@Pattern.HasPiece.blockComment [] (by decide)) .nil
  have lastComment : LastFiller ['/', '/'] :=
    .lineComment .nil (@Pattern.HasPiece.lineComment [] (by simp))
  let word (gap : List Char) (name : String) (token : Token) : SpacedPiece :=
    ⟨gap, name.toList, some token⟩
  let mark (s : Symbol) : SpacedPiece := ⟨[], s.spelling, some (.symbol s)⟩
  let spacing : Spacing := ⟨[word [] "namespace" (.keyword .namespaceWord),
    word ['/', '*', '*', '/'] "a" (.lower "a"), mark .openBrace,
    word [] "class" (.keyword .classWord), word ['\n'] "A" (.upper "A"), mark .openBrace,
    mark .endClass, mark .endNamespace, word [] "a" (.lower "a")], ['/', '/']⟩
  have proper : spacing.Proper := by
    refine ⟨?_, ?_, lastComment⟩
    · simp [spacing, word, mark, Filler.nil, feed, comment]
    · simp [spacing, word, mark, Piece.isWord, Token.isWord]
  have tokens : spacing.pieces = (Tiling.ofText text.toList).pieces.filter (·.token.isSome) := by
    decide +kernel
  refine ⟨_, spacing, laid, tokens, proper, by decide +kernel, ?_⟩
  rcases ofText_respaced "" false laid tokens proper with same | ⟨failure, _, _, refused, -⟩
  · exact same
  · have accepted : ofText "" false text =
        .ok { classes := [{ name := "A", namespaces := ["a"] }] } := by decide +kernel
    rw [refused] at accepted
    cases accepted

end Interface

end MexGlue
