import Mathlib.Data.List.MinMax
import Mathlib.Data.List.Nodup
import MexGlue.Proofs.Tiling.Spelling

/-!
# The one way to cut a text

Wherever some pattern has a piece, no other pattern has one. So it does not matter in which order the
patterns are tried, whether the longest piece is preferred, or by which rule else a piece is chosen:
every text is cut in one way. Words are as long as they can be, which is why reserved words are told
by the whole word, and an include line ends at the first bracket that closes it.
-/

namespace MexGlue

/-! ## Rules that choose a piece -/

namespace Piece

/-- The piece at the front of a text, if the patterns are tried in this order. -/
def firstIn? (order : List Pattern) (s : List Char) : Option (Piece × List Char) :=
  order.findSome? fun p => p.take? s

/-- The longest piece that any pattern has at the front of a text. -/
def longest? (s : List Char) : Option (Piece × List Char) :=
  (Pattern.all.filterMap fun p => p.take? s).argmax fun found => found.1.text.length

/-- Whether a rule takes what some pattern takes, and takes nothing only where none does. -/
structure Chooses (choose : List Char → Option (Piece × List Char)) : Prop where
  taken : ∀ s found, choose s = some found → ∃ p : Pattern, p.take? s = some found
  stuck : ∀ s, choose s = none → ∀ p : Pattern, p.take? s = none

/-- All rules choose alike. -/
theorem Chooses.eq_first? {choose : List Char → Option (Piece × List Char)} (h : Chooses choose) :
    choose = first? := by
  funext s
  cases chosen : choose s with
  | none => exact (first?_eq_none_iff.mpr (h.stuck s chosen)).symm
  | some found =>
      obtain ⟨p, taken⟩ := h.taken s found chosen
      exact (first?_of_take? taken).symm

theorem chooses_firstIn? {order : List Pattern} (complete : ∀ p, p ∈ order) :
    Chooses (firstIn? order) where
  taken s found chosen := by
    obtain ⟨p, -, taken⟩ := List.exists_of_findSome?_eq_some chosen
    exact ⟨p, taken⟩
  stuck s nothing p := List.findSome?_eq_none_iff.mp nothing p (complete p)

theorem chooses_longest? : Chooses longest? where
  taken s found chosen := by
    have member := List.argmax_mem (Option.mem_def.mpr chosen)
    obtain ⟨p, -, taken⟩ := List.mem_filterMap.mp member
    exact ⟨p, taken⟩
  stuck s nothing p := by
    have noPieces := List.argmax_eq_none.mp nothing
    exact List.filterMap_eq_nil_iff.mp noPieces p p.mem_all

end Piece

/-! ## Cutting with a choice at each position -/

namespace Tiling

/-- The ways to cut a text: at each position any pattern may be used that takes something there, and
the cutting ends only where none does. -/
inductive Cuts : List Char → Tiling → Prop where
  | stop {s : List Char} (stuck : ∀ p : Pattern, p.take? s = none) : Cuts s ⟨[], s⟩
  | piece {p : Pattern} {s after : List Char} {piece : Piece} {tiling : Tiling}
      (taken : p.take? s = some (piece, after)) (behind : Cuts after tiling) :
      Cuts s ⟨piece :: tiling.pieces, tiling.rest⟩

variable {s : List Char} {tiling : Tiling}

theorem Cuts.eq_ofText (h : Cuts s tiling) : tiling = ofText s := by
  induction h with
  | stop stuck => rw [ofText_of_none (Piece.first?_eq_none_iff.mpr stuck)]
  | piece taken behind ih => rw [ofText_of_some (Piece.first?_of_take? taken), ← ih]

theorem cuts_ofText (s : List Char) : Cuts s (ofText s) := by
  induction hn : s.length using Nat.strongRecOn generalizing s with
  | ind n ih =>
      cases h : Piece.first? s with
      | none =>
          rw [ofText_of_none h]
          exact .stop (Piece.first?_eq_none_iff.mp h)
      | some found =>
          obtain ⟨piece, after⟩ := found
          have shorter := Piece.first?_length h
          obtain ⟨p, -, taken⟩ := List.exists_of_findSome?_eq_some h
          rw [ofText_of_some h]
          exact .piece taken (ih after.length (by omega) after rfl)

theorem cuts_iff : Cuts s tiling ↔ tiling = ofText s :=
  ⟨Cuts.eq_ofText, fun same => same ▸ cuts_ofText s⟩

end Tiling

/-! ## Words -/

theorem LaidOut.exists_hasPiece {s rest : List Char} {before after : List Piece} {piece : Piece}
    (h : LaidOut s (before ++ piece :: after) rest) :
    ∃ p : Pattern, p.HasPiece piece ∧ p.EndsAt (after.flatMap (·.text) ++ rest) := by
  obtain ⟨middle, -, behind⟩ := h.of_append
  cases behind with
  | cons piece_of stops laid => exact ⟨_, piece_of, laid.text_eq ▸ stops⟩

namespace Token

theorem nodup_reserved_words : (reserved.map Prod.fst).Nodup := by decide

theorem nodup_reserved_tokens : (reserved.map Prod.snd).Nodup := by decide

theorem not_mem_reserved_upper (word name : String) : (word, upper name) ∉ reserved := by
  simp [reserved]

theorem not_mem_reserved_includePath (word path : String) :
    (word, includePath path) ∉ reserved := by
  simp [reserved]

theorem not_mem_reserved_symbol (word : String) (s : Symbol) : (word, symbol s) ∉ reserved := by
  simp [reserved]

theorem exists_letter_of_mem_reserved {entry : String × Token} (member : entry ∈ reserved) :
    ∃ c ∈ entry.1.toList.head?, c.isLower = true ∨ c.isUpper = true := by
  have letters : ∀ entry ∈ reserved,
      (entry.1.toList.head?.any fun c => c.isLower || c.isUpper) = true := by decide
  obtain ⟨c, first, letter⟩ := (Option.any_eq_true _ _).mp (letters entry member)
  exact ⟨c, first, by simpa using letter⟩

/-- The token of a word tells exactly which reserved word it is, if it is one. -/
theorem getD_lookup_eq_iff {word : String} {name : Token} (free : ∀ other, (other, name) ∉ reserved)
    {entry : String × Token} (member : entry ∈ reserved) :
    (reserved.lookup word).getD name = entry.2 ↔ word = entry.1 := by
  constructor
  · intro same
    rcases getD_lookup_cases word name with ⟨isName, -⟩ | found
    · rw [isName] at same
      exact absurd (same ▸ member) (free entry.1)
    · exact congrArg Prod.fst (List.inj_on_of_nodup_map nodup_reserved_tokens found member same)
  · intro same
    rcases getD_lookup_cases word name with ⟨-, unreserved⟩ | found
    · rw [same, ← map_fst_reserved] at unreserved
      exact absurd (List.mem_map_of_mem member) unreserved
    · exact congrArg Prod.snd (List.inj_on_of_nodup_map nodup_reserved_words found member same)

end Token

namespace Pattern

variable {p : Pattern} {piece : Piece} {c : Char}

theorem HasPiece.eq_lowerWord (h : p.HasPiece piece) (first : c ∈ piece.text.head?)
    (kind : c.isLower = true) : p = .lowerWord := by
  have front := ofFront_append h []
  obtain ⟨rest, spelled⟩ := List.head?_eq_some_iff.mp first
  rw [spelled, List.append_nil, ofFront, if_pos kind] at front
  exact (Option.some.inj front).symm

theorem HasPiece.eq_upperWord (h : p.HasPiece piece) (first : c ∈ piece.text.head?)
    (kind : c.isUpper = true) : p = .upperWord := by
  have front := ofFront_append h []
  obtain ⟨rest, spelled⟩ := List.head?_eq_some_iff.mp first
  rw [spelled, List.append_nil, ofFront, if_neg (by simp [not_isLower_of_isUpper kind]),
    if_pos kind] at front
  exact (Option.some.inj front).symm

theorem HasPiece.eq_includeLine (h : p.HasPiece piece) (first : '#' ∈ piece.text.head?) :
    p = .includeLine := by
  have front := ofFront_append h []
  obtain ⟨rest, spelled⟩ := List.head?_eq_some_iff.mp first
  rw [spelled, List.append_nil] at front
  exact (Option.some.inj front).symm

/-- A piece has the token of a reserved word exactly if it is this word as a whole. -/
theorem HasPiece.token_eq_iff (h : p.HasPiece piece) {entry : String × Token}
    (member : entry ∈ Token.reserved) :
    piece.token = some entry.2 ↔ String.ofList piece.text = entry.1 := by
  obtain ⟨c, first, letter⟩ := Token.exists_letter_of_mem_reserved member
  -- Only words start with a letter, so no other piece can read like a reserved word.
  have apart (notWord : p ≠ .lowerWord ∧ p ≠ .upperWord) :
      String.ofList piece.text ≠ entry.1 := by
    intro same
    rw [← same, String.toList_ofList] at first
    rcases letter with lower | upper
    · exact notWord.1 (h.eq_lowerWord first lower)
    · exact notWord.2 (h.eq_upperWord first upper)
  cases h with
  | lowerWord word =>
      rw [Option.some.injEq]
      exact Token.getD_lookup_eq_iff (fun other => Token.not_mem_reserved_lower other _) member
  | upperWord word =>
      rw [Option.some.injEq]
      exact Token.getD_lookup_eq_iff (fun other => Token.not_mem_reserved_upper other _) member
  | includeLine blank unclosed =>
      refine iff_of_false (fun same => ?_) (apart (by simp))
      obtain ⟨word, token⟩ := entry
      cases same
      exact Token.not_mem_reserved_includePath word _ member
  | symbol s =>
      refine iff_of_false (fun same => ?_) (apart (by simp))
      obtain ⟨word, token⟩ := entry
      cases same
      exact Token.not_mem_reserved_symbol word s member
  | layout nonempty all => exact iff_of_false nofun (apart (by simp))
  | blockComment unclosed => exact iff_of_false nofun (apart (by simp))
  | lineComment oneLine => exact iff_of_false nofun (apart (by simp))

end Pattern

/-! ## The only way -/

/-- Whether a piece is an include line that ends at its first closing bracket, with all that stands
behind its first opening bracket as its path. -/
structure Piece.IsIncludeLine (piece : Piece) (gap path : List Char) : Prop where
  spelled : piece.text = Pattern.includeOpening ++ gap ++ '<' :: path ++ ['>']
  blank : ∀ c ∈ gap, Text.isBlank c = true
  opened : '<' ∉ Pattern.includeOpening ++ gap
  closed : '>' ∉ Pattern.includeOpening ++ gap ++ '<' :: path
  token : piece.token = some (.includePath (String.ofList path))

theorem Pattern.HasPiece.exists_isIncludeLine {piece : Piece}
    (h : Pattern.includeLine.HasPiece piece) : ∃ gap path, piece.IsIncludeLine gap path := by
  cases h with
  | @includeLine gap path blank unclosed =>
      have notBlank {c : Char} (mark : Text.isBlank c = false) : c ∉ gap := by
        intro member
        rw [blank c member] at mark
        cases mark
      have opened : '<' ∉ Pattern.includeOpening ++ gap := by
        rw [List.mem_append, not_or]
        exact ⟨by decide, notBlank rfl⟩
      have closed : '>' ∉ Pattern.includeOpening ++ gap ++ '<' :: path := by
        simp only [List.mem_append, List.mem_cons, not_or]
        exact ⟨⟨by decide, notBlank rfl⟩, by decide, unclosed⟩
      exact ⟨gap, path, rfl, blank, opened, closed, rfl⟩

namespace Tiling

/-- What it is for the tiling of a text to be the only one. -/
structure IsOnlyCut (s : List Char) : Prop where
  nonempty : ∀ piece ∈ (ofText s).pieces, piece.text ≠ []
  /-- The pieces are the text up to a position where no pattern takes anything, be it its end. -/
  covers : ∃ n, (ofText s).pieces.flatMap (·.text) = s.take n ∧ (ofText s).rest = s.drop n ∧
    ∀ p : Pattern, p.take? (s.drop n) = none
  onePattern : ∀ (n : Nat) (p q : Pattern) (first second : Piece × List Char),
    p.take? (s.drop n) = some first → q.take? (s.drop n) = some second → p = q
  anyOrder : ∀ order : List Pattern, (∀ p, p ∈ order) →
    ∀ n, Piece.firstIn? order (s.drop n) = Piece.first? (s.drop n)
  longest : ∀ n, Piece.longest? (s.drop n) = Piece.first? (s.drop n)
  anyChoice : ∀ tiling, Cuts s tiling ↔ tiling = ofText s
  /-- A piece that starts with a letter is a word, and no word character stands behind it. -/
  word : ∀ before piece after, (ofText s).pieces = before ++ piece :: after →
    ∀ first ∈ piece.text.head?, first.isLower = true ∨ first.isUpper = true →
      (∀ c ∈ piece.text, Pattern.isWordChar c = true) ∧
      ∀ c ∈ (after.flatMap (·.text) ++ (ofText s).rest).head?, Pattern.isWordChar c = false
  /-- A piece is reported as a reserved word exactly if it is that word as a whole. -/
  reserved : ∀ piece ∈ (ofText s).pieces, ∀ entry ∈ Token.reserved,
    piece.token = some entry.2 ↔ String.ofList piece.text = entry.1
  /-- Other words are reported as names of the kind of their first letter. -/
  name : ∀ piece ∈ (ofText s).pieces, String.ofList piece.text ∉ reservedWords →
    ∀ first ∈ piece.text.head?,
      (first.isLower = true → piece.token = some (.lower (String.ofList piece.text))) ∧
      (first.isUpper = true → piece.token = some (.upper (String.ofList piece.text)))
  includeLine : ∀ piece ∈ (ofText s).pieces, '#' ∈ piece.text.head? →
    ∃ gap path, piece.IsIncludeLine gap path

variable (s : List Char)

theorem exists_hasPiece {piece : Piece} (member : piece ∈ (ofText s).pieces) :
    ∃ p : Pattern, p.HasPiece piece := (laidOut s).exists_pattern member

theorem covers_ofText : ∃ n, (ofText s).pieces.flatMap (·.text) = s.take n ∧
    (ofText s).rest = s.drop n ∧ ∀ p : Pattern, p.take? (s.drop n) = none := by
  have whole := ofText_concat s
  have stuck := Piece.first?_eq_none_iff.mp (first?_rest s)
  have behind := List.drop_left.symm.trans (congrArg (List.drop _) whole)
  refine ⟨((ofText s).pieces.flatMap (·.text)).length, ?_, ?_, ?_⟩
  · exact List.take_left.symm.trans (congrArg (List.take _) whole)
  · exact behind
  · rwa [← behind]

theorem word_ofText {before after : List Piece} {piece : Piece}
    (split : (ofText s).pieces = before ++ piece :: after) {first : Char}
    (atFront : first ∈ piece.text.head?) (letter : first.isLower = true ∨ first.isUpper = true) :
    (∀ c ∈ piece.text, Pattern.isWordChar c = true) ∧
      ∀ c ∈ (after.flatMap (·.text) ++ (ofText s).rest).head?, Pattern.isWordChar c = false := by
  have laid := laidOut s
  rw [split] at laid
  obtain ⟨p, found, stops⟩ := laid.exists_hasPiece
  rcases letter with lower | upper
  · cases found.eq_lowerWord atFront lower
    cases found with
    | lowerWord word =>
        refine ⟨word.isWordChar fun c => Pattern.isWordChar_of_isLower, fun c behind => ?_⟩
        simpa [Pattern.endsBefore] using stops c behind
  · cases found.eq_upperWord atFront upper
    cases found with
    | upperWord word =>
        refine ⟨word.isWordChar fun c => Pattern.isWordChar_of_isUpper, fun c behind => ?_⟩
        simpa [Pattern.endsBefore] using stops c behind

theorem name_ofText {piece : Piece} (member : piece ∈ (ofText s).pieces)
    (free : String.ofList piece.text ∉ reservedWords) {first : Char}
    (atFront : first ∈ piece.text.head?) :
    (first.isLower = true → piece.token = some (.lower (String.ofList piece.text))) ∧
      (first.isUpper = true → piece.token = some (.upper (String.ofList piece.text))) := by
  obtain ⟨p, found⟩ := exists_hasPiece s member
  have unreserved := Token.lookup_reserved_eq_none_iff.mpr free
  constructor
  · intro lower
    cases found.eq_lowerWord atFront lower
    cases found with
    | lowerWord word => rw [Token.ofLowerWord, unreserved, Option.getD_none]
  · intro upper
    cases found.eq_upperWord atFront upper
    cases found with
    | upperWord word => rw [Token.ofUpperWord, unreserved, Option.getD_none]

/-- Every text is cut in one way only, by whatever rule a pattern is chosen at each position. -/
theorem ofText_isOnlyCut : IsOnlyCut s where
  nonempty piece member := by
    obtain ⟨p, found⟩ := exists_hasPiece s member
    exact found.text_ne_nil
  covers := covers_ofText s
  onePattern n p q first second := Pattern.eq_of_take?_eq_some
  anyOrder order complete n :=
    congrFun (Piece.chooses_firstIn? complete).eq_first? (s.drop n)
  longest n := congrFun Piece.chooses_longest?.eq_first? (s.drop n)
  anyChoice tiling := cuts_iff
  word before piece after split first atFront := word_ofText s split atFront
  reserved piece member entry inReserved := by
    obtain ⟨p, found⟩ := exists_hasPiece s member
    exact found.token_eq_iff inReserved
  name piece member free first atFront := name_ofText s member free atFront
  includeLine piece member first := by
    obtain ⟨p, found⟩ := exists_hasPiece s member
    cases found.eq_includeLine first
    exact found.exists_isIncludeLine

end Tiling

end MexGlue
