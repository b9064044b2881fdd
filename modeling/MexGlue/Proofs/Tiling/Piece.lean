import MexGlue.Interface.Tiling

/-!
# The pieces of each pattern

A pattern is described by the pieces that it has and by the characters that may follow them; taking
a piece from the front of a text is exactly finding such a piece there. The first two characters
settle which pattern a piece has, so the order in which patterns are tried does not matter.
-/

namespace MexGlue

/-- A character of the given kind with word characters behind it. -/
def IsWord (starts : Char → Bool) (text : List Char) : Prop :=
  ∃ first rest, text = first :: rest ∧ starts first = true ∧
    ∀ c ∈ rest, Pattern.isWordChar c = true

theorem IsWord.ne_nil {starts : Char → Bool} {text : List Char} (h : IsWord starts text) :
    text ≠ [] := by
  obtain ⟨first, rest, rfl, -, -⟩ := h
  simp

theorem Pattern.isWordChar_of_isLower {c : Char} (h : c.isLower = true) :
    isWordChar c = true := by
  change ((c.isUpper || c.isLower || c.isDigit) || c == '_') = true
  simp [h]

theorem Pattern.isWordChar_of_isUpper {c : Char} (h : c.isUpper = true) :
    isWordChar c = true := by
  change ((c.isUpper || c.isLower || c.isDigit) || c == '_') = true
  simp [h]

/-- No character is one of layout and of words. -/
theorem Pattern.not_isWordChar_of_isLayoutChar {c : Char} (h : isLayoutChar c = true) :
    isWordChar c = false := by
  simp only [isLayoutChar, Bool.or_eq_true, beq_iff_eq] at h
  rcases h with (((rfl | rfl) | rfl) | rfl) | rfl <;> rfl

theorem Pattern.not_isLayoutChar_of_isWordChar {c : Char} (h : isWordChar c = true) :
    isLayoutChar c = false := by
  cases kind : isLayoutChar c with
  | false => rfl
  | true => exact absurd h (by simp [not_isWordChar_of_isLayoutChar kind])

theorem IsWord.isWordChar {starts : Char → Bool} {text : List Char} (h : IsWord starts text)
    (kind : ∀ c, starts c = true → Pattern.isWordChar c = true) :
    ∀ c ∈ text, Pattern.isWordChar c = true := by
  obtain ⟨first, rest, rfl, start, word⟩ := h
  exact List.forall_mem_cons.mpr ⟨kind first start, word⟩

namespace Pattern

/-- The pieces of each pattern, with their tokens. -/
inductive HasPiece : Pattern → Piece → Prop where
  | lowerWord {text : List Char} (word : IsWord Char.isLower text) :
      HasPiece .lowerWord ⟨text, some (Token.ofLowerWord (String.ofList text))⟩
  | upperWord {text : List Char} (word : IsWord Char.isUpper text) :
      HasPiece .upperWord ⟨text, some (Token.ofUpperWord (String.ofList text))⟩
  | includeLine {gap path : List Char} (blank : ∀ c ∈ gap, Text.isBlank c = true)
      (unclosed : '>' ∉ path) :
      HasPiece .includeLine ⟨includeOpening ++ gap ++ '<' :: path ++ ['>'],
        some (.includePath (String.ofList path))⟩
  | layout {text : List Char} (nonempty : text ≠ []) (all : ∀ c ∈ text, isLayoutChar c = true) :
      HasPiece .layout ⟨text, none⟩
  /-- The first end of the comment is the one at its end. -/
  | blockComment {body : List Char} (unclosed : ¬ ['*', '/'] <:+: body ++ ['*']) :
      HasPiece .blockComment ⟨['/', '*'] ++ body ++ ['*', '/'], none⟩
  | lineComment {body : List Char} (oneLine : '\n' ∉ body) :
      HasPiece .lineComment ⟨['/', '/'] ++ body, none⟩
  | symbol (s : Symbol) : HasPiece (.symbol s) ⟨s.spelling, some (.symbol s)⟩

/-- Whether a piece of this pattern may end in front of this character. Words, layout and line
comments are as long as they can be. -/
def endsBefore : Pattern → Char → Bool
  | .lowerWord, c => !isWordChar c
  | .upperWord, c => !isWordChar c
  | .layout, c => !isLayoutChar c
  | .lineComment, c => c == '\n'
  | _, _ => true

/-- Whether a piece of this pattern may end in front of this text. -/
def EndsAt (p : Pattern) (rest : List Char) : Prop := ∀ c ∈ rest.head?, p.endsBefore c = true

@[simp] theorem endsAt_nil (p : Pattern) : p.EndsAt [] := by
  intro c member
  cases member

theorem EndsAt.of_head?_eq {p : Pattern} {rest other : List Char} (h : p.EndsAt rest)
    (same : other.head? = rest.head?) : p.EndsAt other := by
  intro c member
  rw [same] at member
  exact h c member

theorem HasPiece.text_ne_nil {p : Pattern} {piece : Piece} (h : p.HasPiece piece) :
    piece.text ≠ [] := by
  cases h with
  | lowerWord word => exact word.ne_nil
  | upperWord word => exact word.ne_nil
  | layout nonempty all => exact nonempty
  | symbol s => exact s.spelling_ne_nil
  | _ => simp

/-! ## Runs of one kind of character -/

section Runs

variable {q : Char → Bool} {run rest s : List Char}

theorem takeWhile_run (all : ∀ c ∈ run, q c = true) (stops : ∀ c ∈ rest.head?, q c = false) :
    (run ++ rest).takeWhile q = run := by
  rw [List.takeWhile_append_of_pos all]
  cases rest with
  | nil => simp
  | cons c rest => simp [stops c rfl]

theorem dropWhile_run (all : ∀ c ∈ run, q c = true) (stops : ∀ c ∈ rest.head?, q c = false) :
    (run ++ rest).dropWhile q = rest := by
  rw [List.dropWhile_append_of_pos all]
  cases rest with
  | nil => rfl
  | cons c rest => simp [stops c rfl]

theorem takeWhile_all (c : Char) (member : c ∈ s.takeWhile q) : q c = true :=
  List.all_eq_true.mp List.all_takeWhile c member

theorem dropWhile_stops (c : Char) (member : c ∈ (s.dropWhile q).head?) : q c = false := by
  have stopped := List.head?_dropWhile_not q s
  rw [Option.mem_def.mp member] at stopped
  simpa using stopped

end Runs

theorem takeWord_eq_some_iff {starts : Char → Bool} {s taken rest : List Char} :
    takeWord starts s = some (taken, rest) ↔
      s = taken ++ rest ∧ IsWord starts taken ∧ ∀ c ∈ rest.head?, isWordChar c = false := by
  constructor
  · intro h
    cases s with
    | nil => cases h
    | cons first s =>
        simp only [takeWord, Option.ite_none_right_eq_some, Option.some.injEq,
          Prod.mk.injEq] at h
        obtain ⟨kind, rfl, rfl⟩ := h
        exact ⟨by simp, ⟨first, _, rfl, kind, takeWhile_all⟩, dropWhile_stops⟩
  · intro h
    rcases h with ⟨rfl, ⟨first, run, rfl, kind, all⟩, stops⟩
    rw [List.cons_append, takeWord, if_pos kind, takeWhile_run all stops, dropWhile_run all stops]

theorem takePath_eq_some_iff {s path rest : List Char} :
    takePath s = some (path, rest) ↔ s = path ++ '>' :: rest ∧ '>' ∉ path := by
  constructor
  · intro h
    refine ⟨takePath_eq_append h, ?_⟩
    unfold takePath at h
    split at h <;> cases h
    intro member
    have open' := takeWhile_all _ member
    simp at open'
  · intro h
    rcases h with ⟨rfl, unclosed⟩
    have all : ∀ c ∈ path, (c != '>') = true := by
      intro c member
      simp only [bne_iff_ne, ne_eq]
      intro same
      exact unclosed (same ▸ member)
    have stops : ∀ c ∈ ('>' :: rest).head?, (c != '>') = false := by simp
    rw [takePath, dropWhile_run all stops, takeWhile_run all stops]

theorem takeInclude_eq_some_iff {s gap path rest : List Char} :
    takeInclude s = some (gap, path, rest) ↔
      s = gap ++ '<' :: path ++ '>' :: rest ∧ (∀ c ∈ gap, Text.isBlank c = true) ∧
        '>' ∉ path := by
  constructor
  · intro h
    refine ⟨takeInclude_eq_append h, ?_⟩
    unfold takeInclude at h
    split at h
    · obtain ⟨⟨p, r⟩, found, same⟩ := Option.map_eq_some_iff.mp h
      cases same
      exact ⟨takeWhile_all, (takePath_eq_some_iff.mp found).2⟩
    · cases h
  · intro h
    rcases h with ⟨rfl, blank, unclosed⟩
    have stops : ∀ c ∈ ('<' :: (path ++ '>' :: rest)).head?, Text.isBlank c = false := by
      intro c member
      cases member
      decide
    have found : takePath (path ++ '>' :: rest) = some (path, rest) :=
      takePath_eq_some_iff.mpr ⟨rfl, unclosed⟩
    rw [List.append_assoc, List.cons_append, takeInclude, dropWhile_run blank stops,
      takeWhile_run blank stops]
    simp [found]

/-- A comment's text ends with the first end of a comment in it. -/
theorem exists_body_of_takeComment {s taken rest : List Char}
    (h : takeComment s = some (taken, rest)) :
    ∃ body, taken = body ++ ['*', '/'] ∧ s = taken ++ rest ∧ ¬ ['*', '/'] <:+: body ++ ['*'] := by
  induction s generalizing taken with
  | nil => cases h
  | cons c s ih =>
      unfold takeComment at h
      split at h
      · cases h
        refine ⟨[], rfl, rfl, ?_⟩
        intro early
        have short := early.length_le
        simp at short
      · rename_i notEnd
        obtain ⟨⟨inner, after⟩, found, same⟩ := Option.map_eq_some_iff.mp h
        cases same
        obtain ⟨body, rfl, rfl, unclosed⟩ := ih found
        refine ⟨c :: body, rfl, rfl, ?_⟩
        rw [List.cons_append, List.infix_cons_iff, not_or]
        refine ⟨fun opening => ?_, unclosed⟩
        rw [List.cons_prefix_cons] at opening
        obtain ⟨rfl, slash⟩ := opening
        cases body with
        | nil => simp at slash
        | cons d body =>
            simp only [List.cons_append, List.cons_prefix_cons, List.nil_prefix, and_true] at slash
            subst slash
            exact notEnd _ rfl rfl

theorem takeComment_append {body : List Char} (unclosed : ¬ ['*', '/'] <:+: body ++ ['*'])
    (rest : List Char) :
    takeComment (body ++ ['*', '/'] ++ rest) = some (body ++ ['*', '/'], rest) := by
  induction body with
  | nil => rfl
  | cons c body ih =>
      rw [List.cons_append, List.infix_cons_iff, not_or] at unclosed
      simp only [List.cons_append]
      unfold takeComment
      split
      · rename_i after early
        refine absurd ?_ unclosed.1
        cases body with
        | nil => cases early
        | cons d body =>
            cases early
            simp
      · rw [ih unclosed.2]
        rfl

/-! ## Taking and having -/

/-- Whether a pattern takes from the front of a text just its pieces that end where they may. -/
def TakesPieces (p : Pattern) : Prop := ∀ s piece rest,
  p.take? s = some (piece, rest) ↔ s = piece.text ++ rest ∧ p.HasPiece piece ∧ p.EndsAt rest

theorem takesPieces_of_takeWord {p : Pattern} {starts : Char → Bool}
    {token : List Char → Option Token}
    (takes : ∀ s, p.take? s =
      (takeWord starts s).map fun found => (⟨found.1, token found.1⟩, found.2))
    (pieces : ∀ piece, p.HasPiece piece ↔
      IsWord starts piece.text ∧ piece.token = token piece.text)
    (ends : ∀ c, p.endsBefore c = !isWordChar c) : p.TakesPieces := by
  intro s piece rest
  simp only [takes, pieces, Option.map_eq_some_iff, Prod.mk.injEq, EndsAt, ends,
    Bool.not_eq_true']
  constructor
  · rintro ⟨⟨taken, after⟩, found, rfl, rfl⟩
    obtain ⟨whole, word, stops⟩ := takeWord_eq_some_iff.mp found
    exact ⟨whole, ⟨word, rfl⟩, stops⟩
  · rintro ⟨rfl, ⟨word, isToken⟩, stops⟩
    refine ⟨(piece.text, rest), takeWord_eq_some_iff.mpr ⟨rfl, word, stops⟩, ?_, rfl⟩
    rw [← isToken]

theorem takesPieces_lowerWord : TakesPieces .lowerWord := by
  let token (text : List Char) : Option Token := some (Token.ofLowerWord (String.ofList text))
  refine @takesPieces_of_takeWord .lowerWord Char.isLower token (fun _ => rfl)
    (fun piece => ⟨?_, ?_⟩) fun _ => rfl
  · intro found
    cases found with
    | lowerWord word => exact ⟨word, rfl⟩
  · obtain ⟨text, given⟩ := piece
    rintro ⟨word, same⟩
    cases show given = token text from same
    exact .lowerWord word

theorem takesPieces_upperWord : TakesPieces .upperWord := by
  let token (text : List Char) : Option Token := some (Token.ofUpperWord (String.ofList text))
  refine @takesPieces_of_takeWord .upperWord Char.isUpper token (fun _ => rfl)
    (fun piece => ⟨?_, ?_⟩) fun _ => rfl
  · intro found
    cases found with
    | upperWord word => exact ⟨word, rfl⟩
  · obtain ⟨text, given⟩ := piece
    rintro ⟨word, same⟩
    cases show given = token text from same
    exact .upperWord word

theorem takesPieces_includeLine : TakesPieces .includeLine := by
  intro s piece rest
  simp only [take?, Option.bind_eq_some_iff, Option.map_eq_some_iff, Prod.mk.injEq,
    isPrefixOf?_eq_some_iff]
  constructor
  · rintro ⟨after, rfl, ⟨gap, path, tail⟩, found, rfl, rfl⟩
    obtain ⟨whole, blank, unclosed⟩ := takeInclude_eq_some_iff.mp found
    exact ⟨by simp [whole], .includeLine blank unclosed, fun _ _ => rfl⟩
  · rintro ⟨rfl, found, -⟩
    cases found with
    | includeLine blank unclosed =>
        refine ⟨_, ?_, (_, _, rest), takeInclude_eq_some_iff.mpr ⟨rfl, blank, unclosed⟩, rfl, rfl⟩
        simp

theorem takesPieces_layout : TakesPieces .layout := by
  intro s piece rest
  simp only [take?, EndsAt, endsBefore, Bool.not_eq_true']
  constructor
  · intro h
    split at h
    · cases h
    · rename_i run nonempty
      cases h
      exact ⟨List.takeWhile_append_dropWhile.symm, .layout nonempty takeWhile_all, dropWhile_stops⟩
  · rintro ⟨rfl, found, stops⟩
    cases found with
    | layout nonempty all =>
        simp only
        rw [takeWhile_run all stops, dropWhile_run all stops]
        split
        · exact absurd rfl nonempty
        · rfl

theorem takesPieces_blockComment : TakesPieces .blockComment := by
  intro s piece rest
  simp only [take?, Option.bind_eq_some_iff, Option.map_eq_some_iff, Prod.mk.injEq,
    isPrefixOf?_eq_some_iff]
  constructor
  · rintro ⟨after, rfl, ⟨taken, tail⟩, found, rfl, rfl⟩
    obtain ⟨body, rfl, rfl, unclosed⟩ := exists_body_of_takeComment found
    exact ⟨by simp, .blockComment unclosed, fun _ _ => rfl⟩
  · rintro ⟨rfl, found, -⟩
    cases found with
    | blockComment unclosed =>
        refine ⟨_, ?_, (_, rest), takeComment_append unclosed rest, rfl, rfl⟩
        simp

theorem takesPieces_lineComment : TakesPieces .lineComment := by
  intro s piece rest
  simp only [take?, Option.map_eq_some_iff, Prod.mk.injEq, isPrefixOf?_eq_some_iff, EndsAt,
    endsBefore]
  constructor
  · rintro ⟨after, rfl, rfl, rfl⟩
    refine ⟨by simp, .lineComment fun member => ?_, fun c member => ?_⟩
    · have inside := takeWhile_all _ member
      simp at inside
    · have stopped := dropWhile_stops c member
      simpa using stopped
  · rintro ⟨rfl, found, stops⟩
    cases found with
    | @lineComment body oneLine =>
        have all : ∀ c ∈ body, (c != '\n') = true := by
          intro c member
          exact bne_iff_ne.mpr fun same => oneLine (same ▸ member)
        have stopped : ∀ c ∈ rest.head?, (c != '\n') = false := by
          intro c member
          simpa using stops c member
        refine ⟨body ++ rest, by simp, ?_, dropWhile_run all stopped⟩
        rw [takeWhile_run all stopped]
        rfl

theorem takesPieces_symbol (sym : Symbol) : TakesPieces (.symbol sym) := by
  intro s piece rest
  simp only [take?, Option.map_eq_some_iff, Prod.mk.injEq, isPrefixOf?_eq_some_iff]
  constructor
  · rintro ⟨after, rfl, rfl, rfl⟩
    exact ⟨rfl, .symbol sym, fun _ _ => rfl⟩
  · rintro ⟨rfl, found, -⟩
    cases found
    exact ⟨rest, rfl, rfl, rfl⟩

/-- What a pattern takes from the front of a text is a piece of it that ends where it may. -/
theorem take?_eq_some_iff {p : Pattern} {s rest : List Char} {piece : Piece} :
    p.take? s = some (piece, rest) ↔
      s = piece.text ++ rest ∧ p.HasPiece piece ∧ p.EndsAt rest := by
  cases p with
  | lowerWord => exact takesPieces_lowerWord s piece rest
  | upperWord => exact takesPieces_upperWord s piece rest
  | includeLine => exact takesPieces_includeLine s piece rest
  | layout => exact takesPieces_layout s piece rest
  | blockComment => exact takesPieces_blockComment s piece rest
  | lineComment => exact takesPieces_lineComment s piece rest
  | symbol sym => exact takesPieces_symbol sym s piece rest

/-- Where a piece of a pattern stands, the pattern takes something, though it may be longer. -/
theorem HasPiece.exists_take? {p : Pattern} {piece : Piece} (h : p.HasPiece piece)
    (rest : List Char) : ∃ found, p.take? (piece.text ++ rest) = some found := by
  have whole (stops : p.EndsAt rest) : ∃ found, p.take? (piece.text ++ rest) = some found :=
    ⟨_, take?_eq_some_iff.mpr ⟨rfl, h, stops⟩⟩
  cases h with
  | lowerWord word =>
      obtain ⟨first, run, rfl, kind, -⟩ := word
      simp [take?, takeWord, kind]
  | upperWord word =>
      obtain ⟨first, run, rfl, kind, -⟩ := word
      simp [take?, takeWord, kind]
  | @layout text nonempty all =>
      obtain ⟨c, run, rfl⟩ := List.exists_cons_of_ne_nil nonempty
      have kind := all c List.mem_cons_self
      simp [take?, kind]
  | lineComment oneLine => exact ⟨_, rfl⟩
  | _ => exact whole fun _ _ => rfl

/-! ## One pattern at each place -/

/-- The only pattern that can have a piece at the front of a text. -/
def ofFront : List Char → Option Pattern
  | [] => none
  | c :: rest =>
      if c.isLower then some .lowerWord
      else if c.isUpper then some .upperWord
      else if isLayoutChar c then some .layout
      else if c = '#' then some .includeLine
      else if c = '/' then
        if rest.head? = some '*' then some .blockComment else some .lineComment
      else if c = '}' then
        if rest.head? = some ';' then some (.symbol .endClass) else some (.symbol .endNamespace)
      else (Symbol.all.find? fun s => s.spelling.head? == some c).map .symbol

theorem not_isLower_of_isUpper {c : Char} (h : c.isUpper = true) : c.isLower = false := by
  unfold Char.isUpper at h
  unfold Char.isLower
  simp only [decide_eq_true_eq, UInt32.le_iff_toNat_le, ge_iff_le,
    Bool.and_eq_false_iff, decide_eq_false_iff_not] at h ⊢
  have high : c.val.toNat ≤ 90 := h.2
  exact .inl fun low => absurd (show 97 ≤ c.val.toNat from low) (by omega)

theorem ofFront_append {p : Pattern} {piece : Piece} (h : p.HasPiece piece) (rest : List Char) :
    ofFront (piece.text ++ rest) = some p := by
  cases h with
  | lowerWord word =>
      obtain ⟨first, run, rfl, kind, -⟩ := word
      simp [ofFront, kind]
  | upperWord word =>
      obtain ⟨first, run, rfl, kind, -⟩ := word
      simp [ofFront, kind, not_isLower_of_isUpper kind]
  | includeLine blank unclosed => rfl
  | @layout text nonempty all =>
      cases text with
      | nil => exact absurd rfl nonempty
      | cons c run =>
          have kind := all c List.mem_cons_self
          simp only [isLayoutChar, Bool.or_eq_true, beq_iff_eq] at kind
          rcases kind with (((rfl | rfl) | rfl) | rfl) | rfl <;> rfl
  | blockComment unclosed => rfl
  | lineComment oneLine => rfl
  | symbol s => cases s <;> rfl

/-- At most one pattern takes anything from the front of a text. -/
theorem eq_of_take?_eq_some {p q : Pattern} {s : List Char} {first second : Piece × List Char}
    (hp : p.take? s = some first) (hq : q.take? s = some second) : p = q := by
  obtain ⟨rfl, pieceOfP, -⟩ := take?_eq_some_iff.mp hp
  obtain ⟨same, pieceOfQ, -⟩ := take?_eq_some_iff.mp hq
  have front := ofFront_append pieceOfP first.2
  rw [same, ofFront_append pieceOfQ second.2] at front
  exact (Option.some.inj front).symm

end Pattern

theorem Piece.first?_of_take? {p : Pattern} {s : List Char} {found : Piece × List Char}
    (h : p.take? s = some found) : first? s = some found := by
  cases result : first? s with
  | none =>
      have missing := List.findSome?_eq_none_iff.mp result p p.mem_all
      rw [h] at missing
      cases missing
  | some other =>
      obtain ⟨q, -, taken⟩ := List.exists_of_findSome?_eq_some result
      rw [← Pattern.eq_of_take?_eq_some h taken, h] at taken
      exact taken.symm

/-- A text starts with a piece exactly when some pattern has it and it ends where it may. -/
theorem Piece.first?_eq_some_iff {s rest : List Char} {piece : Piece} :
    first? s = some (piece, rest) ↔
      s = piece.text ++ rest ∧ ∃ p : Pattern, p.HasPiece piece ∧ p.EndsAt rest := by
  constructor
  · intro h
    obtain ⟨p, -, taken⟩ := List.exists_of_findSome?_eq_some h
    obtain ⟨whole, found, stops⟩ := Pattern.take?_eq_some_iff.mp taken
    exact ⟨whole, p, found, stops⟩
  · intro h
    rcases h with ⟨whole, p, found, stops⟩
    exact first?_of_take? (Pattern.take?_eq_some_iff.mpr ⟨whole, found, stops⟩)

theorem Piece.first?_eq_none_iff {s : List Char} :
    first? s = none ↔ ∀ p : Pattern, p.take? s = none :=
  ⟨fun h p => List.findSome?_eq_none_iff.mp h p p.mem_all,
    fun h => List.findSome?_eq_none_iff.mpr fun p _ => h p⟩

end MexGlue
