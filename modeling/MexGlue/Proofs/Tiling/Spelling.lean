import MexGlue.Proofs.Tiling.Continuation

/-!
# Spelling tokens

A token can come from a text exactly when its name is a word of the right kind and not reserved, or
when its path holds no closing bracket. Every such token is spelled as one piece, and a list of them
is spelled with a line feed behind each, from which it is read again.
-/

namespace MexGlue

/-- The words that are never names. -/
def reservedWords : List String :=
  ["const", "static", "namespace", "class", "void", "pair", "string", "bool", "size_t", "int",
    "double", "Vector", "Matrix"]

/-- A name that starts with a small letter. -/
def IsLowerName (name : String) : Prop := IsWord Char.isLower name.toList ∧ name ∉ reservedWords

/-- A name that starts with a capital letter. -/
def IsUpperName (name : String) : Prop := IsWord Char.isUpper name.toList ∧ name ∉ reservedWords

namespace Token

/-- Whether some text has the token. -/
def WellFormed : Token → Prop
  | .lower name => IsLowerName name
  | .upper name => IsUpperName name
  | .includePath path => '>' ∉ path.toList
  | _ => True

@[simp] theorem wellFormed_keyword (word : Keyword) : (keyword word).WellFormed := trivial

@[simp] theorem wellFormed_basis (t : BasisType) : (basis t).WellFormed := trivial

@[simp] theorem wellFormed_container (t : ContainerType) : (container t).WellFormed := trivial

@[simp] theorem wellFormed_symbol (s : Symbol) : (symbol s).WellFormed := trivial

@[simp] theorem wellFormed_lower_iff {name : String} :
    (lower name).WellFormed ↔ IsLowerName name := Iff.rfl

@[simp] theorem wellFormed_upper_iff {name : String} :
    (upper name).WellFormed ↔ IsUpperName name := Iff.rfl

@[simp] theorem wellFormed_includePath_iff {path : String} :
    (includePath path).WellFormed ↔ '>' ∉ path.toList := Iff.rfl

def spelling : Token → List Char
  | .keyword word => word.spelling.toList
  | .basis type => type.spelling.toList
  | .container type => type.spelling.toList
  | .lower name => name.toList
  | .upper name => name.toList
  | .includePath path => Pattern.includeOpening ++ '<' :: path.toList ++ ['>']
  | .symbol s => s.spelling

theorem map_fst_reserved : reserved.map Prod.fst = reservedWords := rfl

theorem lookup_reserved_eq_none_iff {word : String} :
    reserved.lookup word = none ↔ word ∉ reservedWords := by
  simp only [List.lookup_eq_none_iff, ← map_fst_reserved, List.mem_map, bne_iff_ne, ne_eq]
  constructor
  · intro absent reserved
    rcases reserved with ⟨entry, member, same⟩
    exact absent entry member same.symm
  · intro absent entry member same
    exact absent ⟨entry, member, same.symm⟩

theorem getD_lookup_cases (word : String) (name : Token) :
    ((reserved.lookup word).getD name = name ∧ word ∉ reservedWords) ∨
      (word, (reserved.lookup word).getD name) ∈ reserved := by
  cases found : reserved.lookup word with
  | none => exact .inl ⟨rfl, lookup_reserved_eq_none_iff.mp found⟩
  | some token =>
      obtain ⟨front, back, whole, -⟩ := List.lookup_eq_some_iff.mp found
      exact .inr (by simp [whole])

/-- A word is a name, or it is a reserved one as a whole. -/
theorem ofLowerWord_cases (word : String) :
    (ofLowerWord word = .lower word ∧ word ∉ reservedWords) ∨
      (word, ofLowerWord word) ∈ reserved :=
  getD_lookup_cases word (.lower word)

theorem ofUpperWord_cases (word : String) :
    (ofUpperWord word = .upper word ∧ word ∉ reservedWords) ∨
      (word, ofUpperWord word) ∈ reserved :=
  getD_lookup_cases word (.upper word)

theorem not_mem_reserved_lower (word name : String) : (word, lower name) ∉ reserved := by
  simp [reserved]

theorem wellFormed_of_mem_reserved {entry : String × Token} (member : entry ∈ reserved) :
    entry.2.WellFormed := by
  simp only [reserved, List.mem_append, List.mem_map] at member
  rcases member with (⟨word, -, rfl⟩ | ⟨type, -, rfl⟩) | ⟨type, -, rfl⟩ <;> trivial

/-- The tokens of a text are well-formed. -/
theorem wellFormed_of_hasPiece {p : Pattern} {piece : Piece} {token : Token}
    (h : p.HasPiece piece) (isToken : piece.token = some token) : token.WellFormed := by
  cases h with
  | @lowerWord text word =>
      cases isToken
      rcases ofLowerWord_cases (String.ofList text) with ⟨same, free⟩ | member
      · rw [same]
        exact ⟨by simpa using word, free⟩
      · exact wellFormed_of_mem_reserved member
  | @upperWord text word =>
      cases isToken
      rcases ofUpperWord_cases (String.ofList text) with ⟨same, free⟩ | member
      · rw [same]
        exact ⟨by simpa using word, free⟩
      · exact wellFormed_of_mem_reserved member
  | includeLine blank unclosed =>
      cases isToken
      simpa [WellFormed] using unclosed
  | symbol s =>
      cases isToken
      trivial
  | _ => cases isToken

theorem ofLowerWord_of_isLowerName {name : String} (h : IsLowerName name) :
    ofLowerWord name = .lower name := by
  rw [ofLowerWord, lookup_reserved_eq_none_iff.mpr h.2]
  rfl

theorem ofUpperWord_of_isUpperName {name : String} (h : IsUpperName name) :
    ofUpperWord name = .upper name := by
  rw [ofUpperWord, lookup_reserved_eq_none_iff.mpr h.2]
  rfl

theorem lowerWord_hasPiece {word : String} {token : Token} (h : IsWord Char.isLower word.toList)
    (same : ofLowerWord word = token) :
    Pattern.lowerWord.HasPiece ⟨word.toList, some token⟩ := by
  have found := Pattern.HasPiece.lowerWord h
  rwa [String.ofList_toList, same] at found

theorem upperWord_hasPiece {word : String} {token : Token} (h : IsWord Char.isUpper word.toList)
    (same : ofUpperWord word = token) :
    Pattern.upperWord.HasPiece ⟨word.toList, some token⟩ := by
  have found := Pattern.HasPiece.upperWord h
  rwa [String.ofList_toList, same] at found

/-- A well-formed token is the token of its spelling. -/
theorem hasPiece_spelling {token : Token} (h : token.WellFormed) :
    ∃ p : Pattern, p.HasPiece ⟨token.spelling, some token⟩ := by
  cases token with
  | keyword word =>
      have isWord : IsWord Char.isLower word.spelling.toList := by
        cases word <;> exact ⟨_, _, rfl, rfl, List.all_eq_true.mp rfl⟩
      have same : ofLowerWord word.spelling = .keyword word := by cases word <;> rfl
      exact ⟨.lowerWord, lowerWord_hasPiece isWord same⟩
  | basis type =>
      have isWord : IsWord Char.isLower type.spelling.toList := by
        cases type <;> exact ⟨_, _, rfl, rfl, List.all_eq_true.mp rfl⟩
      have same : ofLowerWord type.spelling = .basis type := by cases type <;> rfl
      exact ⟨.lowerWord, lowerWord_hasPiece isWord same⟩
  | container type =>
      have isWord : IsWord Char.isUpper type.spelling.toList := by
        cases type <;> exact ⟨_, _, rfl, rfl, List.all_eq_true.mp rfl⟩
      have same : ofUpperWord type.spelling = .container type := by cases type <;> rfl
      exact ⟨.upperWord, upperWord_hasPiece isWord same⟩
  | lower name => exact ⟨.lowerWord, lowerWord_hasPiece h.1 (ofLowerWord_of_isLowerName h)⟩
  | upper name => exact ⟨.upperWord, upperWord_hasPiece h.1 (ofUpperWord_of_isUpperName h)⟩
  | includePath path =>
      have noGap : ∀ c ∈ ([] : List Char), Text.isBlank c = true := by simp
      have found := Pattern.HasPiece.includeLine noGap h
      rw [String.ofList_toList, List.append_nil] at found
      exact ⟨.includeLine, found⟩
  | symbol s => exact ⟨.symbol s, .symbol s⟩

/-- A name's piece is the name itself. -/
theorem text_of_lower {p : Pattern} {piece : Piece} {name : String} (h : p.HasPiece piece)
    (isToken : piece.token = some (.lower name)) : piece.text = name.toList := by
  cases h with
  | @lowerWord text word =>
      have same := Option.some.inj isToken
      rcases ofLowerWord_cases (String.ofList text) with ⟨kept, -⟩ | member
      · rw [kept] at same
        cases same
        simp
      · rw [same] at member
        exact absurd member (not_mem_reserved_lower _ name)
  | @upperWord text word =>
      have same := Option.some.inj isToken
      rcases ofUpperWord_cases (String.ofList text) with ⟨kept, -⟩ | member
      · rw [kept] at same
        cases same
      · rw [same] at member
        exact absurd member (not_mem_reserved_lower _ name)
  | _ => cases isToken

end Token

/-- Whether some text has all of these tokens. -/
def WellFormedTokens (tokens : List Token) : Prop := ∀ token ∈ tokens, token.WellFormed

@[simp] theorem wellFormedTokens_nil : WellFormedTokens [] :=
  List.forall_mem_nil _

@[simp] theorem wellFormedTokens_cons {token : Token} {tokens : List Token} :
    WellFormedTokens (token :: tokens) ↔ token.WellFormed ∧ WellFormedTokens tokens :=
  List.forall_mem_cons

@[simp] theorem wellFormedTokens_append {front back : List Token} :
    WellFormedTokens (front ++ back) ↔ WellFormedTokens front ∧ WellFormedTokens back :=
  List.forall_mem_append

@[simp] theorem wellFormedTokens_flatMap {α : Type} {f : α → List Token} {xs : List α} :
    WellFormedTokens (xs.flatMap f) ↔ ∀ x ∈ xs, WellFormedTokens (f x) :=
  List.forall_mem_flatMap

namespace Token

/-- Tokens with a line feed behind each. -/
def spellAll (tokens : List Token) : List Char :=
  tokens.flatMap fun token => token.spelling ++ ['\n']

theorem ofText_spellAll {tokens : List Token} (h : WellFormedTokens tokens) :
    (Tiling.ofText (spellAll tokens)).tokens = tokens ∧
      (Tiling.ofText (spellAll tokens)).rest = [] := by
  induction tokens with
  | nil =>
      rw [spellAll, List.flatMap_nil, Tiling.ofText_nil]
      exact ⟨rfl, rfl⟩
  | cons token tokens ih =>
      obtain ⟨p, found⟩ := hasPiece_spelling (h token List.mem_cons_self)
      have laid := LaidOut.cons found p.endsAt_nil (.nil [])
      have parted := Tiling.ofText_append_lineFeed laid (spellAll tokens)
      obtain ⟨tokensAfter, restAfter⟩ := ih fun t member => h t (List.mem_cons_of_mem token member)
      rw [spellAll, List.flatMap_cons, List.append_assoc]
      rw [List.append_nil] at parted
      exact ⟨parted.tokens.trans (congrArg (token :: ·) tokensAfter), parted.rest.trans restAfter⟩

end Token

/-- The tokens that a text is laid out in are well-formed. -/
theorem LaidOut.wellFormedTokens {s rest : List Char} {pieces : List Piece}
    (h : LaidOut s pieces rest) : WellFormedTokens (pieces.filterMap (·.token)) := by
  intro token member
  obtain ⟨piece, inPieces, isToken⟩ := List.mem_filterMap.mp member
  obtain ⟨p, found⟩ := h.exists_pattern inPieces
  exact Token.wellFormed_of_hasPiece found isToken

end MexGlue
