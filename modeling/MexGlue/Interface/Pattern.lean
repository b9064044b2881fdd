import MexGlue.Interface.Token
import MexGlue.Text.Blank

/-!
# The patterns of the interface language

Every piece of an interface text is one of a fixed list of patterns. A pattern either takes a
non-empty piece from the front of a text, and leaves the rest untouched, or takes nothing. Three of
them, the layout and the two kinds of comment, give no token.
-/

namespace MexGlue

/-- A piece of an interface text as it is written, with its token if the grammar sees one. -/
structure Piece where
  text : List Char
  token : Option Token
  deriving DecidableEq, Repr

/-- The shapes that a piece can have. -/
inductive Pattern where
  | lowerWord | upperWord | includeLine | layout | blockComment | lineComment
  | symbol (s : Symbol)
  deriving DecidableEq, Repr

namespace Pattern

def isWordChar (c : Char) : Bool := c.isAlphanum || c == '_'

def isLayoutChar (c : Char) : Bool :=
  c == ' ' || c == '\t' || c == '\x0c' || c == '\r' || c == '\n'

/-- A block comment's text up to and with the first `*/`, given what follows its opening. -/
def takeComment : List Char → Option (List Char × List Char)
  | [] => none
  | c :: rest =>
      match c, rest with
      | '*', '/' :: after => some (['*', '/'], after)
      | _, _ => (takeComment rest).map fun found => (c :: found.1, found.2)

/-- The word at the front of a text, if its first character is of the given kind. -/
def takeWord (starts : Char → Bool) : List Char → Option (List Char × List Char)
  | [] => none
  | c :: rest =>
      if starts c then some (c :: rest.takeWhile isWordChar, rest.dropWhile isWordChar) else none

def includeOpening : List Char := ['#', 'i', 'n', 'c', 'l', 'u', 'd', 'e']

/-- An include line's path and all that follows its closing bracket, given what follows the opening
bracket. The path ends at the first `>`. -/
def takePath (s : List Char) : Option (List Char × List Char) :=
  match s.dropWhile (· != '>') with
  | [] => none
  | _ :: after => some (s.takeWhile (· != '>'), after)

/-- The gap, the path and what follows an include line, given what follows `#include`. -/
def takeInclude (s : List Char) : Option (List Char × List Char × List Char) :=
  match s.dropWhile Text.isBlank with
  | '<' :: after => (takePath after).map fun found => (s.takeWhile Text.isBlank, found)
  | _ => none

/-- The piece of this pattern at the front of a text, with the text after it. -/
def take? : Pattern → List Char → Option (Piece × List Char)
  | .lowerWord, s =>
      (takeWord Char.isLower s).map fun found =>
        (⟨found.1, some (Token.ofLowerWord (String.ofList found.1))⟩, found.2)
  | .upperWord, s =>
      (takeWord Char.isUpper s).map fun found =>
        (⟨found.1, some (Token.ofUpperWord (String.ofList found.1))⟩, found.2)
  | .includeLine, s =>
      (includeOpening.isPrefixOf? s).bind fun after =>
        (takeInclude after).map fun found =>
          (⟨includeOpening ++ found.1 ++ '<' :: found.2.1 ++ ['>'],
            some (.includePath (String.ofList found.2.1))⟩, found.2.2)
  | .layout, s =>
      match s.takeWhile isLayoutChar with
      | [] => none
      | run => some (⟨run, none⟩, s.dropWhile isLayoutChar)
  | .blockComment, s =>
      (['/', '*'].isPrefixOf? s).bind fun after =>
        (takeComment after).map fun found => (⟨'/' :: '*' :: found.1, none⟩, found.2)
  | .lineComment, s =>
      (['/', '/'].isPrefixOf? s).map fun after =>
        (⟨'/' :: '/' :: after.takeWhile (· != '\n'), none⟩, after.dropWhile (· != '\n'))
  | .symbol sym, s =>
      (sym.spelling.isPrefixOf? s).map fun after => (⟨sym.spelling, some (.symbol sym)⟩, after)

def all : List Pattern :=
  [.lowerWord, .upperWord, .includeLine, .layout, .blockComment, .lineComment] ++
    Symbol.all.map .symbol

theorem mem_all (p : Pattern) : p ∈ all := by
  cases p with
  | symbol s => simp [all, Symbol.mem_all]
  | _ => simp [all]

theorem isPrefixOf?_eq_some_iff {front s rest : List Char} :
    front.isPrefixOf? s = some rest ↔ s = front ++ rest := by
  induction front generalizing s with
  | nil =>
      show some s = some rest ↔ s = rest
      rw [Option.some.injEq]
  | cons c front ih =>
      cases s with
      | nil =>
          show none = some rest ↔ [] = c :: (front ++ rest)
          simp
      | cons d s =>
          show (if c == d then front.isPrefixOf? s else none) = some rest ↔
            d :: s = c :: (front ++ rest)
          by_cases h : c = d
          · simp [h, ih]
          · simp [h, Ne.symm h]

theorem takeComment_eq_append {s taken rest : List Char}
    (h : takeComment s = some (taken, rest)) : s = taken ++ rest := by
  induction s generalizing taken with
  | nil => simp [takeComment] at h
  | cons c s ih =>
      unfold takeComment at h
      split at h
      · simp only [Option.some.injEq, Prod.mk.injEq] at h
        obtain ⟨rfl, rfl⟩ := h
        rfl
      · simp only [Option.map_eq_some_iff, Prod.mk.injEq] at h
        obtain ⟨⟨inner, after⟩, found, rfl, rfl⟩ := h
        simp [ih found]

theorem takeWord_eq_append {starts : Char → Bool} {s taken rest : List Char}
    (h : takeWord starts s = some (taken, rest)) : s = taken ++ rest ∧ taken ≠ [] := by
  cases s with
  | nil => simp [takeWord] at h
  | cons c s =>
      simp only [takeWord, Option.ite_none_right_eq_some, Option.some.injEq, Prod.mk.injEq] at h
      obtain ⟨-, rfl, rfl⟩ := h
      simp

theorem takePath_eq_append {s path rest : List Char} (h : takePath s = some (path, rest)) :
    s = path ++ '>' :: rest := by
  unfold takePath at h
  split at h
  · simp at h
  · rename_i c after dropped
    simp only [Option.some.injEq, Prod.mk.injEq] at h
    obtain ⟨rfl, rfl⟩ := h
    have closing : c = '>' := by
      have kept := List.head_dropWhile_not (p := (· != '>')) (l := s) (by simp [dropped])
      simpa [dropped] using kept
    have whole := List.takeWhile_append_dropWhile (p := (· != '>')) (l := s)
    rw [dropped, closing] at whole
    exact whole.symm

theorem takeInclude_eq_append {s gap path rest : List Char}
    (h : takeInclude s = some (gap, path, rest)) : s = gap ++ '<' :: path ++ '>' :: rest := by
  unfold takeInclude at h
  split at h
  · rename_i after dropped
    simp only [Option.map_eq_some_iff, Prod.mk.injEq] at h
    obtain ⟨⟨p, r⟩, found, rfl, rfl, rfl⟩ := h
    have whole := List.takeWhile_append_dropWhile (p := Text.isBlank) (l := s)
    rw [dropped, takePath_eq_append found] at whole
    simpa using whole.symm
  · simp at h

/-- What a pattern takes is not empty and, with what it leaves, is the whole text. -/
theorem take?_eq_append {p : Pattern} {s rest : List Char} {piece : Piece}
    (h : p.take? s = some (piece, rest)) : s = piece.text ++ rest ∧ piece.text ≠ [] := by
  cases p with
  | lowerWord =>
      simp only [take?, Option.map_eq_some_iff, Prod.mk.injEq] at h
      obtain ⟨⟨taken, after⟩, found, rfl, rfl⟩ := h
      exact takeWord_eq_append found
  | upperWord =>
      simp only [take?, Option.map_eq_some_iff, Prod.mk.injEq] at h
      obtain ⟨⟨taken, after⟩, found, rfl, rfl⟩ := h
      exact takeWord_eq_append found
  | includeLine =>
      simp only [take?, Option.bind_eq_some_iff, Option.map_eq_some_iff, Prod.mk.injEq] at h
      obtain ⟨after, opened, ⟨gap, path, tail⟩, found, rfl, rfl⟩ := h
      rw [isPrefixOf?_eq_some_iff] at opened
      refine ⟨?_, by simp [includeOpening]⟩
      rw [opened, takeInclude_eq_append found]
      simp
  | layout =>
      simp only [take?] at h
      split at h
      · simp at h
      · rename_i run nonempty
        simp only [Option.some.injEq, Prod.mk.injEq] at h
        obtain ⟨rfl, rfl⟩ := h
        exact ⟨List.takeWhile_append_dropWhile.symm, nonempty⟩
  | blockComment =>
      simp only [take?, Option.bind_eq_some_iff, Option.map_eq_some_iff, Prod.mk.injEq] at h
      obtain ⟨after, opened, ⟨taken, tail⟩, found, rfl, rfl⟩ := h
      rw [isPrefixOf?_eq_some_iff] at opened
      refine ⟨?_, by simp⟩
      rw [opened, takeComment_eq_append found]
      simp
  | lineComment =>
      simp only [take?, Option.map_eq_some_iff, Prod.mk.injEq] at h
      obtain ⟨after, opened, rfl, rfl⟩ := h
      rw [isPrefixOf?_eq_some_iff] at opened
      refine ⟨?_, by simp⟩
      rw [opened]
      simp
  | symbol sym =>
      simp only [take?, Option.map_eq_some_iff, Prod.mk.injEq] at h
      obtain ⟨after, opened, rfl, rfl⟩ := h
      rw [isPrefixOf?_eq_some_iff] at opened
      exact ⟨opened, sym.spelling_ne_nil⟩

end Pattern

end MexGlue
