import MexGlue.Text.Lines

/-!
# Spellings of line ends

A file may spell each line end of a text in its own way, by a line feed, a carriage return, or the
two in this order. Only a carriage return and a line feed that belong to two line ends would be
taken for one. Making line ends uniform undoes every such spelling, and nothing else is undone to
the same text.
-/

namespace MexGlue.Text

/-- The files that spell a text. Line ends are spelled one by one. -/
inductive Spells : List Char → List Char → Prop where
  | nil : Spells [] []
  | char {c : Char} {file text : List Char} (noReturn : c ≠ '\r') (noFeed : c ≠ '\n')
      (behind : Spells file text) : Spells (c :: file) (c :: text)
  | lineFeed {file text : List Char} (behind : Spells file text) :
      Spells ('\n' :: file) ('\n' :: text)
  | both {file text : List Char} (behind : Spells file text) :
      Spells ('\r' :: '\n' :: file) ('\n' :: text)
  | carriageReturn {file text : List Char} (apart : file.head? ≠ some '\n')
      (behind : Spells file text) : Spells ('\r' :: file) ('\n' :: text)

theorem normalizeLineEnds_return {file : List Char} (apart : file.head? ≠ some '\n') :
    normalizeLineEnds ('\r' :: file) = '\n' :: normalizeLineEnds file := by
  rw [normalizeLineEnds, if_pos rfl]
  rintro rest - rfl
  exact apart rfl

theorem normalizeLineEnds_char {c : Char} (noReturn : c ≠ '\r') (file : List Char) :
    normalizeLineEnds (c :: file) = c :: normalizeLineEnds file := by
  rw [normalizeLineEnds, if_neg noReturn]
  intro rest same
  exact absurd same noReturn

theorem spells_normalizeLineEnds (file : List Char) : Spells file (normalizeLineEnds file) := by
  induction file using normalizeLineEnds.induct with
  | case1 => exact .nil
  | case2 rest ih => exact .both ih
  | case3 c rest notBoth ih =>
      by_cases isReturn : c = '\r'
      · subst isReturn
        have apart : rest.head? ≠ some '\n' := by
          intro first
          obtain ⟨later, rfl⟩ := List.head?_eq_some_iff.mp first
          exact notBoth later rfl rfl
        rw [normalizeLineEnds_return apart]
        exact .carriageReturn apart ih
      · rw [normalizeLineEnds_char isReturn]
        by_cases isFeed : c = '\n'
        · subst isFeed
          exact .lineFeed ih
        · exact .char isReturn isFeed ih

/-- The uniform text is the one that the file spells. -/
theorem normalizeLineEnds_eq_iff {file text : List Char} :
    normalizeLineEnds file = text ↔ Spells file text := by
  constructor
  · rintro rfl
    exact spells_normalizeLineEnds file
  · intro h
    induction h with
    | nil => rfl
    | char noReturn noFeed behind ih => rw [normalizeLineEnds_char noReturn, ih]
    | lineFeed behind ih => rw [normalizeLineEnds_char (by decide), ih]
    | both behind ih => rw [normalizeLineEnds, ih]
    | carriageReturn apart behind ih => rw [normalizeLineEnds_return apart, ih]

end MexGlue.Text
