/-!
# Lines

A generated file is a list of lines, each ended by a line feed. An interface file may end its lines
with a carriage return, a line feed, or the two in this order; reading turns all three into a line
feed.
-/

namespace MexGlue.Text

/-- The text that holds these lines, each ended by a line feed. -/
def unlines (lines : List String) : String :=
  String.join (lines.map (· ++ "\n"))

@[simp] theorem unlines_nil : unlines [] = "" := rfl

@[simp] theorem unlines_cons (line : String) (lines : List String) :
    unlines (line :: lines) = line ++ "\n" ++ unlines lines := by
  simp [unlines]

theorem unlines_append (first second : List String) :
    unlines (first ++ second) = unlines first ++ unlines second := by
  induction first with
  | nil => simp
  | cons line first ih => simp [ih, String.append_assoc]

/-- Every line end, however it is spelled, as a line feed. -/
def normalizeLineEnds : List Char → List Char
  | [] => []
  | '\r' :: '\n' :: rest => '\n' :: normalizeLineEnds rest
  | c :: rest => (if c = '\r' then '\n' else c) :: normalizeLineEnds rest

end MexGlue.Text
