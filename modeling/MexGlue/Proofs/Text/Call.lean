import MexGlue.Proofs.Text.Parts

/-!
# Reading calls

A call is what stands in front of a round bracket and what is passed inside of it, with a comma
between any two. A statement sets its words to the value behind its last equals sign; one without
that sign sets nothing.
-/

namespace MexGlue.Text

/-- The words of a text with a single blank between any two. -/
def tidy (text : String) : String := " ".intercalate (words text)

theorem IsUnbroken.tidy {text : String} (h : IsUnbroken text) : Text.tidy text = text := by
  rw [Text.tidy, h.words, String.intercalate_singleton]

theorem tidy_blank_append (text : String) : tidy (" " ++ text) = tidy text := by
  rw [tidy, words_blank_append, tidy]

/-! ## What is passed -/

/-- What a call passes, given the text inside of its brackets. -/
def passedIn (inside : String) : List String :=
  ((parts ',' inside).map tidy).filter (· ≠ "")

/-- Whether a text is passed as it is. -/
structure IsPassed (text : String) : Prop where
  unbroken : IsUnbroken text
  noComma : ',' ∉ text.toList
  noBracket : '(' ∉ text.toList ∧ ')' ∉ text.toList

section Passed

variable {text : String}

theorem IsPassed.passedIn (h : IsPassed text) : passedIn text = [text] := by
  rw [Text.passedIn, parts_of_not_mem h.noComma, List.map_singleton, h.unbroken.tidy]
  simp [h.unbroken.nonempty]

theorem IsPassed.passedIn_append (h : IsPassed text) (rest : String) :
    Text.passedIn (text ++ "," ++ rest) = text :: Text.passedIn rest := by
  rw [Text.passedIn, parts_append_of_not_mem rfl h.noComma, List.map_cons, h.unbroken.tidy]
  simp [h.unbroken.nonempty, Text.passedIn]

/-- A blank in front of what is passed last makes no difference. -/
theorem IsPassed.passedIn_blank_append (h : IsPassed text) :
    Text.passedIn (" " ++ text) = [text] := by
  have noComma : ',' ∉ (" " ++ text).toList := by simp [h.noComma]
  rw [Text.passedIn, parts_of_not_mem noComma, List.map_singleton, tidy_blank_append,
    h.unbroken.tidy]
  simp [h.unbroken.nonempty]

theorem passedIn_intercalate {written : List String} (h : ∀ text ∈ written, IsPassed text) :
    passedIn (",".intercalate written) = written := by
  induction written with
  | nil => rfl
  | cons text written ih =>
      obtain ⟨first, later⟩ := List.forall_mem_cons.mp h
      cases written with
      | nil => rw [String.intercalate_singleton, first.passedIn]
      | cons next written => rw [String.intercalate_cons_cons, first.passedIn_append, ih later]

theorem not_mem_bracket_intercalate {written : List String} (h : ∀ text ∈ written, IsPassed text) :
    '(' ∉ (",".intercalate written).toList ∧ ')' ∉ (",".intercalate written).toList :=
  ⟨not_mem_intercalate (by decide) fun text member => (h text member).noBracket.1,
    not_mem_intercalate (by decide) fun text member => (h text member).noBracket.2⟩

end Passed

/-! ## Calls -/

/-- A call: the words in front of its brackets and what is passed inside. -/
structure Call where
  callee : List String
  passed : List String
  deriving DecidableEq, Repr

/-- The call that a text starts with, if no other one is passed to it. -/
def Call.ofText? (text : String) : Option Call :=
  match (parts ')' text).head?.map (parts '(') with
  | some [callee, inside] => some ⟨words callee, passedIn inside⟩
  | _ => none

theorem Call.ofText?_append {callee inside : String}
    (calleeFree : '(' ∉ callee.toList ∧ ')' ∉ callee.toList)
    (insideFree : '(' ∉ inside.toList ∧ ')' ∉ inside.toList) (behind : String) :
    Call.ofText? (callee ++ "(" ++ inside ++ ")" ++ behind) =
      some ⟨words callee, passedIn inside⟩ := by
  have front : ')' ∉ (callee ++ "(" ++ inside).toList := by simp [calleeFree.2, insideFree.2]
  have cut : parts '(' (callee ++ "(" ++ inside) = [callee, inside] := by
    rw [parts_append_of_not_mem rfl calleeFree.1, parts_of_not_mem insideFree.1]
  rw [ofText?, parts_append_of_not_mem rfl front, List.head?_cons, Option.map_some, cut]

/-- A list of arguments is read in its order. -/
theorem Call.ofText?_intercalate {callee : String}
    (calleeFree : '(' ∉ callee.toList ∧ ')' ∉ callee.toList) {passed : List String}
    (h : ∀ text ∈ passed, IsPassed text) (behind : String) :
    Call.ofText? (callee ++ "(" ++ ",".intercalate passed ++ ")" ++ behind) =
      some ⟨words callee, passed⟩ := by
  rw [ofText?_append calleeFree (not_mem_bracket_intercalate h), passedIn_intercalate h]

example : Call.ofText? " new A(x, y);" = some ⟨["new", "A"], ["x", "y"]⟩ := by decide +kernel

/-- The text in the only quotes of a text. -/
def unquoted (quote : Char) (text : String) : Option String :=
  match quoted quote text with
  | [(_, inside)] => some inside
  | _ => none

theorem unquoted_quote {quote : Char} {joint inside : String} (spelled : joint.toList = [quote])
    (free : quote ∉ inside.toList) : unquoted quote (joint ++ inside ++ joint) = some inside := by
  have whole : joint ++ inside ++ joint = "" ++ joint ++ inside ++ joint ++ "" := by simp
  rw [unquoted, whole, quoted_append spelled (by simp) free, quoted_of_not_mem (by simp)]

/-! ## Statements -/

/-- What a statement sets, word by word, and the call that it sets it to. -/
structure Setting where
  target : List String
  call : Option Call
  deriving DecidableEq, Repr

def Setting.ofText (text : String) : Setting where
  target := (parts '=' text).dropLast.flatMap words
  call := (parts '=' text).getLast?.bind Call.ofText?

theorem Setting.ofText_append_value (target : String) {value : String} (free : '=' ∉ value.toList) :
    Setting.ofText (target ++ "=" ++ value) =
      ⟨(parts '=' target).flatMap words, Call.ofText? value⟩ := by
  rw [ofText, parts_append rfl, parts_of_not_mem free, List.dropLast_concat, List.getLast?_concat,
    Option.bind_some]

theorem Setting.ofText_append_of_not_mem {target value : String} (targetFree : '=' ∉ target.toList)
    (free : '=' ∉ value.toList) :
    Setting.ofText (target ++ "=" ++ value) = ⟨words target, Call.ofText? value⟩ := by
  rw [ofText_append_value target free, parts_of_not_mem targetFree, List.flatMap_singleton]

theorem Setting.ofText_of_not_mem {text : String} (free : '=' ∉ text.toList) :
    Setting.ofText text = ⟨[], Call.ofText? text⟩ := by
  rw [ofText, parts_of_not_mem free]
  rfl

end MexGlue.Text
