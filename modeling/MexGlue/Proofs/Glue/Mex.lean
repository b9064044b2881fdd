import MexGlue.Proofs.Text.Parts

/-!
# What a C++ file refers to

The statements of a C++ file stand behind the last line that is an opening brace. A class of the
other side stands in quotes: behind `wrap_shared_ptr`, with the C++ type that is shared in angle
brackets in front of it, or behind `wrap_constructed`, and then the statement in front has made an
object of the C++ type. What a statement refers to does not depend on others than the one in front.
-/

namespace MexGlue.Mex

/-- A class of the other side, with the C++ type beside it if there is one. -/
structure Reference where
  cppType : Option String
  matlabClass : String
  deriving DecidableEq, Repr

/-- The type in the last angle brackets of a text. -/
def typeBeside (front : String) : Option String :=
  ((Text.parts '<' front).getLast?.bind fun behind => (Text.parts '>' behind).head?).bind
    fun inside =>
      match Text.words inside with
      | [type] => some type
      | _ => none

/-- The type of which a statement makes the object. -/
def constructedType (statement : String) : Option String :=
  match Text.words statement with
  | declared :: "self" :: "=" :: "new" :: _ => some (String.ofList declared.toList.dropLast)
  | _ => none

/-- What a quote refers to, given the statement in front of its own. -/
def referenceOf? (previous : String) (quote : String × String) : Option Reference :=
  if Text.mentions "wrap_shared_ptr" quote.1 then some ⟨typeBeside quote.1, quote.2⟩
  else if Text.mentions "wrap_constructed" quote.1 then some ⟨constructedType previous, quote.2⟩
  else none

def referencesIn (previous statement : String) : List Reference :=
  (Text.quoted '"' statement).filterMap (referenceOf? previous)

def referencesFrom (previous : String) : List String → List Reference
  | [] => []
  | statement :: rest => referencesIn previous statement ++ referencesFrom statement rest

/-- What stands behind the last line that is a mark. -/
def behindLast (mark : String) (lines : List String) : List String :=
  (lines.reverse.takeWhile (· ≠ mark)).reverse

def statements (text : String) : List String := behindLast "\x7b" (Text.lines text)

/-- All that a C++ file refers to, in its order. -/
def references (text : String) : List Reference := referencesFrom "" (statements text)

theorem behindLast_append {mark : String} {back : List String} (h : mark ∉ back)
    (front : List String) : behindLast mark (front ++ mark :: back) = back := by
  have kept : ∀ line ∈ back.reverse, decide (line ≠ mark) = true := fun line member =>
    decide_eq_true fun same => h (same ▸ List.mem_reverse.mp member)
  rw [behindLast, List.reverse_append, List.reverse_cons, List.append_assoc,
    List.takeWhile_append_of_pos kept, List.singleton_append,
    List.takeWhile_cons_of_neg (by simp), List.append_nil, List.reverse_reverse]

/-! ## Single statements -/

section Statements

variable {type matlabClass : String}

theorem typeBeside_append (word : Text.IsUnbroken type) (typeFree : '<' ∉ type.toList ∧ '>' ∉ type.toList)
    (front : String) {behind : String} (behindFree : '<' ∉ behind.toList) :
    typeBeside (front ++ "<" ++ (" " ++ type ++ " " ++ ">" ++ behind)) = some type := by
  have last : (Text.parts '<' (front ++ "<" ++ (" " ++ type ++ " " ++ ">" ++ behind))).getLast? =
      some (" " ++ type ++ " " ++ ">" ++ behind) := by
    have free : '<' ∉ (" " ++ type ++ " " ++ ">" ++ behind).toList := by
      simp [typeFree.1, behindFree]
    rw [Text.parts_append rfl, Text.parts_of_not_mem free, List.getLast?_concat]
  have first : (Text.parts '>' (" " ++ type ++ " " ++ ">" ++ behind)).head? =
      some (" " ++ type ++ " ") := by
    rw [Text.parts_append_of_not_mem rfl (by simp [typeFree.2])]
    rfl
  have single : Text.words (" " ++ type ++ " ") = [type] := by
    have padded : " " ++ type ++ " " = " " ++ (type ++ " " ++ "") := by simp [String.append_assoc]
    rw [padded, Text.words_blank_append, word.words_append]
    rfl
  rw [typeBeside, last, Option.bind_some, first, Option.bind_some, single]

/-- Whether a statement refers to these, whatever stands in front of it. -/
def Refers (statement : String) (references : List Reference) : Prop :=
  ∀ previous, referencesIn previous statement = references

theorem refers_of_not_mem {statement : String} (h : '"' ∉ statement.toList) :
    Refers statement [] := by
  intro previous
  rw [referencesIn, Text.quoted_of_not_mem h]
  rfl

/-- A statement with a single quote refers to what that does. -/
theorem referencesIn_quote (previous : String) {front inside behind : String}
    (frontFree : '"' ∉ front.toList) (insideFree : '"' ∉ inside.toList)
    (behindFree : '"' ∉ behind.toList) :
    referencesIn previous (front ++ "\"" ++ inside ++ "\"" ++ behind) =
      (referenceOf? previous (front, inside)).toList := by
  rw [referencesIn, Text.quoted_append rfl frontFree insideFree,
    Text.quoted_of_not_mem behindFree, List.filterMap_cons]
  cases referenceOf? previous (front, inside) <;> rfl

example : referencesIn "" "a = unwrap_shared_ptr< n::B >(in[0], \"n_B\");" =
    [⟨some "n::B", "n_B"⟩] := by
  decide +kernel

end Statements

/-! ## Statements behind each other -/

/-- Whether statements refer to these, wherever they stand. -/
def Yields (written : List String) (references : List Reference) : Prop :=
  ∀ previous rest, ∃ last,
    referencesFrom previous (written ++ rest) = references ++ referencesFrom last rest

section Yields

variable {written written' : List String} {references references' : List Reference}

theorem yields_nil : Yields [] [] := fun previous _ => ⟨previous, rfl⟩

theorem Refers.yields {statement : String} (h : Refers statement references) :
    Yields [statement] references := fun previous rest =>
  ⟨statement, by rw [List.singleton_append, referencesFrom, h previous]⟩

theorem Yields.append (h : Yields written references) (h' : Yields written' references') :
    Yields (written ++ written') (references ++ references') := by
  intro previous rest
  obtain ⟨middle, first⟩ := h previous (written' ++ rest)
  obtain ⟨last, second⟩ := h' middle rest
  exact ⟨last, by rw [List.append_assoc, first, second, List.append_assoc]⟩

theorem Yields.read (h : Yields written references) (previous : String) :
    referencesFrom previous written = references := by
  obtain ⟨last, same⟩ := h previous []
  have nothing : referencesFrom last [] = [] := rfl
  rwa [List.append_nil, nothing, List.append_nil] at same

end Yields

end MexGlue.Mex
