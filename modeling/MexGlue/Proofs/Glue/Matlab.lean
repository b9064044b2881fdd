import MexGlue.Proofs.Text.Parts

/-!
# What a MATLAB file refers to

A MATLAB file asks for classes by their names in quotes, and assigns what a function returns to the
object. Both are read line by line: a class that is asked for stands in quotes behind `isa(`, and a
function that is called stands behind `obj.self =`. Most lines are silent.
-/

namespace MexGlue

namespace Matlab

/-- The classes that a line asks for. -/
def guardsIn (line : String) : List String :=
  ((Text.quoted '\'' line).filter fun pair => Text.mentions "isa(" pair.1).map Prod.snd

/-- The function whose result is assigned, given the words behind what it is assigned to. -/
def called? : List String → Option String
  | "=" :: call :: _ => some (String.ofList (call.toList.takeWhile (· != '(')))
  | _ => none

/-- The functions whose results are assigned to the object, given the words of a line. -/
def callsIn : List String → List String
  | [] => []
  | word :: rest => (if word = "obj.self" then called? rest else none).toList ++ callsIn rest

def guards (text : String) : List String := (Text.lines text).flatMap guardsIn

def calls (text : String) : List String :=
  (Text.lines text).flatMap fun line => callsIn (Text.words line)

def DeclaresClass (text name : String) : Prop := "classdef " ++ name ∈ Text.lines text

def DeclaresFunction (text name : String) : Prop :=
  ∃ parameters, "function result = " ++ name ++ "(" ++ parameters ++ ")" ∈ Text.lines text

/-! ## Single lines -/

section Lines

variable {line : String}

theorem guardsIn_of_not_mem (h : '\'' ∉ line.toList) : guardsIn line = [] := by
  rw [guardsIn, Text.quoted_of_not_mem h]
  rfl

/-- What stands in quotes is asked for if the text in front says so. -/
theorem guardsIn_quote {front inside : String} (frontFree : '\'' ∉ front.toList)
    (insideFree : '\'' ∉ inside.toList) (behind : String) :
    guardsIn (front ++ "'" ++ inside ++ "'" ++ behind) =
      (if Text.mentions "isa(" front then [inside] else []) ++ guardsIn behind := by
  rw [guardsIn, Text.quoted_append rfl frontFree insideFree, List.filter_cons]
  split <;> rfl

example : guardsIn "if isa(x,'A') && isa(y,'n_B'), error('none'); end" = ["A", "n_B"] := by
  decide +kernel

theorem callsIn_of_not_mem {words : List String} (h : "obj.self" ∉ words) : callsIn words = [] := by
  induction words with
  | nil => rfl
  | cons word words ih =>
      rw [List.mem_cons, not_or] at h
      rw [callsIn, if_neg (Ne.symm h.1), ih h.2]
      rfl

theorem callsIn_append_of_not_mem {words : List String} (h : "obj.self" ∉ words)
    (rest : List String) : callsIn (words ++ rest) = callsIn rest := by
  induction words with
  | nil => rfl
  | cons word words ih =>
      rw [List.mem_cons, not_or] at h
      rw [List.cons_append, callsIn, if_neg (Ne.symm h.1), ih h.2]
      rfl

/-- A line without a dot assigns nothing to the object. -/
theorem callsIn_words_of_not_mem (h : '.' ∉ line.toList) : callsIn (Text.words line) = [] :=
  callsIn_of_not_mem fun member => h (Text.mem_of_mem_words member (by decide))

/-- Whether a line refers to nothing. -/
structure IsSilent (line : String) : Prop where
  guards : guardsIn line = []
  calls : callsIn (Text.words line) = []

theorem isSilent_of_not_mem (noQuote : '\'' ∉ line.toList) (noDot : '.' ∉ line.toList) :
    IsSilent line :=
  ⟨guardsIn_of_not_mem noQuote, callsIn_words_of_not_mem noDot⟩

/-- Silent lines around others add nothing to what those refer to. -/
theorem flatMap_of_isSilent {front middle back : List String} (h : ∀ line ∈ front, IsSilent line)
    (h' : ∀ line ∈ back, IsSilent line) :
    (front ++ middle ++ back).flatMap guardsIn = middle.flatMap guardsIn ∧
      ((front ++ middle ++ back).flatMap fun line => callsIn (Text.words line)) =
        middle.flatMap fun line => callsIn (Text.words line) := by
  have guards {lines : List String} (silent : ∀ line ∈ lines, IsSilent line) :
      lines.flatMap guardsIn = [] :=
    List.flatMap_eq_nil_iff.mpr fun line member => (silent line member).guards
  have calls {lines : List String} (silent : ∀ line ∈ lines, IsSilent line) :
      (lines.flatMap fun line => callsIn (Text.words line)) = [] :=
    List.flatMap_eq_nil_iff.mpr fun line member => (silent line member).calls
  simp only [List.flatMap_append, guards h, guards h', calls h, calls h', List.nil_append,
    List.append_nil, and_self]

end Lines

end Matlab

end MexGlue
