import MexGlue.Proofs.Glue.Proxy
import MexGlue.Proofs.Glue.Statements

/-!
# What a proxy tries

A line of a proxy that tries a constructor asks for the number of what it is called with and for the
class of each of these, with an ampersand between any two conditions, and assigns what the
constructor's function returns. A stub has a single function, with the names of its parameters.
-/

namespace MexGlue

theorem Text.Call.ofText?_of_not_mem {text : String} (free : '(' ∉ text.toList) :
    Call.ofText? text = none := by
  rw [ofText?]
  cases cut : Text.parts ')' text with
  | nil => rfl
  | cons front rest =>
      have frontFree : '(' ∉ front.toList := fun member =>
        free (Text.mem_of_mem_parts (cut ▸ List.mem_cons_self) member)
      rw [List.head?_cons, Option.map_some, Text.parts_of_not_mem frontFree]

namespace Matlab

/-- A line that tries a constructor: the number that it asks for, the classes that it asks for by
parameter, and the call. -/
structure Dispatch where
  count : String
  guards : List (String × String)
  call : Text.Call
  deriving DecidableEq, Repr

/-- The parameter and the class of a condition. -/
def guard? (condition : String) : Option (String × String) :=
  (Text.Call.ofText? condition).bind fun call =>
    if call.callee = ["isa"] then
      match call.passed with
      | [parameter, name] => (Text.unquoted '\'' name).map (parameter, ·)
      | _ => none
    else none

def dispatch? (line : String) : Option Dispatch :=
  let condition := Text.words ((Text.parts ',' line).headD "")
  if condition.take 3 = ["if", "nargin", "=="] then
    (Text.Setting.ofText line).call.map fun call =>
      ⟨(condition.drop 3).headD "", (Text.parts '&' line).filterMap guard?, call⟩
  else none

/-- The constructors that a proxy tries, in its order. -/
def dispatches (text : String) : List Dispatch := (Text.lines text).filterMap dispatch?

/-- The function whose result has this name in a line, with its parameters. -/
def function? (line : String) : Option Text.Call :=
  if (Text.Setting.ofText line).target = ["function", "result"] then
    (Text.Setting.ofText line).call
  else none

def functions (text : String) : List Text.Call := (Text.lines text).filterMap function?

example : dispatch? "if nargin == 1 && isa(x,'A'), obj.self = f(x); end" =
    some ⟨"1", [("x", "A")], ⟨["f"], ["x"]⟩⟩ := by
  decide +kernel

/-! ## Conditions -/

theorem guard?_of_not_mem {condition : String} (free : '(' ∉ condition.toList) :
    guard? condition = none := by
  rw [guard?, Text.Call.ofText?_of_not_mem free, Option.bind_none]

/-- A condition asks for the class of its parameter, whatever stands behind it. -/
theorem guard?_isa {parameter name : String} (passed : Text.IsPassed parameter)
    (word : HoldsWordChars name) (behind : String) :
    guard? (" isa(" ++ parameter ++ ",'" ++ name ++ "')" ++ behind) = some (parameter, name) := by
  have free {c : Char} (mark : Pattern.isWordChar c = false) (other : c ≠ '\'') :
      c ∉ ("'" ++ name ++ "'").toList := by
    simp [word.not_mem mark, other]
  have quote : Text.IsPassed ("'" ++ name ++ "'") :=
    ⟨⟨fun empty => absurd (String.append_eq_empty_iff.mp empty).2 (by decide),
      free rfl (by decide)⟩, free rfl (by decide), free rfl (by decide), free rfl (by decide)⟩
  have text : " isa(" ++ parameter ++ ",'" ++ name ++ "')" ++ behind =
      " isa" ++ "(" ++ ",".intercalate [parameter, "'" ++ name ++ "'"] ++ ")" ++ behind := by
    simp [← String.toList_inj]
  have called : Text.Call.ofText? (" isa(" ++ parameter ++ ",'" ++ name ++ "')" ++ behind) =
      some ⟨["isa"], [parameter, "'" ++ name ++ "'"]⟩ := by
    rw [text, Text.Call.ofText?_intercalate (by decide)
      (List.forall_mem_cons.mpr ⟨passed, List.forall_mem_singleton.mpr quote⟩)]
    rfl
  have asked : Text.unquoted '\'' ("'" ++ name ++ "'") = some name :=
    Text.unquoted_quote rfl (word.not_mem rfl)
  rw [guard?, called, Option.bind_some, if_pos rfl]
  simp only [asked, Option.map_some]

end Matlab

theorem isPassed_proxyParameter (i : Nat) : Text.IsPassed (proxyParameter i) := by
  have free {c : Char} (mark : Pattern.isWordChar c = false) (other : c ≠ '\x7b' ∧ c ≠ '\x7d') :=
    not_mem_proxyParameter mark other i
  refine ⟨⟨fun empty => ?_, free rfl (by decide)⟩, free rfl (by decide), free rfl (by decide),
    free rfl (by decide)⟩
  exact absurd (String.append_eq_empty_iff.mp empty).2 (by decide)

/-- What a proxy asks of an argument, by the parameter that it is given in. -/
def guardOf (arg : Argument × Nat) : String × String := (proxyParameter arg.2, arg.1.matlabClass)

/-- Conditions are read one by one, behind a start that has one or none. -/
theorem filterMap_guard?_isaTexts {start rest : String} (startFree : '&' ∉ start.toList)
    (restFree : '&' ∉ rest.toList) {found : Option (String × String)}
    (inFront : Matlab.guard? (start ++ " ") = found) (alone : Matlab.guard? (start ++ rest) = found)
    {args : List (Argument × Nat)} (classes : ∀ arg ∈ args, HoldsWordChars arg.1.matlabClass) :
    (Text.parts '&' (start ++ String.join (args.map isaText) ++ rest)).filterMap Matlab.guard? =
      found.toList ++ args.map guardOf := by
  induction args generalizing start found with
  | nil =>
      have text : start ++ String.join ([].map isaText) ++ rest = start ++ rest := by simp
      have free : '&' ∉ (start ++ rest).toList := by simp [startFree, restFree]
      rw [text, Text.parts_of_not_mem free, List.filterMap_cons, alone]
      cases found <;> rfl
  | cons arg args ih =>
      obtain ⟨here, behind⟩ := List.forall_mem_cons.mp classes
      have parameter := isPassed_proxyParameter arg.2
      have text : start ++ String.join ((arg :: args).map isaText) ++ rest =
          start ++ " " ++ "&" ++ ("" ++ "&" ++
            (" isa(" ++ proxyParameter arg.2 ++ ",'" ++ arg.1.matlabClass ++ "')" ++
              String.join (args.map isaText) ++ rest)) := by
        simp [isaText, ← String.toList_inj]
      have conditionFree : '&' ∉
          (" isa(" ++ proxyParameter arg.2 ++ ",'" ++ arg.1.matlabClass ++ "')").toList := by
        have parameterFree := not_mem_proxyParameter (c := '&') rfl (by decide) arg.2
        have nameFree : '&' ∉ arg.1.matlabClass.toList := here.not_mem rfl
        simp [parameterFree, nameFree]
      have later := ih conditionFree (Matlab.guard?_isa parameter here " ")
        (Matlab.guard?_isa parameter here rest) behind
      have nothing : Matlab.guard? "" = none := Matlab.guard?_of_not_mem (by decide)
      rw [text, Text.parts_append_of_not_mem rfl (by simp [startFree]),
        Text.parts_append_of_not_mem rfl (by decide), List.filterMap_cons, inFront,
        List.filterMap_cons, nothing, later]
      cases found <;> rfl

/-! ## Lines that try a constructor -/

/-- What stands in front of the first comma of a line starts with the number that is asked for. -/
theorem exists_condition (ctor : Constructor) (behind : String) :
    ∃ front rest more,
      "      if nargin == " ++ ctor.args.length.repr ++
          String.join ((ctor.args.zipIdx 1).map isaText) ++ ("," ++ behind) =
        front ++ "," ++ rest ∧ ',' ∉ front.toList ∧
      Text.words front = ["if", "nargin", "=="] ++ ctor.args.length.repr :: more := by
  have count : Text.IsUnbroken ctor.args.length.repr :=
    ⟨Nat.repr_ne_empty, (holdsWordChars_repr _).not_mem rfl⟩
  have countFree : ',' ∉ ctor.args.length.repr.toList := (holdsWordChars_repr _).not_mem rfl
  have start : Text.words "      if nargin ==" = ["if", "nargin", "=="] := by decide +kernel
  cases ctor.args.zipIdx 1 with
  | nil =>
      refine ⟨"      if nargin ==" ++ " " ++ ctor.args.length.repr, behind, [], ?_, ?_, ?_⟩
      · simp [← String.toList_inj]
      · simp [-Nat.toList_repr, countFree]
      · rw [Text.words_append, start, count.words]
  | cons arg args =>
      refine ⟨"      if nargin ==" ++ " " ++
          (ctor.args.length.repr ++ " " ++ ("&& isa(" ++ proxyParameter arg.2)),
        "'" ++ arg.1.matlabClass ++ "')" ++ String.join (args.map isaText) ++ ("," ++ behind),
        Text.words ("&& isa(" ++ proxyParameter arg.2), ?_, ?_, ?_⟩
      · simp [isaText, ← String.toList_inj]
      · have parameter := not_mem_proxyParameter (c := ',') rfl (by decide) arg.2
        simp [-Nat.toList_repr, countFree, parameter]
      · rw [Text.words_append, start, count.words_append]

/-- What the proxy tries for a constructor that has this function. -/
def Constructor.dispatch (ctor : Constructor) (name : String) : Matlab.Dispatch where
  count := ctor.args.length.repr
  guards := (ctor.args.zipIdx 1).map guardOf
  call := ⟨[name], (ctor.args.zipIdx 1).map fun arg => proxyParameter arg.2⟩

namespace Class.WellFormed

variable {cls : Class} {ctor : Constructor}

/-- The call behind the last equals sign of a line. -/
theorem call_dispatchLine (h : cls.WellFormed) (member : ctor ∈ cls.constructors) :
    (Text.Setting.ofText (cls.dispatchLine ctor)).call =
      some (ctor.dispatch (cls.constructorName ctor)).call := by
  have name {c : Char} (mark : Pattern.isWordChar c = false) :
      c ∉ (cls.constructorName ctor).toList := (h.isStem_constructorName member).word.not_mem mark
  have passed : ∀ text ∈ (ctor.args.zipIdx 1).map fun arg => proxyParameter arg.2,
      Text.IsPassed text := List.forall_mem_map.mpr fun arg _ => isPassed_proxyParameter arg.2
  have called : Text.words (" " ++ cls.constructorName ctor) = [cls.constructorName ctor] := by
    rw [Text.words_blank_append]
    exact (Text.IsUnbroken.mk (h.isStem_constructorName member).nonempty (name rfl)).words
  have text : cls.dispatchLine ctor =
      "      if nargin == " ++ ctor.args.length.repr ++
          String.join ((ctor.args.zipIdx 1).map isaText) ++ ", obj.self " ++ "=" ++
        (" " ++ cls.constructorName ctor ++ "(" ++
          ",".intercalate ((ctor.args.zipIdx 1).map fun arg => proxyParameter arg.2) ++ ")" ++
            "; end") := by
    rw [h.dispatchLine_eq member, Constructor.passedParameters]
    simp [← String.toList_inj]
  have valueFree : '=' ∉ (" " ++ cls.constructorName ctor ++ "(" ++
      ",".intercalate ((ctor.args.zipIdx 1).map fun arg => proxyParameter arg.2) ++ ")" ++
        "; end").toList := by
    have parameters := not_mem_passedParameters (c := '=') rfl (by decide) ctor
    rw [Constructor.passedParameters] at parameters
    simp only [String.toList_append, List.mem_append, not_or]
    exact ⟨⟨⟨⟨⟨by decide, name rfl⟩, by decide⟩, parameters⟩, by decide⟩, by decide⟩
  rw [text, Text.Setting.ofText_append_value _ valueFree, Text.Call.ofText?_intercalate
    ⟨by simp [name (c := '(') rfl], by simp [name (c := ')') rfl]⟩ passed, called]
  rfl

/-- The conditions of a line, parameter by parameter. -/
theorem guards_dispatchLine (h : cls.WellFormed) (member : ctor ∈ cls.constructors) :
    (Text.parts '&' (cls.dispatchLine ctor)).filterMap Matlab.guard? =
      (ctor.args.zipIdx 1).map guardOf := by
  have name {c : Char} (mark : Pattern.isWordChar c = false) :
      c ∉ (cls.constructorName ctor).toList := (h.isStem_constructorName member).word.not_mem mark
  have count {c : Char} (mark : Pattern.isWordChar c = false) :
      c ∉ ctor.args.length.repr.toList := (holdsWordChars_repr _).not_mem mark
  have parameters {c : Char} (mark : Pattern.isWordChar c = false)
      (notPart : c ≠ '\x7b' ∧ c ≠ '\x7d' ∧ c ≠ ',') := not_mem_passedParameters mark notPart ctor
  have free {c : Char} (mark : Pattern.isWordChar c = false)
      (other : c ∉ "      if nargin == , obj.self = ".toList) :
      c ∉ ("      if" ++ " " ++ ("nargin == " ++ ctor.args.length.repr ++ ", obj.self = " ++
        cls.constructorName ctor)).toList := by
    simp only [String.reduceToList, List.mem_cons, not_or] at other
    simp [-Nat.toList_repr, count mark, name mark, other]
  have alone : Matlab.guard? ("      if nargin == " ++ ctor.args.length.repr ++
      (", obj.self = " ++ cls.constructorName ctor ++ "(" ++ ctor.passedParameters ++ "); end")) =
        none := by
    have text : "      if nargin == " ++ ctor.args.length.repr ++
        (", obj.self = " ++ cls.constructorName ctor ++ "(" ++ ctor.passedParameters ++ "); end") =
        "      if" ++ " " ++ ("nargin == " ++ ctor.args.length.repr ++ ", obj.self = " ++
          cls.constructorName ctor) ++ "(" ++ ctor.passedParameters ++ ")" ++ "; end" := by
      simp [← String.toList_inj]
    have start : Text.words "      if" = ["if"] := by decide +kernel
    rw [text, Matlab.guard?, Text.Call.ofText?_append
      ⟨free rfl (by decide), free rfl (by decide)⟩
      ⟨parameters rfl (by decide), parameters rfl (by decide)⟩, Option.bind_some,
      Text.words_append, start]
    exact if_neg fun same => absurd (List.cons.inj same).1 (by decide)
  have inFront : Matlab.guard? ("      if nargin == " ++ ctor.args.length.repr ++ " ") = none :=
    Matlab.guard?_of_not_mem (by simp [-Nat.toList_repr, count (c := '(') rfl])
  rw [h.dispatchLine_eq member, filterMap_guard?_isaTexts
    (by simp [-Nat.toList_repr, count (c := '&') rfl])
    (by simp [name (c := '&') rfl, parameters (c := '&') rfl (by decide)]) inFront alone
    (h.matlabClasses member)]
  rfl

/-- What a line of a proxy tries. -/
theorem dispatch?_dispatchLine (h : cls.WellFormed) (member : ctor ∈ cls.constructors) :
    Matlab.dispatch? (cls.dispatchLine ctor) = some (ctor.dispatch (cls.constructorName ctor)) := by
  obtain ⟨front, rest, more, text, frontFree, words⟩ := exists_condition ctor
    (" obj.self = " ++ cls.constructorName ctor ++ "(" ++ ctor.passedParameters ++ "); end")
  have line : cls.dispatchLine ctor = front ++ "," ++ rest := by
    rw [h.dispatchLine_eq member, ← text]
    simp [← String.toList_inj]
  have condition : Text.words ((Text.parts ',' (cls.dispatchLine ctor)).headD "") =
      ["if", "nargin", "=="] ++ ctor.args.length.repr :: more := by
    rw [line, Text.parts_append_of_not_mem rfl frontFree, List.headD_cons, words]
  rw [Matlab.dispatch?, h.call_dispatchLine member, h.guards_dispatchLine member, condition]
  exact if_pos rfl

/-- A line that does not ask for a number first tries nothing. -/
theorem dispatch?_eq_none {line front : String} {words : List String}
    (cut : (Text.parts ',' line).headD "" = front) (read : Text.words front = words)
    (other : words.take 3 ≠ ["if", "nargin", "=="]) : Matlab.dispatch? line = none := by
  rw [Matlab.dispatch?, cut, read]
  exact if_neg other

theorem dispatch?_of_first {front rest first : String} (free : ',' ∉ (front ++ " " ++ rest).toList)
    (read : Text.words front = [first]) (other : first ≠ "if") :
    Matlab.dispatch? (front ++ " " ++ rest) = none := by
  have cut : (Text.parts ',' (front ++ " " ++ rest)).headD "" = front ++ " " ++ rest := by
    rw [Text.parts_of_not_mem free, List.headD_cons]
  have words : Text.words (front ++ " " ++ rest) = first :: Text.words rest := by
    rw [Text.words_append, read, List.singleton_append]
  exact dispatch?_eq_none cut words fun same => other (List.cons.inj same).1

theorem dispatch?_opening (h : cls.WellFormed) :
    ∀ line ∈ opening cls, Matlab.dispatch? line = none := by
  have name : ',' ∉ cls.matlabName.toList := h.isStem_matlabName.word.not_mem rfl
  have fixed : ∀ line ∈ ["% " ++ banner, "  properties", "    self = 0", "  end", "  methods"],
      Matlab.dispatch? line = none := by decide +kernel
  have declared : Matlab.dispatch? ("classdef " ++ cls.matlabName) = none := by
    have read : Text.words "classdef" = ["classdef"] := by decide +kernel
    have text : "classdef " ++ cls.matlabName = "classdef" ++ " " ++ cls.matlabName := by simp
    rw [text]
    exact dispatch?_of_first (by simp [name]) read (by decide)
  have maker :
      Matlab.dispatch? ("    function obj = " ++ cls.matlabName ++ "(varargin)") = none := by
    have text : "    function obj = " ++ cls.matlabName ++ "(varargin)" =
        "    function" ++ " " ++ ("obj = " ++ cls.matlabName ++ "(varargin)") := by
      simp [← String.toList_inj]
    have read : Text.words "    function" = ["function"] := by decide +kernel
    rw [text]
    exact dispatch?_of_first (by simp [name]) read (by decide)
  simp only [List.forall_mem_cons] at fixed
  simp only [opening, List.forall_mem_cons]
  exact ⟨fixed.1, declared, fixed.2.1, fixed.2.2.1, fixed.2.2.2.1, fixed.2.2.2.2.1, maker,
    List.forall_mem_nil _⟩

theorem dispatch?_closing (cls : Class) : ∀ line ∈ closing cls, Matlab.dispatch? line = none := by
  have fixed : ∀ line ∈ ["    end", "    function display(obj), obj.print(''); end",
      "    function disp(obj), obj.display; end", "  end", "end", ""],
      Matlab.dispatch? line = none := by decide +kernel
  have failure : Matlab.dispatch?
      ("      if obj.self == 0, error('" ++ cls.matlabName ++ " constructor failed'); end") =
        none := by
    have text : "      if obj.self == 0, error('" ++ cls.matlabName ++ " constructor failed'); end" =
        "      if obj.self == 0" ++ "," ++
          (" error('" ++ cls.matlabName ++ " constructor failed'); end") := by
      simp [← String.toList_inj]
    have start : Text.words "      if obj.self == 0" = ["if", "obj.self", "==", "0"] := by
      decide +kernel
    refine dispatch?_eq_none ?_ start (by decide)
    rw [text, Text.parts_append_of_not_mem rfl (by decide)]
    rfl
  exact List.forall_mem_cons.mpr ⟨failure, fixed⟩

/-- A proxy tries the constructors of its class, in their order. -/
theorem dispatches_proxy (h : cls.WellFormed) :
    Matlab.dispatches cls.proxyArtifact.text =
      cls.constructors.map fun ctor => ctor.dispatch (cls.constructorName ctor) := by
  have tried : (cls.constructors.map cls.dispatchLine).filterMap Matlab.dispatch? =
      cls.constructors.map fun ctor => ctor.dispatch (cls.constructorName ctor) := by
    have each : ∀ ctor ∈ cls.constructors, (Matlab.dispatch? ∘ cls.dispatchLine) ctor =
        (some ∘ fun ctor => ctor.dispatch (cls.constructorName ctor)) ctor := by
      intro ctor member
      rw [Function.comp_apply, h.dispatch?_dispatchLine member, Function.comp_apply]
    rw [List.filterMap_map, List.filterMap_congr each, List.filterMap_eq_map]
  rw [Matlab.dispatches, h.lines_proxy, List.filterMap_append, List.filterMap_append, tried,
    List.filterMap_eq_nil_iff.mpr h.dispatch?_opening,
    List.filterMap_eq_nil_iff.mpr (dispatch?_closing cls), List.nil_append, List.append_nil]

end Class.WellFormed

/-! ## Stubs -/

theorem functions_stub {name : String} {parameters : List String} (stem : IsStem name)
    (words : ∀ parameter ∈ parameters, IsStem parameter) :
    Matlab.functions (stub name parameters) = [⟨[name], parameters⟩] := by
  have passed : ∀ parameter ∈ parameters, Text.IsPassed parameter := fun parameter member =>
    (words parameter member).word.isPassed (words parameter member).nonempty
  have called : Text.words (" " ++ name) = [name] := by
    rw [Text.words_blank_append]
    exact (Text.IsUnbroken.mk stem.nonempty (stem.word.not_mem rfl)).words
  have nameFree {c : Char} (mark : Pattern.isWordChar c = false) : c ∉ name.toList :=
    stem.word.not_mem mark
  have signature : Matlab.function?
      ("function result = " ++ name ++ "(" ++ ",".intercalate parameters ++ ")") =
        some ⟨[name], parameters⟩ := by
    have text : "function result = " ++ name ++ "(" ++ ",".intercalate parameters ++ ")" =
        "function result " ++ "=" ++
          (" " ++ name ++ "(" ++ ",".intercalate parameters ++ ")" ++ "") := by
      simp only [← String.toList_inj, String.toList_append, List.append_assoc]
      simp
    have valueFree :
        '=' ∉ (" " ++ name ++ "(" ++ ",".intercalate parameters ++ ")" ++ "").toList := by
      have inside : '=' ∉ (",".intercalate parameters).toList :=
        Text.not_mem_intercalate (by decide) fun parameter member =>
          (words parameter member).word.not_mem rfl
      simp only [String.toList_append, List.mem_append, not_or]
      exact ⟨⟨⟨⟨⟨by decide, nameFree rfl⟩, by decide⟩, inside⟩, by decide⟩, by decide⟩
    have target : Text.words "function result " = ["function", "result"] := by decide +kernel
    rw [text, Matlab.function?, Text.Setting.ofText_append_of_not_mem (by decide) valueFree, target,
      if_pos rfl, Text.Call.ofText?_intercalate
        ⟨by simp [nameFree (c := '(') rfl], by simp [nameFree (c := ')') rfl]⟩ passed, called]
  have silent {line : String} (free : '=' ∉ line.toList) : Matlab.function? line = none := by
    rw [Matlab.function?, Text.Setting.ofText_of_not_mem free]
    exact if_neg (List.cons_ne_nil _ _).symm
  have message : '=' ∉ ("  error('need to compile " ++ name ++ ".cpp');").toList := by
    simp [nameFree (c := '=') rfl]
  rw [Matlab.functions, lines_stub stem words, List.filterMap_cons, silent (by decide),
    List.filterMap_cons, signature, List.filterMap_cons, silent message, List.filterMap_cons,
    silent (by decide), List.filterMap_cons, silent (by decide), List.filterMap_nil]

end MexGlue
