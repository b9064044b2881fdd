import MexGlue.Proofs.Glue.Returns
import MexGlue.Proofs.Text.Call

/-!
# What the statements of a C++ file do

A statement of a function is of one of four kinds: it checks the number of inputs, takes an input
into a local, calls the library, or puts a value out. Which one it is, is read off what it sets and
what it calls. The lines of a body are read one by one, and the brace behind them does nothing.
-/

namespace MexGlue

namespace Mex

/-- The input with this index. -/
def input (i : Nat) : String := "in[" ++ i.repr ++ "]"

inductive Statement where
  | checks (passed : List String)
  /-- The local, the input that it is taken from and the class that is asked for. -/
  | takes (name input : String) (matlabClass : Option String)
  /-- The local for the result if there is one, and the call. -/
  | calls (result : Option String) (call : Text.Call)
  | puts (output : String)
  deriving DecidableEq, Repr

/-- What a taking statement calls. -/
def takers : List String := ["unwrap<", "unwrap_shared_ptr<", "*unwrap_shared_ptr<"]

namespace Statement

/-- The statement that makes this call and sets these words to what it returns. -/
def ofCall (target : List String) (call : Text.Call) : Statement :=
  if call.callee = ["checkArguments"] then .checks call.passed
  else if call.callee.headD "" ∈ takers then
    .takes (target.getLastD "") (call.passed.headD "")
      (call.passed[1]?.bind (Text.unquoted '"'))
  else .calls target.getLast? call

/-- A statement that sets a single word declares nothing, so it puts out. -/
def ofSetting (setting : Text.Setting) : Option Statement :=
  match setting.target with
  | [output] => some (.puts output)
  | target => setting.call.map (ofCall target)

def ofText? (text : String) : Option Statement := ofSetting (.ofText text)

theorem ofText?_eq_puts {text output : String}
    (target : (Text.Setting.ofText text).target = [output]) : ofText? text = some (.puts output) := by
  rw [ofText?, ofSetting, target]

end Statement

/-- What the statements of a C++ file do, in their order. -/
def body (text : String) : List Statement := (statements text).filterMap Statement.ofText?

/-- Whether the lines of a body do this, and each of them is one. -/
structure Does (lines : List String) (statements : List Statement) : Prop where
  free : ∀ line ∈ lines, '\n' ∉ line.toList
  read : (lines.map ("  " ++ ·)).filterMap Statement.ofText? = statements

namespace Does

variable {lines lines' : List String} {statements statements' : List Statement}

theorem append (h : Does lines statements) (h' : Does lines' statements') :
    Does (lines ++ lines') (statements ++ statements') where
  free := List.forall_mem_append.mpr ⟨h.free, h'.free⟩
  read := by rw [List.map_append, List.filterMap_append, h.read, h'.read]

theorem single {line : String} {statement : Statement} (free : '\n' ∉ line.toList)
    (read : Statement.ofText? ("  " ++ line) = some statement) : Does [line] [statement] where
  free := List.forall_mem_singleton.mpr free
  read := by rw [List.map_singleton, List.filterMap_cons, read, List.filterMap_nil]

theorem map {α : Type} {items : List α} {line : α → String} {statement : α → Statement}
    (h : ∀ item ∈ items, Does [line item] [statement item]) :
    Does (items.map line) (items.map statement) := by
  induction items with
  | nil => exact ⟨nofun, rfl⟩
  | cons item items ih =>
      obtain ⟨first, later⟩ := List.forall_mem_cons.mp h
      exact first.append (ih later)

/-- The file of a function does what its body does. -/
theorem body_mexFile (h : Does lines statements) (libraryNamespace : String) (cls : Class) :
    body (cls.mexFile libraryNamespace lines) = statements := by
  have ending : ["\x7d", ""].filterMap Statement.ofText? = [] := by decide +kernel
  rw [body, statements_mexFile h.free, List.filterMap_append, h.read, ending, List.append_nil]

end Does

/-! ## Single statements -/

/-- A statement without the equals sign does what its call does. -/
theorem Statement.ofText?_call {callee : String} (free : '=' ∉ callee.toList)
    (calleeFree : '(' ∉ callee.toList ∧ ')' ∉ callee.toList) {passed : List String}
    (h : ∀ text ∈ passed, Text.IsPassed text ∧ '=' ∉ text.toList) :
    Statement.ofText? (callee ++ "(" ++ ",".intercalate passed ++ ")" ++ ";") =
      some (.ofCall [] ⟨Text.words callee, passed⟩) := by
  have inside : '=' ∉ (",".intercalate passed).toList :=
    Text.not_mem_intercalate (by decide) fun text member => (h text member).2
  have whole : '=' ∉ (callee ++ "(" ++ ",".intercalate passed ++ ")" ++ ";").toList := by
    simp only [String.toList_append, List.mem_append, not_or]
    exact ⟨⟨⟨⟨free, by decide⟩, inside⟩, by decide⟩, by decide⟩
  rw [ofText?, Text.Setting.ofText_of_not_mem whole,
    Text.Call.ofText?_intercalate calleeFree fun text member => (h text member).1]
  rfl

/-- A statement that sets several words does what the call behind them does. -/
theorem Statement.ofText?_setting {target value : String} {call : Text.Call}
    (targetFree : '=' ∉ target.toList) (free : '=' ∉ value.toList)
    (several : 2 ≤ (Text.words target).length) (called : Text.Call.ofText? value = some call) :
    Statement.ofText? (target ++ "=" ++ value) = some (.ofCall (Text.words target) call) := by
  rw [ofText?, Text.Setting.ofText_append_of_not_mem targetFree free, ofSetting]
  split
  · rename_i single
    have length : (Text.words target).length = 1 := congrArg List.length single
    omega
  · rw [called, Option.map_some]

theorem Statement.ofText?_output {output : String} (word : Text.IsUnbroken output)
    (free : '=' ∉ output.toList) {value : String} (valueFree : '=' ∉ value.toList) :
    Statement.ofText? ("  " ++ (output ++ " = " ++ value)) = some (.puts output) := by
  have text : "  " ++ (output ++ " = " ++ value) =
      " " ++ (" " ++ (output ++ " " ++ "")) ++ "=" ++ (" " ++ value) := by
    simp [← String.toList_inj]
  refine ofText?_eq_puts ?_
  rw [text, Text.Setting.ofText_append_of_not_mem (by simp [free]) (by simp [valueFree]),
    Text.words_blank_append, Text.words_blank_append, word.words_append]
  rfl

end Mex

/-! ## Arguments -/

theorem HoldsWordChars.isPassed {text : String} (h : HoldsWordChars text) (nonempty : text ≠ "") :
    Text.IsPassed text :=
  ⟨⟨nonempty, h.not_mem rfl⟩, h.not_mem rfl, h.not_mem rfl, h.not_mem rfl⟩

/-- What is passed for an argument is its name, maybe behind an address mark. -/
theorem Argument.WellFormed.isPassed_callExpression {arg : Argument} (h : arg.WellFormed) :
    Text.IsPassed arg.callExpression ∧ '=' ∉ arg.callExpression.toList := by
  have name := h.name.isStem
  rw [callExpression]
  split
  · have free {c : Char} (mark : Pattern.isWordChar c = false) (other : c ≠ '&') :
        c ∉ ("&" ++ arg.name).toList := by
      simp [other, name.word.not_mem mark]
    exact ⟨⟨⟨fun empty => name.nonempty (String.append_eq_empty_iff.mp empty).2,
      free rfl (by decide)⟩, free rfl (by decide), free rfl (by decide), free rfl (by decide)⟩,
      free rfl (by decide)⟩
  · exact ⟨name.word.isPassed name.nonempty, name.word.not_mem rfl⟩

theorem isPassed_callExpressions {args : List Argument} (h : ∀ arg ∈ args, arg.WellFormed) :
    ∀ text ∈ args.map Argument.callExpression, Text.IsPassed text ∧ '=' ∉ text.toList :=
  List.forall_mem_map.mpr fun arg member => (h arg member).isPassed_callExpression

namespace Mex

theorem isPassed_input (i : Nat) : Text.IsPassed (input i) ∧ '=' ∉ (input i).toList := by
  have digits := holdsWordChars_repr i
  have free {c : Char} (mark : Pattern.isWordChar c = false) (other : c ≠ '[' ∧ c ≠ ']') :
      c ∉ (input i).toList := by
    have front : c ∉ "in[".toList := by
      have letters : c ≠ 'i' ∧ c ≠ 'n' := by
        constructor <;> (rintro rfl; exact absurd mark (by decide))
      simp [letters, other.1]
    simp only [input, String.toList_append, List.mem_append, not_or]
    exact ⟨⟨front, digits.not_mem mark⟩, by simp [other.2]⟩
  refine ⟨⟨⟨fun empty => ?_, free rfl (by decide)⟩, free rfl (by decide), free rfl (by decide),
    free rfl (by decide)⟩, free rfl (by decide)⟩
  exact absurd (String.append_eq_empty_iff.mp empty).2 (by decide)

/-- A statement that calls a taker with the type of C++ in angle brackets takes what it passes. -/
theorem Statement.ofText?_takes {target taker type inside behind : String}
    (targetFree : '=' ∉ target.toList) (several : 2 ≤ (Text.words target).length)
    (member : taker ∈ takers) (typeName : IsTypeName type)
    (insideFree : '(' ∉ inside.toList ∧ ')' ∉ inside.toList ∧ '=' ∉ inside.toList)
    (behindFree : '=' ∉ behind.toList) :
    Statement.ofText? (target ++ "=" ++
        (" " ++ (taker ++ " " ++ type ++ " >") ++ "(" ++ inside ++ ")" ++ behind)) =
      some (.takes ((Text.words target).getLastD "") ((Text.passedIn inside).headD "")
        ((Text.passedIn inside)[1]?.bind (Text.unquoted '"'))) := by
  have all : ∀ taker ∈ takers, Text.IsUnbroken taker ∧
      '(' ∉ taker.toList ∧ ')' ∉ taker.toList ∧ '=' ∉ taker.toList := by
    simp only [takers, List.forall_mem_cons]
    exact ⟨⟨⟨by decide, by decide⟩, by decide⟩, ⟨⟨by decide, by decide⟩, by decide⟩,
      ⟨⟨by decide, by decide⟩, by decide⟩, nofun⟩
  obtain ⟨word, noOpening, noClosing, noEquals⟩ := all taker member
  have free {c : Char} (notTaker : c ∉ taker.toList) (mark : Pattern.isWordChar c = false)
      (other : c ≠ ':' ∧ c ≠ ' ' ∧ c ≠ '>') :
      c ∉ (" " ++ (taker ++ " " ++ type ++ " >")).toList := by
    simp [notTaker, typeName.not_mem mark other.1, other]
  have words : Text.words (" " ++ (taker ++ " " ++ type ++ " >")) = [taker, type, ">"] := by
    have text : taker ++ " " ++ type ++ " >" = taker ++ " " ++ (type ++ " " ++ ">") := by
      simp [← String.toList_inj]
    rw [Text.words_blank_append, text, word.words_append, typeName.isUnbroken.words_append]
    rfl
  have called : Text.Call.ofText?
      (" " ++ (taker ++ " " ++ type ++ " >") ++ "(" ++ inside ++ ")" ++ behind) =
        some ⟨[taker, type, ">"], Text.passedIn inside⟩ := by
    rw [Text.Call.ofText?_append ⟨free noOpening rfl (by decide), free noClosing rfl (by decide)⟩
      ⟨insideFree.1, insideFree.2.1⟩, words]
  have valueFree :
      '=' ∉ (" " ++ (taker ++ " " ++ type ++ " >") ++ "(" ++ inside ++ ")" ++ behind).toList := by
    have front := free noEquals rfl (by decide)
    simp only [String.toList_append, List.mem_append, not_or] at front ⊢
    exact ⟨⟨⟨⟨front, by decide⟩, insideFree.2.2⟩, by decide⟩, behindFree⟩
  rw [ofText?_setting targetFree valueFree several called, ofCall, if_neg (by simp),
    if_pos (by simpa using member)]

/-- A class is asked for in quotes. -/
theorem isPassed_quote {matlabClass : String} (word : HoldsWordChars matlabClass) :
    Text.IsPassed ("\"" ++ matlabClass ++ "\"") ∧ '=' ∉ ("\"" ++ matlabClass ++ "\"").toList := by
  have free {c : Char} (mark : Pattern.isWordChar c = false) (other : c ≠ '"') :
      c ∉ ("\"" ++ matlabClass ++ "\"").toList := by
    simp [word.not_mem mark, other]
  exact ⟨⟨⟨fun empty => absurd (String.append_eq_empty_iff.mp empty).2 (by decide),
    free rfl (by decide)⟩, free rfl (by decide), free rfl (by decide), free rfl (by decide)⟩,
    free rfl (by decide)⟩

/-- The statement that takes an argument from the input with this index. -/
def takes (arg : Argument) (i : Nat) : Statement :=
  .takes arg.name (input i) (if arg.isClass then some (arg.qualifiedType "_") else none)

end Mex

namespace Argument

variable {arg : Argument}

theorem WellFormed.words_localWords (h : arg.WellFormed) :
    Text.words ("  " ++ (" ".intercalate arg.localWords ++ " ")) = arg.localWords := by
  have unbroken : ∀ word ∈ arg.localWords, Text.IsUnbroken word := by
    intro word member
    refine ⟨?_, (h.localWords_free word member).1⟩
    rcases List.mem_append.mp member with front | behind
    · split at front
      · rw [List.mem_singleton.mp front]
        decide
      · cases front
    · rcases List.mem_pair.mp behind with rfl | rfl
      · exact fun empty => h.isTypeName_cppType.nonempty (String.append_eq_empty_iff.mp empty).1
      · exact h.name.isStem.nonempty
  have text : "  " ++ (" ".intercalate arg.localWords ++ " ") =
      " " ++ (" " ++ (" ".intercalate arg.localWords ++ " " ++ "")) := by
    simp [← String.toList_inj]
  rw [text, Text.words_blank_append, Text.words_blank_append, Text.words_append,
    Text.words_intercalate unbroken]
  exact List.append_nil _

section Unwrap

/-- What the statement that takes an argument sets. -/
theorem WellFormed.target_unwrapStatement (h : arg.WellFormed) :
    '=' ∉ ("  " ++ (" ".intercalate arg.localWords ++ " ")).toList ∧
      2 ≤ (Text.words ("  " ++ (" ".intercalate arg.localWords ++ " "))).length ∧
      (Text.words ("  " ++ (" ".intercalate arg.localWords ++ " "))).getLastD "" = arg.name := by
  have words : '=' ∉ (" ".intercalate arg.localWords).toList :=
    Text.not_mem_intercalate (by decide) fun word member => (h.localWords_free word member).2
  rw [h.words_localWords, localWords, List.length_append]
  refine ⟨?_, Nat.le_add_left 2 _, by simp⟩
  simp only [String.toList_append, List.mem_append, not_or]
  exact ⟨by decide, words, by decide⟩

theorem WellFormed.read_unwrapStatement_of_isClass (h : arg.WellFormed)
    (isClass : arg.isClass = true) (i : Nat) : Mex.Statement.ofText? ("  " ++ arg.unwrapStatement i) =
      some (.takes arg.name (Mex.input i) (some (arg.qualifiedType "_"))) := by
  obtain ⟨targetFree, several, last⟩ := h.target_unwrapStatement
  have matlabClass : HoldsWordChars (arg.qualifiedType "_") :=
    holdsWordChars_qualify holdsWordChars_joint h.holdsWordChars
  have passed := Mex.isPassed_input i
  have quote := Mex.isPassed_quote matlabClass
  have insideFree {c : Char} (notInput : c ∉ (Mex.input i).toList)
      (notQuote : c ∉ ("\"" ++ arg.qualifiedType "_" ++ "\"").toList) (other : c ≠ ',' ∧ c ≠ ' ') :
      c ∉ (Mex.input i ++ "," ++ (" " ++ ("\"" ++ arg.qualifiedType "_" ++ "\""))).toList := by
    simp only [String.toList_append, List.mem_append, not_or] at notQuote ⊢
    exact ⟨⟨notInput, by simp [other.1]⟩, by simp [other.2], notQuote⟩
  have taker : (if arg.isPointer then "" else "*") ++ "unwrap_shared_ptr<" ∈ Mex.takers := by
    cases arg.isPointer <;> decide
  have behindFree : '=' ∉ (if arg.isPointer then ".get();" else ";").toList := by
    cases arg.isPointer <;> decide
  have index : Int.repr i = i.repr := rfl
  have text : "  " ++ arg.unwrapStatement i =
      "  " ++ (" ".intercalate arg.localWords ++ " ") ++ "=" ++
        (" " ++ ((if arg.isPointer then "" else "*") ++ "unwrap_shared_ptr<" ++ " " ++
            arg.cppType ++ " >") ++ "(" ++
          (Mex.input i ++ "," ++ (" " ++ ("\"" ++ arg.qualifiedType "_" ++ "\""))) ++ ")" ++
          (if arg.isPointer then ".get();" else ";")) := by
    rw [unwrapStatement_eq, localValue, if_pos isClass, index, Mex.input]
    cases arg.isPointer <;>
      simp only [← String.toList_inj, String.toList_append, List.append_assoc] <;> rfl
  rw [text, Mex.Statement.ofText?_takes targetFree several taker h.isTypeName_cppType
    ⟨insideFree passed.1.noBracket.1 quote.1.noBracket.1 (by decide),
      insideFree passed.1.noBracket.2 quote.1.noBracket.2 (by decide),
      insideFree passed.2 quote.2 (by decide)⟩ behindFree,
    last, passed.1.passedIn_append, quote.1.passedIn_blank_append]
  exact congrArg (fun name => some (Mex.Statement.takes arg.name (Mex.input i) name))
    (Text.unquoted_quote rfl (matlabClass.not_mem rfl))

theorem WellFormed.read_unwrapStatement_of_not_isClass (h : arg.WellFormed)
    (isClass : arg.isClass = false) (i : Nat) :
    Mex.Statement.ofText? ("  " ++ arg.unwrapStatement i) =
      some (.takes arg.name (Mex.input i) none) := by
  obtain ⟨targetFree, several, last⟩ := h.target_unwrapStatement
  have passed := Mex.isPassed_input i
  have index : Int.repr i = i.repr := rfl
  have text : "  " ++ arg.unwrapStatement i =
      "  " ++ (" ".intercalate arg.localWords ++ " ") ++ "=" ++
        (" " ++ ("unwrap<" ++ " " ++ arg.cppType ++ " >") ++ "(" ++ Mex.input i ++ ")" ++ ";") := by
    rw [unwrapStatement_eq, localValue, if_neg (by simp [isClass]), index, Mex.input]
    simp only [← String.toList_inj, String.toList_append, List.append_assoc]
    rfl
  rw [text, Mex.Statement.ofText?_takes targetFree several (by decide) h.isTypeName_cppType
    ⟨passed.1.noBracket.1, passed.1.noBracket.2, passed.2⟩ (by decide), last, passed.1.passedIn]
  rfl

theorem WellFormed.does_unwrapStatement (h : arg.WellFormed) (i : Nat) :
    Mex.Does [arg.unwrapStatement i] [Mex.takes arg i] := by
  refine .single ((h.tells_unwrapStatement i).lines _ List.mem_cons_self) ?_
  cases isClass : arg.isClass with
  | true => rw [h.read_unwrapStatement_of_isClass isClass, Mex.takes, if_pos isClass]
  | false =>
      rw [h.read_unwrapStatement_of_not_isClass isClass, Mex.takes, if_neg (by simp [isClass])]

end Unwrap

end Argument

theorem does_unwrapStatements {args : List Argument} (h : ∀ arg ∈ args, arg.WellFormed)
    (first : Nat) :
    Mex.Does (unwrapStatements first args)
      ((args.zipIdx first).map fun arg => Mex.takes arg.1 arg.2) :=
  .map fun arg member => (h arg.1 (List.fst_mem_of_mem_zipIdx member)).does_unwrapStatement arg.2

/-! ## Checks and receivers -/

namespace Mex

theorem does_check {name given : String} (word : HoldsWordChars name)
    (passedGiven : Text.IsPassed given ∧ '=' ∉ given.toList) (line : '\n' ∉ given.toList)
    (count : Nat) :
    Does [checkStatement name given count]
      [.checks ["\"" ++ name ++ "\"", "nargout", given, count.repr]] := by
  have digits := holdsWordChars_repr count
  have passed : ∀ text ∈ ["\"" ++ name ++ "\"", "nargout", given, count.repr],
      Text.IsPassed text ∧ '=' ∉ text.toList := by
    have fixed : HoldsWordChars "nargout" := List.all_eq_true.mp rfl
    simp only [List.forall_mem_cons]
    exact ⟨isPassed_quote word, ⟨fixed.isPassed (by decide), by decide⟩, passedGiven,
      ⟨digits.isPassed Nat.repr_ne_empty, digits.not_mem rfl⟩, nofun⟩
  have free : '\n' ∉ (checkStatement name given count).toList := by
    have nameFree : '\n' ∉ name.toList := word.not_mem rfl
    have countFree : '\n' ∉ count.repr.toList := digits.not_mem rfl
    unfold checkStatement
    generalize count.repr = digits at countFree
    simp [nameFree, line, countFree]
  have text : "  " ++ checkStatement name given count =
      "  checkArguments" ++ "(" ++
        ",".intercalate ["\"" ++ name ++ "\"", "nargout", given, count.repr] ++ ")" ++ ";" := by
    unfold checkStatement
    generalize count.repr = digits
    simp [← String.toList_inj]
  refine .single free ?_
  rw [text, Statement.ofText?_call (by decide) (by decide) passed]
  rfl

theorem isPassed_nargin : Text.IsPassed "nargin" ∧ '=' ∉ "nargin".toList :=
  have word : HoldsWordChars "nargin" := List.all_eq_true.mp rfl
  ⟨word.isPassed (by decide), by decide⟩

theorem isPassed_nargin_sub_one : Text.IsPassed "nargin-1" ∧ '=' ∉ "nargin-1".toList :=
  ⟨⟨⟨by decide, by decide⟩, by decide, by decide⟩, by decide⟩

end Mex

theorem Class.WellFormed.does_receiverStatement {cls : Class} (h : cls.WellFormed) :
    Mex.Does [cls.receiverStatement] [.takes "self" (Mex.input 0) (some cls.matlabName)] := by
  have type := h.isTypeName_cppName
  have name := h.isStem_matlabName.word
  have quote := Mex.isPassed_quote name
  have insideFree {c : Char} (notInput : c ∉ (Mex.input 0).toList)
      (notQuote : c ∉ ("\"" ++ cls.matlabName ++ "\"").toList) (notComma : c ≠ ',') :
      c ∉ (Mex.input 0 ++ "," ++ ("\"" ++ cls.matlabName ++ "\"")).toList := by
    simp only [String.toList_append, List.mem_append, not_or] at notQuote ⊢
    exact ⟨⟨notInput, by simp [notComma]⟩, notQuote⟩
  have object : Text.IsUnbroken ("boost::shared_ptr<" ++ cls.cppName ++ ">") := by
    refine ⟨fun empty => absurd (String.append_eq_empty_iff.mp empty).2 (by decide), ?_⟩
    simp [type.isUnbroken.noBlank]
  have words : Text.words ("  " ++ ("boost::shared_ptr<" ++ cls.cppName ++ ">" ++ " self ")) =
      ["boost::shared_ptr<" ++ cls.cppName ++ ">", "self"] := by
    have split : "  " ++ ("boost::shared_ptr<" ++ cls.cppName ++ ">" ++ " self ") =
        " " ++ (" " ++ ("boost::shared_ptr<" ++ cls.cppName ++ ">" ++ " " ++ "self ")) := by
      simp [← String.toList_inj]
    rw [split, Text.words_blank_append, Text.words_blank_append, object.words_append]
    rfl
  have targetFree : '=' ∉
      ("  " ++ ("boost::shared_ptr<" ++ cls.cppName ++ ">" ++ " self ")).toList := by
    have typeFree : '=' ∉ cls.cppName.toList := type.not_mem rfl (by decide)
    simp [typeFree]
  have passed := Mex.isPassed_input 0
  have text : "  " ++ cls.receiverStatement =
      "  " ++ ("boost::shared_ptr<" ++ cls.cppName ++ ">" ++ " self ") ++ "=" ++
        (" " ++ ("unwrap_shared_ptr<" ++ " " ++ cls.cppName ++ " >") ++ "(" ++
          (Mex.input 0 ++ "," ++ ("\"" ++ cls.matlabName ++ "\"")) ++ ")" ++ ";") := by
    unfold receiverStatement
    simp only [← String.toList_inj, String.toList_append, List.append_assoc]
    rfl
  refine .single (h.tells_receiverStatement.lines _ List.mem_cons_self) ?_
  have two : 2 ≤ (Text.words
      ("  " ++ ("boost::shared_ptr<" ++ cls.cppName ++ ">" ++ " self "))).length := by
    rw [words]
    exact Nat.le_refl 2
  rw [text, Mex.Statement.ofText?_takes targetFree two (by decide) type
    ⟨insideFree passed.1.noBracket.1 quote.1.noBracket.1 (by decide),
      insideFree passed.1.noBracket.2 quote.1.noBracket.2 (by decide),
      insideFree passed.2 quote.2 (by decide)⟩ (by decide),
    words, passed.1.passedIn_append, quote.1.passedIn]
  exact congrArg (fun name => some (Mex.Statement.takes "self" (Mex.input 0) name))
    (Text.unquoted_quote rfl (name.not_mem rfl))

end MexGlue
