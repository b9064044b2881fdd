import MexGlue.Proofs.Dependency.Verification
import MexGlue.Proofs.Glue.Mex
import MexGlue.Proofs.Toolbox.Functions

/-!
# What the C++ files of a class refer to

A C++ file refers to the classes of its arguments and of what it returns, each with the type of C++
that it takes or shares; a method's file refers to its own class in front of these, and that of a
constructor behind them. Whatever is included in front of the function is not read.
-/

namespace MexGlue

/-! ## Types of C++ -/

/-- Whether a text could be the name of a type of C++. -/
structure IsTypeName (name : String) : Prop where
  chars : ∀ c ∈ name.toList, Pattern.isWordChar c = true ∨ c = ':'
  nonempty : name ≠ ""

theorem isTypeName_of_all {name : String}
    (h : (name.toList.all fun c => Pattern.isWordChar c || c == ':') = true) (nonempty : name ≠ "") :
    IsTypeName name :=
  ⟨by simpa using h, nonempty⟩

theorem IsTypeName.not_mem {name : String} (h : IsTypeName name) {mark : Char}
    (isMark : Pattern.isWordChar mark = false) (notColon : mark ≠ ':') : mark ∉ name.toList := by
  intro member
  rcases h.chars mark member with word | colon
  · rw [isMark] at word
    cases word
  · exact notColon colon

theorem IsTypeName.isUnbroken {name : String} (h : IsTypeName name) : Text.IsUnbroken name :=
  ⟨h.nonempty, h.not_mem rfl (by decide)⟩

theorem IsStem.isTypeName {name : String} (h : IsStem name) : IsTypeName name :=
  ⟨fun c member => .inl (h.word c member), h.nonempty⟩

theorem isTypeName_qualify {namespaces : List String} {name : String} (stem : IsStem name)
    (words : ∀ part ∈ namespaces ++ [name], HoldsWordChars part) :
    IsTypeName (qualify "::" namespaces name) where
  chars c member := by
    by_contra other
    rw [not_or, Bool.not_eq_true] at other
    exact Text.not_mem_intercalate (by simp [other.2])
      (fun part inParts => (words part inParts).not_mem other.1) member
  nonempty := by
    obtain ⟨front, qualified⟩ := exists_qualify_eq_append "::" namespaces name
    rw [qualified]
    exact fun empty => stem.nonempty (String.append_eq_empty_iff.mp empty).2

theorem isTypeName_cppTypeName {name : String} (stem : IsStem name) :
    IsTypeName (cppTypeName name) := by
  rw [cppTypeName]
  split
  · rename_i t _
    cases t <;> exact isTypeName_of_all rfl (by decide)
  · exact stem.isTypeName

theorem Class.WellFormed.isTypeName_cppName {cls : Class} (h : cls.WellFormed) :
    IsTypeName cls.cppName :=
  isTypeName_qualify h.name.isStem h.holdsWordChars

theorem Argument.WellFormed.isTypeName_cppType {arg : Argument} (h : arg.WellFormed) :
    IsTypeName arg.cppType := by
  rw [cppType]
  split
  · exact isTypeName_qualify h.isStem h.holdsWordChars
  · exact isTypeName_cppTypeName h.isStem

theorem ReturnSlot.WellFormed.isStem {slot : ReturnSlot} (h : slot.WellFormed) :
    IsStem slot.type := by
  obtain ⟨category, found⟩ := Option.ne_none_iff_exists'.mp h.category
  exact ((h.category_iff category).mp found).isStem

theorem ReturnSlot.WellFormed.isTypeName_cppType {slot : ReturnSlot} (h : slot.WellFormed) :
    IsTypeName slot.cppType := by
  rw [cppType]
  split
  · rename_i isClass
    exact isTypeName_qualify h.isStem (h.holdsWordChars (eq_of_beq isClass))
  · exact isTypeName_cppTypeName h.isStem

/-! ## Texts inside of a line -/

namespace Mex

/-- Whether a text neither ends a line nor opens a quote. -/
def IsInline (text : String) : Prop := '\n' ∉ text.toList ∧ '"' ∉ text.toList

instance (text : String) : Decidable (IsInline text) := inferInstanceAs (Decidable (_ ∧ _))

@[simp] theorem isInline_append {first second : String} :
    IsInline (first ++ second) ↔ IsInline first ∧ IsInline second := by
  simp only [IsInline, String.toList_append, List.mem_append, not_or]
  tauto

end Mex

theorem HoldsWordChars.isInline {text : String} (h : HoldsWordChars text) : Mex.IsInline text :=
  ⟨h.not_mem rfl, h.not_mem rfl⟩

theorem IsTypeName.isInline {name : String} (h : IsTypeName name) : Mex.IsInline name :=
  ⟨h.not_mem rfl (by decide), h.not_mem rfl (by decide)⟩

theorem IsName.isInline {name : String} (h : IsName name) : Mex.IsInline name :=
  h.isStem.word.isInline

/-! ## Bodies of functions -/

namespace Mex

/-- Whether the lines of a body refer to these. -/
structure Tells (body : List String) (references : List Reference) : Prop where
  lines : ∀ statement ∈ body, '\n' ∉ statement.toList
  yields : Yields (body.map ("  " ++ ·)) references

theorem tells_nil : Tells [] [] := ⟨nofun, yields_nil⟩

theorem Tells.append {body body' : List String} {references references' : List Reference}
    (h : Tells body references) (h' : Tells body' references') :
    Tells (body ++ body') (references ++ references') where
  lines := List.forall_mem_append.mpr ⟨h.lines, h'.lines⟩
  yields := by
    rw [List.map_append]
    exact h.yields.append h'.yields

theorem tells_single {statement : String} {references : List Reference}
    (line : '\n' ∉ statement.toList) (refers : Refers ("  " ++ statement) references) :
    Tells [statement] references :=
  ⟨List.forall_mem_singleton.mpr line, refers.yields⟩

theorem tells_of_isInline {statement : String} (h : IsInline statement) : Tells [statement] [] :=
  tells_single h.1 (refers_of_not_mem (by simp [h.2]))

theorem tells_map {α : Type} {items : List α} {statement : α → String}
    {references : α → List Reference} (h : ∀ item ∈ items, Tells [statement item] (references item)) :
    Tells (items.map statement) (items.flatMap references) := by
  induction items with
  | nil => exact tells_nil
  | cons item items ih =>
      obtain ⟨first, later⟩ := List.forall_mem_cons.mp h
      exact first.append (ih later)

/-- The lines of a file from its function on. -/
def functionLines (body : List String) : List String :=
  ["void mexFunction(int nargout, mxArray *out[], int nargin, const mxArray *in[])", "\x7b"] ++
    body.map ("  " ++ ·) ++ ["\x7d"]

/-- Whatever stands in front of its function, a file ends in the lines of that. -/
theorem exists_lines_mexFile {body : List String}
    (free : ∀ statement ∈ body, '\n' ∉ statement.toList) (libraryNamespace : String) (cls : Class) :
    ∃ front, Text.lines (cls.mexFile libraryNamespace body) =
      front ++ (functionLines body ++ [""]) := by
  have written : Text.HasLines (Text.unlines (functionLines body)) (functionLines body) := by
    refine ⟨rfl, List.forall_mem_append.mpr ⟨List.forall_mem_append.mpr ⟨by decide, ?_⟩, by decide⟩⟩
    exact List.forall_mem_map.mpr fun statement member => by simp [free statement member]
  have file : cls.mexFile libraryNamespace body =
      Text.unlines (cls.preamble libraryNamespace) ++ Text.unlines (functionLines body) := by
    rw [← Text.unlines_append]
    simp only [Class.mexFile, functionLines, List.append_assoc]
  obtain ⟨front, lines⟩ := Text.exists_lines_unlines_append (cls.preamble libraryNamespace)
    (Text.unlines (functionLines body))
  exact ⟨front, by rw [file, lines, written.lines]⟩

/-- A line of a body starts with a blank, so the brace in front of it is the last one. -/
theorem brace_not_mem_body (body : List String) :
    "\x7b" ∉ body.map ("  " ++ ·) ++ ["\x7d", ""] := by
  refine List.not_mem_append (fun member => ?_) (by decide)
  obtain ⟨statement, -, same⟩ := List.mem_map.mp member
  have starts := congrArg (fun text => text.toList.head?) same
  simp at starts

theorem statements_mexFile {body : List String}
    (free : ∀ statement ∈ body, '\n' ∉ statement.toList) (libraryNamespace : String) (cls : Class) :
    statements (cls.mexFile libraryNamespace body) = body.map ("  " ++ ·) ++ ["\x7d", ""] := by
  obtain ⟨front, lines⟩ := exists_lines_mexFile free libraryNamespace cls
  have split : front ++ (functionLines body ++ [""]) =
      (front ++
        ["void mexFunction(int nargout, mxArray *out[], int nargin, const mxArray *in[])"]) ++
        "\x7b" :: (body.map ("  " ++ ·) ++ ["\x7d", ""]) := by
    simp [functionLines]
  rw [statements, lines, split, behindLast_append (brace_not_mem_body body)]

/-- The file of a function refers to what its body does. -/
theorem Tells.references_mexFile {body : List String} {references : List Reference}
    (h : Tells body references) (libraryNamespace : String) (cls : Class) :
    Mex.references (cls.mexFile libraryNamespace body) = references := by
  have ending : Yields ["\x7d", ""] [] :=
    (refers_of_not_mem (by decide)).yields.append (refers_of_not_mem (by decide)).yields
  rw [Mex.references, statements_mexFile h.lines, (h.yields.append ending).read, List.append_nil]

/-! ## Single statements -/

theorem tells_check {name given : String} (word : HoldsWordChars name) (inline : IsInline given)
    (count : Nat) : Tells [checkStatement name given count] [] := by
  have nameInline := word.isInline
  have countInline := (holdsWordChars_repr count).isInline
  unfold checkStatement
  generalize count.repr = digits at countInline ⊢
  have front : IsInline "  checkArguments(" := by decide
  have behind : IsInline (",nargout," ++ given ++ "," ++ digits ++ ");") := by
    simp +decide [inline, countInline]
  have line : "  " ++
        ("checkArguments(\"" ++ name ++ "\",nargout," ++ given ++ "," ++ digits ++ ");") =
      "  checkArguments(" ++ "\"" ++ name ++ "\"" ++
        (",nargout," ++ given ++ "," ++ digits ++ ");") := by
    simp [← String.toList_inj]
  have notShared : Text.mentions "wrap_shared_ptr" "  checkArguments(" = false := by
    decide +kernel
  have notConstructed : Text.mentions "wrap_constructed" "  checkArguments(" = false := by
    decide +kernel
  refine tells_single (by simp [nameInline.1, inline.1, countInline.1]) ?_
  rw [line]
  intro previous
  rw [referencesIn_quote previous front.2 nameInline.2 behind.2, referenceOf?, notShared,
    notConstructed]
  rfl

/-- A statement that shares an object refers to its class, with the type that is shared. -/
theorem tells_shared {before middle type behind matlabClass tail : String}
    (typeName : IsTypeName type) (word : HoldsWordChars matlabClass)
    (inline : IsInline before ∧ IsInline middle ∧ IsInline behind ∧ IsInline tail)
    (behindFree : '<' ∉ behind.toList) :
    Tells [before ++ "wrap_shared_ptr" ++ middle ++ "< " ++ type ++ " >" ++ behind ++ "\"" ++
      matlabClass ++ "\"" ++ tail] [⟨some type, matlabClass⟩] := by
  obtain ⟨beforeInline, middleInline, behindInline, tailInline⟩ := inline
  have front : IsInline ("  " ++ before ++ "wrap_shared_ptr" ++ middle ++ "< " ++ type ++ " >" ++
      behind) := by
    simp +decide [beforeInline, middleInline, behindInline, typeName.isInline]
  have typeFree : '<' ∉ type.toList ∧ '>' ∉ type.toList :=
    ⟨typeName.not_mem rfl (by decide), typeName.not_mem rfl (by decide)⟩
  have beside : "  " ++ before ++ "wrap_shared_ptr" ++ middle ++ "< " ++ type ++ " >" ++ behind =
      "  " ++ before ++ "wrap_shared_ptr" ++ middle ++ "<" ++
        (" " ++ type ++ " " ++ ">" ++ behind) := by
    simp [← String.toList_inj]
  have shared : Text.mentions "wrap_shared_ptr" ("  " ++ before ++ "wrap_shared_ptr" ++ middle ++
      "< " ++ type ++ " >" ++ behind) = true := by
    have split : "  " ++ before ++ "wrap_shared_ptr" ++ middle ++ "< " ++ type ++ " >" ++ behind =
        "  " ++ before ++ "wrap_shared_ptr" ++ (middle ++ "< " ++ type ++ " >" ++ behind) := by
      simp only [String.append_assoc]
    rw [split]
    exact Text.mentions_append _ _ _
  have line : "  " ++ (before ++ "wrap_shared_ptr" ++ middle ++ "< " ++ type ++ " >" ++ behind ++
        "\"" ++ matlabClass ++ "\"" ++ tail) =
      "  " ++ before ++ "wrap_shared_ptr" ++ middle ++ "< " ++ type ++ " >" ++ behind ++ "\"" ++
        matlabClass ++ "\"" ++ tail := by
    simp only [String.append_assoc]
  refine tells_single ?_ fun previous => ?_
  · simp [beforeInline.1, middleInline.1, behindInline.1, tailInline.1, typeName.isInline.1,
      word.isInline.1]
  · rw [line, referencesIn_quote previous front.2 word.isInline.2 tailInline.2, referenceOf?,
      if_pos shared, beside, typeBeside_append typeName.isUnbroken typeFree _ behindFree]
    rfl

/-- A constructed object is wrapped as one of the class, with the type of the statement in front. -/
theorem tells_constructed {type matlabClass given : String} (typeName : IsTypeName type)
    (word : HoldsWordChars matlabClass) (inline : IsInline given) :
    Tells [type ++ "* self = new " ++ type ++ "(" ++ given ++ ");",
      "out[0] = wrap_constructed(self,\"" ++ matlabClass ++ "\");"]
      [⟨some type, matlabClass⟩] := by
  have made : IsInline ("  " ++ (type ++ "* self = new " ++ type ++ "(" ++ given ++ ");")) := by
    simp +decide [typeName.isInline, inline]
  have constructed : constructedType
      ("  " ++ (type ++ "* self = new " ++ type ++ "(" ++ given ++ ");")) = some type := by
    have self : Text.IsUnbroken "self" := ⟨by decide, by decide⟩
    have equals : Text.IsUnbroken "=" := ⟨by decide, by decide⟩
    have new : Text.IsUnbroken "new" := ⟨by decide, by decide⟩
    have statement : "  " ++ (type ++ "* self = new " ++ type ++ "(" ++ given ++ ");") =
        " " ++ (" " ++ (type ++ "*" ++ " " ++ ("self" ++ " " ++ ("=" ++ " " ++ ("new" ++ " " ++
          (type ++ "(" ++ given ++ ");")))))) := by
      simp [← String.toList_inj]
    rw [constructedType, statement, Text.words_blank_append, Text.words_blank_append,
      typeName.isUnbroken.pointer.words_append, self.words_append, equals.words_append,
      new.words_append]
    simp
  have front : IsInline "  out[0] = wrap_constructed(self," := by decide
  have notShared : Text.mentions "wrap_shared_ptr" "  out[0] = wrap_constructed(self," = false := by
    decide +kernel
  have wraps : Text.mentions "wrap_constructed" "  out[0] = wrap_constructed(self," = true := by
    decide +kernel
  have line : "  " ++ ("out[0] = wrap_constructed(self,\"" ++ matlabClass ++ "\");") =
      "  out[0] = wrap_constructed(self," ++ "\"" ++ matlabClass ++ "\"" ++ ");" := by
    simp [← String.toList_inj]
  constructor
  · simp only [isInline_append] at made
    simp [typeName.isInline.1, inline.1, word.isInline.1]
  · intro previous rest
    refine ⟨"  out[0] = wrap_constructed(self," ++ "\"" ++ matlabClass ++ "\"" ++ ");", ?_⟩
    simp only [List.map_cons, List.map_nil, List.cons_append, List.nil_append, referencesFrom]
    rw [refers_of_not_mem made.2, line,
      referencesIn_quote _ front.2 word.isInline.2 (by decide), referenceOf?, notShared, wraps,
      constructed]
    rfl

end Mex

/-! ## Arguments -/

/-- What the statement that takes an argument refers to. -/
def Argument.mexReferences (arg : Argument) : List Mex.Reference :=
  if arg.isClass then [⟨some (arg.qualifiedType "::"), arg.qualifiedType "_"⟩] else []

section Arguments

variable {arg : Argument}

/-- The statement that takes an object, around what it is taken with. -/
theorem exists_unwrapStatement_class (h : arg.WellFormed) (isClass : arg.isClass = true)
    (index : Int) :
    ∃ before tail, arg.unwrapStatement index =
        before ++ "wrap_shared_ptr" ++ "" ++ "< " ++ arg.qualifiedType "::" ++ " >" ++
          ("(in[" ++ index.repr ++ "], ") ++ "\"" ++ arg.qualifiedType "_" ++ "\"" ++ tail ∧
      Mex.IsInline before ∧ Mex.IsInline tail := by
  have cppType : arg.cppType = arg.qualifiedType "::" := by rw [Argument.cppType, if_pos isClass]
  have type := h.isTypeName_cppType.isInline
  have name := h.name.isInline
  rw [← cppType]
  unfold Argument.unwrapStatement
  generalize index.repr = digits
  cases isPointer : arg.isPointer with
  | true =>
      refine ⟨arg.cppType ++ "* " ++ arg.name ++ " = un", ").get();", ?_, ?_, by decide⟩
      · simp [isClass, ← String.toList_inj]
      · simp +decide [type, name]
  | false =>
      refine ⟨(if arg.isConst then "const " else "") ++ arg.cppType ++ "& " ++ arg.name ++ " = *un",
        ");", ?_, ?_, by decide⟩
      · simp [isClass, ← String.toList_inj]
      · cases arg.isConst <;> simp +decide [type, name]

theorem Argument.WellFormed.tells_unwrapStatement (h : arg.WellFormed) (index : Nat) :
    Mex.Tells [arg.unwrapStatement index] arg.mexReferences := by
  have digits : Mex.IsInline (Int.repr index) := (holdsWordChars_repr index).isInline
  cases isClass : arg.isClass with
  | true =>
      obtain ⟨before, tail, statement, inline⟩ := exists_unwrapStatement_class h isClass index
      have type : IsTypeName (arg.qualifiedType "::") := isTypeName_qualify h.isStem h.holdsWordChars
      have matlabClass : HoldsWordChars (arg.qualifiedType "_") :=
        holdsWordChars_qualify holdsWordChars_joint h.holdsWordChars
      have behindFree : '<' ∉ ("(in[" ++ Int.repr index ++ "], ").toList := by
        have free : '<' ∉ (Int.repr index).toList := (holdsWordChars_repr index).not_mem rfl
        generalize Int.repr index = digits at free ⊢
        simp [free]
      rw [mexReferences, if_pos isClass, statement]
      refine Mex.tells_shared type matlabClass ⟨inline.1, by decide, ?_, inline.2⟩ behindFree
      simp +decide [digits]
  | false =>
      have type := h.isTypeName_cppType.isInline
      rw [mexReferences, if_neg (by simp [isClass])]
      refine Mex.tells_of_isInline ?_
      unfold unwrapStatement
      generalize Int.repr index = digits at digits ⊢
      simp +decide [isClass, type, h.name.isInline, digits]

theorem tells_unwrapStatements {args : List Argument} (h : ∀ arg ∈ args, arg.WellFormed)
    (first : Nat) :
    Mex.Tells (unwrapStatements first args) (args.flatMap Argument.mexReferences) := by
  have each : ∀ arg ∈ args.zipIdx first,
      Mex.Tells [arg.1.unwrapStatement arg.2] arg.1.mexReferences := fun arg member =>
    (h arg.1 (List.fst_mem_of_mem_zipIdx member)).tells_unwrapStatement arg.2
  have references : args.flatMap Argument.mexReferences =
      (args.zipIdx first).flatMap fun arg => arg.1.mexReferences := by
    rw [← List.flatMap_map (f := Prod.fst) (g := Argument.mexReferences), List.zipIdx_map_fst]
  rw [references]
  exact Mex.tells_map each

theorem isInline_callExpressions {args : List Argument} (h : ∀ arg ∈ args, arg.WellFormed) :
    Mex.IsInline (callExpressions args) := by
  have each : ∀ expression ∈ args.map Argument.callExpression, Mex.IsInline expression := by
    refine List.forall_mem_map.mpr fun arg member => ?_
    rw [Argument.callExpression]
    split <;> simp +decide [(h arg member).name.isInline]
  exact ⟨Text.not_mem_intercalate (by decide) fun expression member => (each expression member).1,
    Text.not_mem_intercalate (by decide) fun expression member => (each expression member).2⟩

end Arguments

/-! ## Returned values -/

/-- What the statement that returns a value refers to. -/
def ReturnSlot.mexReferences (slot : ReturnSlot) : List Mex.Reference :=
  if slot.isClass then [⟨some (slot.qualifiedType "::"), slot.qualifiedType "_"⟩] else []

section Returns

variable {slot : ReturnSlot} {value : ReturnValue}

theorem ReturnSlot.WellFormed.tells_output (h : slot.WellFormed) {output result : String}
    (outputInline : Mex.IsInline output) (resultInline : Mex.IsInline result)
    (resultFree : '<' ∉ result.toList) :
    Mex.Tells [output ++ slot.wrapExpression result ++ ";"] slot.mexReferences := by
  cases isClass : slot.isClass with
  | true =>
      have words := h.holdsWordChars (eq_of_beq isClass)
      have type : IsTypeName (slot.qualifiedType "::") := isTypeName_qualify h.isStem words
      have matlabClass : HoldsWordChars (slot.qualifiedType "_") :=
        holdsWordChars_qualify holdsWordChars_joint words
      have cppType : slot.cppType = slot.qualifiedType "::" := by rw [ReturnSlot.cppType, if_pos isClass]
      have statement : output ++ slot.wrapExpression result ++ ";" =
          output ++ "wrap_shared_ptr" ++
            (if slot.isPointer then "(boost::shared_ptr" else "(boost::make_shared") ++ "< " ++
            slot.qualifiedType "::" ++ " >" ++ ("(" ++ result ++ "),") ++ "\"" ++
            slot.qualifiedType "_" ++ "\"" ++ ");" := by
        rw [wrapExpression, if_pos isClass, cppType]
        cases slot.isPointer <;> simp [← String.toList_inj]
      rw [mexReferences, if_pos isClass, statement]
      refine Mex.tells_shared type matlabClass ⟨outputInline, ?_, ?_, by decide⟩
        (by simp [resultFree])
      · cases slot.isPointer <;> decide
      · simp +decide [resultInline]
  | false =>
      have type := h.isTypeName_cppType.isInline
      rw [mexReferences, if_neg (by simp [isClass]), wrapExpression, if_neg (by simp [isClass])]
      refine Mex.tells_of_isInline ?_
      simp +decide [outputInline, resultInline, type]

theorem ReturnSlot.WellFormed.isInline_resultType (h : slot.WellFormed) :
    Mex.IsInline slot.resultType := by
  rw [resultType]
  split <;> simp +decide [h.isTypeName_cppType.isInline]

theorem ReturnValue.WellFormed.tells_statements (h : value.WellFormed) {call : String}
    (inline : Mex.IsInline call) :
    Mex.Tells (value.statements call) (value.slots.flatMap ReturnSlot.mexReferences) := by
  have output : Mex.IsInline "out[0] = " ∧ Mex.IsInline "out[1] = " := by decide
  rcases h with rfl | slots
  · exact Mex.tells_of_isInline (by simp +decide [inline])
  · have first : value.first.WellFormed := slots value.first (by simp [ReturnValue.slots])
    have notVoid : value.isVoid = false :=
      Option.isNone_eq_false_iff.mpr (Option.ne_none_iff_isSome.mp first.category)
    rw [statements, if_neg (by simp [notVoid])]
    cases more : value.second with
    | none =>
        have result : Mex.Tells [value.first.resultType ++ " result = " ++ call ++ ";"] [] :=
          Mex.tells_of_isInline (by simp +decide [first.isInline_resultType, inline])
        have firstOutput : Mex.Tells ["out[0] = " ++ value.first.wrapExpression "result" ++ ";"]
            value.first.mexReferences :=
          first.tells_output output.1 (by decide) (by decide)
        simpa [ReturnValue.slots, more] using result.append firstOutput
    | some second =>
        have secondWellFormed : second.WellFormed := slots second (by simp [ReturnValue.slots, more])
        have result : Mex.Tells ["std::pair< " ++ value.first.resultType ++ ", " ++
            second.resultType ++ " > result = " ++ call ++ ";"] [] :=
          Mex.tells_of_isInline (by
            simp +decide [first.isInline_resultType, secondWellFormed.isInline_resultType, inline])
        have firstOutput : Mex.Tells
            ["out[0] = " ++ value.first.wrapExpression "result.first" ++ ";"]
            value.first.mexReferences :=
          first.tells_output output.1 (by decide) (by decide)
        have secondOutput : Mex.Tells ["out[1] = " ++ second.wrapExpression "result.second" ++ ";"]
            second.mexReferences :=
          secondWellFormed.tells_output output.2 (by decide) (by decide)
        simpa [ReturnValue.slots, more] using (result.append firstOutput).append secondOutput

end Returns

/-! ## Functions -/

namespace Class

/-- How C++ files refer to a class of the interface. -/
def mexReference (cls : Class) : Mex.Reference := ⟨some cls.cppName, cls.matlabName⟩

namespace WellFormed

variable {cls : Class}

/-- A constructor's body refers to its arguments, and then to its own class. -/
theorem tells_constructorBody (h : cls.WellFormed) {ctor : Constructor}
    (member : ctor ∈ cls.constructors) :
    Mex.Tells (cls.constructorBody ctor (cls.constructorName ctor))
      (ctor.args.flatMap Argument.mexReferences ++ [cls.mexReference]) := by
  obtain ⟨-, args⟩ := h.constructors ctor member
  have check : Mex.Tells [checkStatement (cls.constructorName ctor) "nargin" ctor.args.length] [] :=
    Mex.tells_check (h.isStem_constructorName member).word (by decide) ctor.args.length
  have constructed := Mex.tells_constructed h.isTypeName_cppName h.isStem_matlabName.word
    (isInline_callExpressions args)
  exact (check.append (tells_unwrapStatements args 0)).append constructed

theorem tells_staticMethodBody (h : cls.WellFormed) {method : StaticMethod}
    (member : method ∈ cls.staticMethods) :
    Mex.Tells (cls.staticMethodBody method)
      (method.args.flatMap Argument.mexReferences ++
        method.returnValue.slots.flatMap ReturnSlot.mexReferences) := by
  obtain ⟨name, args, returnValue⟩ := h.staticMethods method member
  have check : Mex.Tells
      [checkStatement (cls.staticMethodName method) "nargin" method.args.length] [] :=
    Mex.tells_check (h.isStem_staticMethodName member).word (by decide) method.args.length
  have call : Mex.IsInline
      (cls.cppName ++ "::" ++ method.name ++ "(" ++ callExpressions method.args ++ ")") := by
    simp +decide [h.isTypeName_cppName.isInline, name.isInline, isInline_callExpressions args]
  exact (check.append (tells_unwrapStatements args 0)).append (returnValue.tells_statements call)

theorem tells_receiverStatement (h : cls.WellFormed) :
    Mex.Tells [cls.receiverStatement] [cls.mexReference] := by
  have statement : cls.receiverStatement =
      "boost::shared_ptr<" ++ cls.cppName ++ "> self = un" ++ "wrap_shared_ptr" ++ "" ++ "< " ++
        cls.cppName ++ " >" ++ "(in[0]," ++ "\"" ++ cls.matlabName ++ "\"" ++ ");" := by
    unfold receiverStatement
    simp [← String.toList_inj]
  rw [statement]
  refine Mex.tells_shared h.isTypeName_cppName h.isStem_matlabName.word
    ⟨?_, by decide, by decide, by decide⟩ (by decide)
  simp +decide [h.isTypeName_cppName.isInline]

/-- A method's body refers to its own class, and then to its arguments and what it returns. -/
theorem tells_methodBody (h : cls.WellFormed) {method : Method} (member : method ∈ cls.methods) :
    Mex.Tells (cls.methodBody method)
      ([cls.mexReference] ++ method.args.flatMap Argument.mexReferences ++
        method.returnValue.slots.flatMap ReturnSlot.mexReferences) := by
  obtain ⟨name, args, returnValue⟩ := h.methods method member
  have check : Mex.Tells [checkStatement method.name "nargin-1" method.args.length] [] :=
    Mex.tells_check name.isStem.word (by decide) method.args.length
  have call : Mex.IsInline ("self->" ++ method.name ++ "(" ++ callExpressions method.args ++ ")") := by
    simp +decide [name.isStem.word.isInline, isInline_callExpressions args]
  exact ((check.append h.tells_receiverStatement).append (tells_unwrapStatements args 1)).append
    (returnValue.tells_statements call)

end WellFormed

end Class

end MexGlue
