import MexGlue.Proofs.Glue.Statements

/-!
# What the bodies of C++ files do

The body of a function checks the number of its inputs, takes its object if it is a method, takes
its arguments in their order, calls the library with them, and puts out what it made or got. Nothing
else is in it.
-/

namespace MexGlue

/-! ## Calls of the library -/

namespace Mex

/-- Whether a text can be called by a statement that neither checks nor takes. -/
structure IsCallee (text : String) : Prop where
  unbroken : Text.IsUnbroken text
  noAngle : '<' ∉ text.toList
  noEquals : '=' ∉ text.toList
  noBracket : '(' ∉ text.toList ∧ ')' ∉ text.toList
  notCheck : text ≠ "checkArguments"

theorem IsCallee.ofCall {callee : String} (h : IsCallee callee) (target passed more : List String) :
    Statement.ofCall target ⟨callee :: more, passed⟩ =
      .calls target.getLast? ⟨callee :: more, passed⟩ := by
  have notTaker : callee ∉ takers := by
    have angle : ∀ taker ∈ takers, '<' ∈ taker.toList := by decide
    exact fun member => h.noAngle (angle callee member)
  have notCheck : callee :: more ≠ ["checkArguments"] := fun same =>
    h.notCheck (List.cons.inj same).1
  rw [Statement.ofCall, if_neg notCheck, if_neg (by simpa using notTaker)]

section Calls

variable {callee first : String} {more passed : List String}

/-- A statement that keeps the result of a call. -/
theorem Statement.ofText?_calls {target : String} (targetFree : '=' ∉ target.toList)
    (several : 2 ≤ (Text.words target).length) (isCallee : IsCallee first)
    (calleeFree : '=' ∉ callee.toList ∧ '(' ∉ callee.toList ∧ ')' ∉ callee.toList)
    (called : Text.words callee = first :: more)
    (h : ∀ text ∈ passed, Text.IsPassed text ∧ '=' ∉ text.toList) :
    Statement.ofText? (target ++ "=" ++ (callee ++ "(" ++ ",".intercalate passed ++ ")" ++ ";")) =
      some (.calls (Text.words target).getLast? ⟨first :: more, passed⟩) := by
  have inside : '=' ∉ (",".intercalate passed).toList :=
    Text.not_mem_intercalate (by decide) fun text member => (h text member).2
  have free : '=' ∉ (callee ++ "(" ++ ",".intercalate passed ++ ")" ++ ";").toList := by
    simp only [String.toList_append, List.mem_append, not_or]
    exact ⟨⟨⟨⟨calleeFree.1, by decide⟩, inside⟩, by decide⟩, by decide⟩
  have read : Text.Call.ofText? (callee ++ "(" ++ ",".intercalate passed ++ ")" ++ ";") =
      some ⟨first :: more, passed⟩ := by
    rw [Text.Call.ofText?_intercalate calleeFree.2 fun text member => (h text member).1, called]
  rw [ofText?_setting targetFree free several read, isCallee.ofCall]

theorem IsCallee.blank_append (isCallee : IsCallee callee) :
    Text.words (" " ++ callee) = [callee] ∧
      '=' ∉ (" " ++ callee).toList ∧ '(' ∉ (" " ++ callee).toList ∧ ')' ∉ (" " ++ callee).toList :=
  ⟨by rw [Text.words_blank_append, isCallee.unbroken.words], by simp [isCallee.noEquals],
    by simp [isCallee.noBracket.1], by simp [isCallee.noBracket.2]⟩

end Calls

end Mex

/-! ## Returned values -/

namespace ReturnValue

variable {value : ReturnValue}

/-- The local that a returned value is kept in. -/
def kept? (value : ReturnValue) : Option String := if value.isVoid then none else some "result"

/-- The outputs that a returned value is put into. -/
def targets (value : ReturnValue) : List String :=
  if value.isVoid then [] else "out[0]" :: value.second.toList.map fun _ => "out[1]"

end ReturnValue

theorem ReturnSlot.WellFormed.does_output {slot : ReturnSlot} (h : slot.WellFormed)
    {output result : String} (outputWord : Text.IsUnbroken output)
    (outputInline : Mex.IsInline output) (outputFree : '=' ∉ output.toList)
    (resultInline : Mex.IsInline result) (resultFree : '<' ∉ result.toList ∧ '=' ∉ result.toList) :
    Mex.Does [output ++ " = " ++ slot.wrapExpression result ++ ";"] [.puts output] := by
  have inline : Mex.IsInline (output ++ " = ") := by simp +decide [outputInline]
  have line := (h.tells_output inline resultInline resultFree.1).lines _ List.mem_cons_self
  have type : '=' ∉ slot.cppType.toList := h.isTypeName_cppType.not_mem rfl (by decide)
  have free : '=' ∉ (slot.wrapExpression result ++ ";").toList := by
    unfold wrapExpression
    split
    · rename_i isClass
      have matlabClass : '=' ∉ (slot.qualifiedType "_").toList :=
        (holdsWordChars_qualify holdsWordChars_joint h.words).not_mem rfl
      cases slot.isPointer <;> simp [type, matlabClass, resultFree.2]
    · simp [type, resultFree.2]
  refine .single line ?_
  rw [String.append_assoc]
  exact Mex.Statement.ofText?_output outputWord outputFree free

section Returns

variable {value : ReturnValue} {callee front : String} {args : List Argument}

theorem ReturnSlot.WellFormed.isUnbroken_resultType {slot : ReturnSlot} (h : slot.WellFormed) :
    Text.IsUnbroken slot.resultType ∧ '=' ∉ slot.resultType.toList := by
  have type := h.isTypeName_cppType
  have typeFree : '=' ∉ slot.cppType.toList := type.not_mem rfl (by decide)
  rw [resultType_eq, pointerMark]
  refine ⟨⟨fun empty => type.nonempty (String.append_eq_empty_iff.mp empty).1, ?_⟩, ?_⟩
  · split <;> simp [type.isUnbroken.noBlank]
  · split <;> simp [typeFree]

/-- A call whose result is kept, behind a declaration that ends in the local for it. -/
theorem read_kept (isCallee : Mex.IsCallee callee) (wellFormed : ∀ arg ∈ args, arg.WellFormed)
    (free : '=' ∉ front.toList) (declares : Text.words front ≠ []) :
    Mex.Statement.ofText?
        ("  " ++ (front ++ " result = " ++ (callee ++ "(" ++ callExpressions args ++ ")" ++ ";"))) =
      some (.calls (some "result") ⟨[callee], args.map Argument.callExpression⟩) := by
  obtain ⟨called, calleeFree⟩ := isCallee.blank_append
  have result : Text.words "result " = ["result"] := by decide +kernel
  have words : Text.words ("  " ++ (front ++ " " ++ "result ")) =
      Text.words front ++ ["result"] := by
    have split : "  " ++ (front ++ " " ++ "result ") =
        " " ++ (" " ++ (front ++ " " ++ "result ")) := by
      simp [← String.toList_inj]
    rw [split, Text.words_blank_append, Text.words_blank_append, Text.words_append, result]
  have text :
      "  " ++ (front ++ " result = " ++ (callee ++ "(" ++ callExpressions args ++ ")" ++ ";")) =
        "  " ++ (front ++ " " ++ "result ") ++ "=" ++
          (" " ++ callee ++ "(" ++ ",".intercalate (args.map Argument.callExpression) ++ ")" ++
            ";") := by
    rw [callExpressions]
    simp only [← String.toList_inj, String.toList_append, List.append_assoc]
    rfl
  have several : 2 ≤ (Text.words ("  " ++ (front ++ " " ++ "result "))).length := by
    have positive := List.length_pos_of_ne_nil declares
    rw [words, List.length_append, List.length_singleton]
    omega
  rw [text, Mex.Statement.ofText?_calls (by simp [free]) several isCallee calleeFree called
    (isPassed_callExpressions wellFormed), words, List.getLast?_concat]

theorem ReturnValue.WellFormed.read_taken (h : value.WellFormed) (isCallee : Mex.IsCallee callee)
    (wellFormed : ∀ arg ∈ args, arg.WellFormed) :
    Mex.Statement.ofText?
        ("  " ++ (value.taken ++ (callee ++ "(" ++ callExpressions args ++ ")" ++ ";"))) =
      some (.calls value.kept? ⟨[callee], args.map Argument.callExpression⟩) := by
  rcases h.forms with rfl | ⟨slot, form, rfl⟩ | ⟨first, second, firstForm, secondForm, rfl⟩
  · obtain ⟨called, calleeFree⟩ := isCallee.blank_append
    have text : "  " ++ ("" ++ (callee ++ "(" ++ callExpressions args ++ ")" ++ ";")) =
        " " ++ (" " ++ callee) ++ "(" ++ ",".intercalate (args.map Argument.callExpression) ++
          ")" ++ ";" := by
      rw [callExpressions]
      simp only [← String.toList_inj, String.toList_append, List.append_assoc]
      rfl
    have free {c : Char} (h : c ∉ (" " ++ callee).toList) :
        c ∉ (" " ++ (" " ++ callee)).toList := by
      simpa using h
    have nothing : ReturnValue.taken {} = "" := rfl
    rw [nothing, text, Mex.Statement.ofText?_call (free calleeFree.1)
      ⟨free calleeFree.2.1, free calleeFree.2.2⟩ (isPassed_callExpressions wellFormed),
      Text.words_blank_append, called, isCallee.ofCall]
    rfl
  · obtain ⟨word, free⟩ := form.isUnbroken_resultType
    have kept : ReturnValue.kept? { first := slot } = some "result" :=
      if_neg (by simpa [ReturnValue.isVoid] using form.category)
    rw [taken_single form, kept]
    exact read_kept isCallee wellFormed free (by simp [word.words])
  · obtain ⟨firstWord, firstFree⟩ := firstForm.isUnbroken_resultType
    obtain ⟨secondWord, secondFree⟩ := secondForm.isUnbroken_resultType
    have kept : ReturnValue.kept? { first := first, second := some second } = some "result" :=
      if_neg (by simpa [ReturnValue.isVoid] using firstForm.category)
    have pair : Text.IsUnbroken "std::pair<" := ⟨by decide, by decide⟩
    have text : "std::pair< " ++ first.resultType ++ ", " ++ second.resultType ++ " > result = " =
        "std::pair<" ++ " " ++ (first.resultType ++ ", " ++ second.resultType ++ " >") ++
          " result = " := by
      simp [← String.toList_inj]
    rw [taken_pair firstForm, kept, text]
    refine read_kept isCallee wellFormed (by simp [firstFree, secondFree]) ?_
    rw [pair.words_append]
    exact List.cons_ne_nil _ _

theorem ReturnValue.WellFormed.does_outputs (h : value.WellFormed) :
    Mex.Does value.outputs (value.targets.map .puts) := by
  have first : Text.IsUnbroken "out[0]" := ⟨by decide, by decide⟩
  have second : Text.IsUnbroken "out[1]" := ⟨by decide, by decide⟩
  rcases h.forms with rfl | ⟨slot, form, rfl⟩ | ⟨one, two, firstForm, secondForm, rfl⟩
  · exact ⟨nofun, rfl⟩
  · have targets : ReturnValue.targets { first := slot } = ["out[0]"] :=
      if_neg (by simpa [ReturnValue.isVoid] using form.category)
    rw [outputs_single form, targets]
    exact form.does_output first (by decide) (by decide) (by decide) (by decide)
  · have targets : ReturnValue.targets { first := one, second := some two } =
        ["out[0]", "out[1]"] :=
      if_neg (by simpa [ReturnValue.isVoid] using firstForm.category)
    rw [outputs_pair firstForm, targets]
    exact (firstForm.does_output first (by decide) (by decide) (by decide) (by decide)).append
      (secondForm.does_output second (by decide) (by decide) (by decide) (by decide))

/-- The result of a call is kept if there is one, and then put out slot by slot. -/
theorem ReturnValue.WellFormed.does_statements (h : value.WellFormed)
    (isCallee : Mex.IsCallee callee) (line : '\n' ∉ callee.toList)
    (wellFormed : ∀ arg ∈ args, arg.WellFormed) :
    Mex.Does (value.statements (callee ++ "(" ++ callExpressions args ++ ")"))
      (.calls value.kept? ⟨[callee], args.map Argument.callExpression⟩ ::
        value.targets.map .puts) := by
  have free : '\n' ∉
      (value.taken ++ (callee ++ "(" ++ callExpressions args ++ ")" ++ ";")).toList := by
    have inside := (isInline_callExpressions wellFormed).1
    simp [h.lines.1, line, inside]
  rw [statements_eq]
  exact (Mex.Does.single free (h.read_taken isCallee wellFormed)).append h.does_outputs

end Returns

/-! ## Bodies -/

namespace Mex

section Runs

variable {name given : String} {receivers : List (String × String)} {args : List Argument}
  {result : Option String} {callee outputs : List String}

/-- What a function does in front of its call: it checks that it has this number of arguments, and
takes its receivers, each with the class that is asked for, and the arguments behind them. -/
def enters (name given : String) (receivers : List (String × String)) (args : List Argument) :
    List Statement :=
  .checks ["\"" ++ name ++ "\"", "nargout", given, args.length.repr] ::
    ((receivers.zipIdx.map fun receiver =>
        .takes receiver.1.1 (input receiver.2) (some receiver.1.2)) ++
      (args.zipIdx receivers.length).map fun arg => takes arg.1 arg.2)

/-- What a function does that calls the library with its arguments and puts out what it keeps. -/
def runs (name given : String) (receivers : List (String × String)) (args : List Argument)
    (result : Option String) (callee outputs : List String) : List Statement :=
  enters name given receivers args ++
    .calls result ⟨callee, args.map Argument.callExpression⟩ :: outputs.map .puts

/-- What is read off such a function, statement by statement. -/
theorem filterMap_runs {β : Type} (f : Statement → Option β)
    (puts : ∀ output, f (.puts output) = none) :
    (runs name given receivers args result callee outputs).filterMap f =
      (f (.checks ["\"" ++ name ++ "\"", "nargout", given, args.length.repr])).toList ++
        ((receivers.zipIdx.filterMap fun receiver =>
            f (.takes receiver.1.1 (input receiver.2) (some receiver.1.2))) ++
          (args.zipIdx receivers.length).filterMap fun arg => f (takes arg.1 arg.2)) ++
        (f (.calls result ⟨callee, args.map Argument.callExpression⟩)).toList := by
  have silent : (outputs.map Statement.puts).filterMap f = [] :=
    List.filterMap_eq_nil_iff.mpr (List.forall_mem_map.mpr fun output _ => puts output)
  have single (statement : Statement) (rest : List Statement) :
      (statement :: rest).filterMap f = (f statement).toList ++ rest.filterMap f := by
    rw [List.filterMap_cons]
    cases f statement <;> rfl
  rw [runs, enters, List.cons_append, single, List.filterMap_append, single, silent,
    List.filterMap_append, List.filterMap_map, List.filterMap_map, List.append_nil,
    ← List.append_assoc]
  rfl

end Runs

end Mex

namespace Class

variable {cls : Class}

/-- The words that declare an object of a constructor. -/
theorem words_pointer {type : String} (word : Text.IsUnbroken type) :
    Text.words ("  " ++ (type ++ "*" ++ " " ++ "self ")) = [type ++ "*", "self"] := by
  have split : "  " ++ (type ++ "*" ++ " " ++ "self ") =
      " " ++ (" " ++ (type ++ "*" ++ " " ++ "self ")) := by
    simp [← String.toList_inj]
  rw [split, Text.words_blank_append, Text.words_blank_append,
    word.pointer.words_append]
  rfl

/-- The statement that makes the object of a constructor. -/
theorem WellFormed.does_made (h : cls.WellFormed) {args : List Argument}
    (wellFormed : ∀ arg ∈ args, arg.WellFormed) :
    Mex.Does
      [cls.cppName ++ "* self = new " ++ cls.cppName ++ "(" ++ callExpressions args ++ ");"]
      [.calls (some "self") ⟨["new", cls.cppName], args.map Argument.callExpression⟩] := by
  have type := h.isTypeName_cppName
  have free {c : Char} (mark : Pattern.isWordChar c = false) (other : c ≠ ':') :
      c ∉ cls.cppName.toList := type.not_mem mark other
  have text : "  " ++
        (cls.cppName ++ "* self = new " ++ cls.cppName ++ "(" ++ callExpressions args ++ ");") =
      "  " ++ (cls.cppName ++ "*" ++ " " ++ "self ") ++ "=" ++
        (" new" ++ " " ++ cls.cppName ++ "(" ++
          ",".intercalate (args.map Argument.callExpression) ++ ")" ++ ";") := by
    rw [callExpressions]
    simp only [← String.toList_inj, String.toList_append, List.append_assoc]
    rfl
  have new : Mex.IsCallee "new" :=
    ⟨⟨by decide, by decide⟩, by decide, by decide, by decide, by decide⟩
  have calleeFree : '=' ∉ (" new" ++ " " ++ cls.cppName).toList ∧
      '(' ∉ (" new" ++ " " ++ cls.cppName).toList ∧
      ')' ∉ (" new" ++ " " ++ cls.cppName).toList := by
    simp [free (c := '=') rfl (by decide), free (c := '(') rfl (by decide),
      free (c := ')') rfl (by decide)]
  have called : Text.words (" new" ++ " " ++ cls.cppName) = ["new", cls.cppName] := by
    rw [Text.words_append, type.isUnbroken.words]
    rfl
  have target := words_pointer type.isUnbroken
  have inside := (isInline_callExpressions wellFormed).1
  refine .single (by simp [free (c := '\n') rfl (by decide), inside]) ?_
  rw [text, Mex.Statement.ofText?_calls _ _ new calleeFree called
    (isPassed_callExpressions wellFormed), target]
  · rfl
  · simp [free (c := '=') rfl (by decide)]
  · rw [target]
    exact Nat.le_refl 2

/-- The statement that puts the object of a constructor out. -/
theorem WellFormed.does_put (h : cls.WellFormed) :
    Mex.Does ["out[0] = wrap_constructed(self,\"" ++ cls.matlabName ++ "\");"]
      [.puts "out[0]"] := by
  have free {c : Char} (mark : Pattern.isWordChar c = false) : c ∉ cls.matlabName.toList :=
    h.isStem_matlabName.word.not_mem mark
  have text : "out[0] = wrap_constructed(self,\"" ++ cls.matlabName ++ "\");" =
      "out[0]" ++ " = " ++ ("wrap_constructed(self,\"" ++ cls.matlabName ++ "\");") := by
    simp [← String.toList_inj]
  refine .single (by simp [free (c := '\n') rfl]) ?_
  rw [text]
  refine Mex.Statement.ofText?_output ⟨by decide, by decide⟩ (by decide) ?_
  simp [free (c := '=') rfl]

theorem WellFormed.does_constructed (h : cls.WellFormed) {args : List Argument}
    (wellFormed : ∀ arg ∈ args, arg.WellFormed) :
    Mex.Does
      [cls.cppName ++ "* self = new " ++ cls.cppName ++ "(" ++ callExpressions args ++ ");",
        "out[0] = wrap_constructed(self,\"" ++ cls.matlabName ++ "\");"]
      [.calls (some "self") ⟨["new", cls.cppName], args.map Argument.callExpression⟩,
        .puts "out[0]"] :=
  (h.does_made wellFormed).append h.does_put

theorem NamesConstructorTypes.constructorFile?_eq (h : cls.NamesConstructorTypes)
    (libraryNamespace : String) {ctor : Constructor} (member : ctor ∈ cls.constructors) :
    cls.constructorFile? libraryNamespace ctor = some
      (cls.mexFile libraryNamespace (cls.constructorBody ctor (cls.constructorName ctor))) := by
  rw [Class.constructorFile?, h.constructorName? member, Option.map_some]

theorem WellFormed.does_constructorBody (h : cls.WellFormed) {ctor : Constructor}
    (member : ctor ∈ cls.constructors) :
    Mex.Does (cls.constructorBody ctor (cls.constructorName ctor))
      (Mex.runs (cls.constructorName ctor) "nargin" [] ctor.args (some "self") ["new", cls.cppName]
        ["out[0]"]) := by
  obtain ⟨-, args⟩ := h.constructors ctor member
  have check := Mex.does_check (h.isStem_constructorName member).word Mex.isPassed_nargin
    (by decide) ctor.args.length
  exact (check.append (does_unwrapStatements args 0)).append (h.does_constructed args)

theorem WellFormed.does_staticMethodBody (h : cls.WellFormed) {method : StaticMethod}
    (member : method ∈ cls.staticMethods) :
    Mex.Does (cls.staticMethodBody method)
      (Mex.runs (cls.staticMethodName method) "nargin" [] method.args method.returnValue.kept?
        [cls.cppName ++ "::" ++ method.name] method.returnValue.targets) := by
  obtain ⟨name, args, returnValue⟩ := h.staticMethods method member
  have check := Mex.does_check (h.isStem_staticMethodName member).word Mex.isPassed_nargin
    (by decide) method.args.length
  have free {c : Char} (mark : Pattern.isWordChar c = false) (other : c ≠ ':') :
      c ∉ (cls.cppName ++ "::" ++ method.name).toList := by
    simp [h.isTypeName_cppName.not_mem mark other, name.isStem.word.not_mem mark, other]
  have isCallee : Mex.IsCallee (cls.cppName ++ "::" ++ method.name) := by
    refine ⟨⟨fun empty => ?_, free rfl (by decide)⟩, free rfl (by decide), free rfl (by decide),
      ⟨free rfl (by decide), free rfl (by decide)⟩, fun same => ?_⟩
    · exact name.isStem.nonempty (String.append_eq_empty_iff.mp empty).2
    · have colon : ':' ∈ "checkArguments".toList := by simp [← same]
      exact absurd colon (by decide)
  exact (check.append (does_unwrapStatements args 0)).append
    (returnValue.does_statements isCallee (free rfl (by decide)) args)

theorem WellFormed.does_methodBody (h : cls.WellFormed) {method : Method}
    (member : method ∈ cls.methods) :
    Mex.Does (cls.methodBody method)
      (Mex.runs method.name "nargin-1" [("self", cls.matlabName)] method.args
        method.returnValue.kept? ["self->" ++ method.name] method.returnValue.targets) := by
  obtain ⟨name, args, returnValue⟩ := h.methods method member
  have check := Mex.does_check name.isStem.word Mex.isPassed_nargin_sub_one (by decide)
    method.args.length
  have free {c : Char} (mark : Pattern.isWordChar c = false) (other : c ∉ "->".toList) :
      c ∉ ("self->" ++ method.name).toList := by
    have self : HoldsWordChars "self" := List.all_eq_true.mp rfl
    have front : c ∉ "self->".toList := by
      have split : "self->".toList = "self".toList ++ "->".toList := rfl
      rw [split, List.mem_append, not_or]
      exact ⟨self.not_mem mark, other⟩
    rw [String.toList_append, List.mem_append, not_or]
    exact ⟨front, name.isStem.word.not_mem mark⟩
  have isCallee : Mex.IsCallee ("self->" ++ method.name) := by
    refine ⟨⟨fun empty => ?_, free rfl (by decide)⟩, free rfl (by decide), free rfl (by decide),
      ⟨free rfl (by decide), free rfl (by decide)⟩, fun same => ?_⟩
    · exact name.isStem.nonempty (String.append_eq_empty_iff.mp empty).2
    · have angle : '>' ∈ "checkArguments".toList := by simp [← same]
      exact absurd angle (by decide)
  have entered := (check.append h.does_receiverStatement).append (does_unwrapStatements args 1)
  exact entered.append (returnValue.does_statements isCallee (free rfl (by decide)) args)

end Class

end MexGlue
