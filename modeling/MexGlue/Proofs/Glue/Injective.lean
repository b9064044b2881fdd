import Mathlib.Data.List.Forall2
import MexGlue.Proofs.Glue.Returns

/-!
# What a C++ file tells of its function

The C++ file of a function tells its name, its arguments and what it returns: of two functions of
one class the files are the same only if these are, whatever the class is. What is lost is whether a
method is constant, and of a container argument whether it is constant and whether it is a
reference.
-/

namespace MexGlue

/-! ## Bodies -/

/-- The statements of a function: the check of its inputs, what takes its object, the locals of its
arguments, and what is done with them. -/
def functionBody (name given : String) (receiver : List String) (first : Nat)
    (args : List Argument) (rest : List String) : List String :=
  checkStatement name given args.length :: (receiver ++ (unwrapStatements first args ++ rest))

theorem Class.mexFile_eq_iff {libraryNamespace : String} {cls : Class} {body other : List String} :
    cls.mexFile libraryNamespace body = cls.mexFile libraryNamespace other ↔
      bodyText body = bodyText other := by
  simp only [mexFile, Text.unlines_append, String.append_left_inj, String.append_right_inj]
  rfl

section Bodies

variable {name other given : String} {args others : List Argument} {rest rests : List String}

theorem count_unique {count counts : Nat} (same : count.repr = counts.repr) : count = counts := by
  have digits := congrArg (fun text => Nat.ofDigitChars 10 text.toList 0) same
  simpa [Nat.toList_repr, Nat.ofDigitChars_toDigits] using digits

/-- The check of a function, from where its name differs. -/
theorem bodyText_check (front name given : String) (count : Nat) (rest : List String) :
    bodyText (checkStatement (front ++ name) given count :: rest) =
      "  checkArguments(\"" ++ front ++ (name ++ ("\"" ++ (",nargout," ++ given ++ "," ++
        (count.repr ++ (")" ++ (";\n" ++ bodyText rest)))))) := by
  -- The digits are any text here: nothing should compute them.
  have line (digits behind : String) :
      "  " ++ ("checkArguments(\"" ++ (front ++ name) ++ "\",nargout," ++ given ++ "," ++ digits ++
          ");") ++ "\n" ++ behind =
        "  checkArguments(\"" ++ front ++ (name ++ ("\"" ++ (",nargout," ++ given ++ "," ++
          (digits ++ (")" ++ (";\n" ++ behind)))))) := by
    simp [← String.toList_inj]
  exact (Text.unlines_cons _ _).trans (line count.repr (bodyText rest))

/-- The check tells the name of a function, from where it differs, and how many arguments it has. -/
theorem checkStatement_unique {front : String} (free : '"' ∉ name.toList)
    (freeOther : '"' ∉ other.toList) {count counts : Nat}
    (same : bodyText (checkStatement (front ++ name) given count :: rest) =
      bodyText (checkStatement (front ++ other) given counts :: rests)) :
    name = other ∧ count = counts ∧ bodyText rest = bodyText rests := by
  have digits : ')' ∉ count.repr.toList := (holdsWordChars_repr count).not_mem rfl
  have digitsOther : ')' ∉ counts.repr.toList := (holdsWordChars_repr counts).not_mem rfl
  have quote : "\"".toList = ['"'] := rfl
  have paren : ")".toList = [')'] := rfl
  rw [bodyText_check, bodyText_check, String.append_right_inj] at same
  obtain ⟨names, behind⟩ := Text.cut_unique quote free freeOther same
  rw [String.append_right_inj] at behind
  obtain ⟨counted, last⟩ := Text.cut_unique paren digits digitsOther behind
  exact ⟨names, count_unique counted, (String.append_right_inj _).mp last⟩

theorem unwrapStatements_cons (first : Nat) (arg : Argument) (args : List Argument) :
    unwrapStatements first (arg :: args) =
      arg.unwrapStatement first :: unwrapStatements (first + 1) args := by
  simp [unwrapStatements]

/-- The locals tell the words of their declarations. -/
theorem unwrapStatements_unique (h : ∀ arg ∈ args, arg.WellFormed)
    (h' : ∀ arg ∈ others, arg.WellFormed) (lengths : args.length = others.length) {first : Nat}
    (same : bodyText (unwrapStatements first args ++ rest) =
      bodyText (unwrapStatements first others ++ rests)) :
    args.map Argument.localWords = others.map Argument.localWords ∧
      bodyText rest = bodyText rests := by
  induction args generalizing others first with
  | nil =>
      rw [List.length_nil] at lengths
      cases List.eq_nil_of_length_eq_zero lengths.symm
      exact ⟨rfl, same⟩
  | cons arg args ih =>
      cases others with
      | nil => cases lengths
      | cons other others =>
          obtain ⟨form, forms⟩ := List.forall_mem_cons.mp h
          obtain ⟨form', forms'⟩ := List.forall_mem_cons.mp h'
          rw [unwrapStatements_cons, unwrapStatements_cons, List.cons_append, List.cons_append,
            bodyText_cons, bodyText_cons] at same
          have line {arg : Argument} (form : arg.WellFormed) :
              '\n' ∉ ("  " ++ arg.unwrapStatement first).toList := by
            simp [(form.tells_unwrapStatement first).lines]
          obtain ⟨statement, behind⟩ := Text.unlines_cons_unique (line form) (line form') same
          obtain ⟨words, last⟩ := ih forms forms' (Nat.succ.inj lengths) behind
          have word := form.localWords_unique form' ((String.append_right_inj _).mp statement)
          exact ⟨by rw [List.map_cons, List.map_cons, word, words], last⟩

theorem functionBody_unique {front : String} (free : '"' ∉ name.toList)
    (freeOther : '"' ∉ other.toList) (h : ∀ arg ∈ args, arg.WellFormed)
    (h' : ∀ arg ∈ others, arg.WellFormed) {receiver : List String} {first : Nat}
    (same : bodyText (functionBody (front ++ name) given receiver first args rest) =
      bodyText (functionBody (front ++ other) given receiver first others rests)) :
    name = other ∧ args.map Argument.localWords = others.map Argument.localWords ∧
      bodyText rest = bodyText rests := by
  obtain ⟨names, lengths, behind⟩ := checkStatement_unique free freeOther same
  rw [bodyText_append receiver, bodyText_append receiver, String.append_right_inj] at behind
  obtain ⟨words, last⟩ := unwrapStatements_unique h h' lengths behind
  exact ⟨names, words, last⟩

/-- What is passed to a call tells what is passed for each argument. -/
theorem callExpressions_unique (h : ∀ arg ∈ args, arg.WellFormed)
    (h' : ∀ arg ∈ others, arg.WellFormed) (lengths : args.length = others.length)
    (same : callExpressions args = callExpressions others) :
    args.map Argument.callExpression = others.map Argument.callExpression := by
  have noComma {args : List Argument} (h : ∀ arg ∈ args, arg.WellFormed) :
      ∀ expression ∈ args.map Argument.callExpression, ',' ∉ expression.toList := by
    refine List.forall_mem_map.mpr fun arg member => ?_
    have free : ',' ∉ arg.name.toList := (h arg member).name.isStem.word.not_mem rfl
    unfold Argument.callExpression
    split <;> simp [free]
  by_cases empty : args = []
  · subst empty
    cases List.eq_nil_of_length_eq_zero lengths.symm
    rfl
  · refine intercalate_injective rfl (by simpa using empty) ?_ (noComma h) (noComma h') same
    rw [ne_eq, List.map_eq_nil_iff, ← List.length_eq_zero_iff, ← lengths, List.length_eq_zero_iff]
    exact empty

theorem forall₂_sameGlue (h : ∀ arg ∈ args, arg.WellFormed)
    (h' : ∀ arg ∈ others, arg.WellFormed)
    (declared : args.map Argument.localWords = others.map Argument.localWords)
    (passed : args.map Argument.callExpression = others.map Argument.callExpression) :
    List.Forall₂ Argument.SameGlue args others := by
  induction args generalizing others with
  | nil =>
      cases List.map_eq_nil_iff.mp declared.symm
      exact .nil
  | cons arg args ih =>
      cases others with
      | nil => cases declared
      | cons other others =>
          obtain ⟨form, forms⟩ := List.forall_mem_cons.mp h
          obtain ⟨form', forms'⟩ := List.forall_mem_cons.mp h'
          obtain ⟨word, words⟩ := List.cons.inj declared
          obtain ⟨expression, expressions⟩ := List.cons.inj passed
          exact .cons (form.sameGlue form' word expression) (ih forms forms' words expressions)

section Rendered

variable (same : List.Forall₂ Argument.SameGlue args others)
include same

/-- What tells no more of an argument than the glue keeps. -/
theorem map_eq_of_sameGlue {β : Type} {f : Argument → β}
    (keeps : ∀ {arg other : Argument}, arg.SameGlue other → f arg = f other) :
    args.map f = others.map f := by
  induction same with
  | nil => rfl
  | cons first _ ih => rw [List.map_cons, List.map_cons, keeps first, ih]

theorem unwrapStatements_of_sameGlue (first : Nat) :
    unwrapStatements first args = unwrapStatements first others := by
  induction same generalizing first with
  | nil => rfl
  | cons here _ ih =>
      rw [unwrapStatements_cons, unwrapStatements_cons, here.unwrapStatement, ih (first + 1)]

theorem callExpressions_of_sameGlue : callExpressions args = callExpressions others :=
  congrArg (",".intercalate ·) (map_eq_of_sameGlue same Argument.SameGlue.callExpression)

theorem signature?_of_sameGlue : signature? args = signature? others := by
  have letters : args.mapM (fun arg => arg.type.toList.head?) =
      others.mapM fun arg => arg.type.toList.head? := by
    induction same with
    | nil => rfl
    | cons first _ ih => rw [List.mapM_cons, List.mapM_cons, first.type, ih]
  rw [signature?, signature?, letters]

theorem functionBody_of_sameGlue (name given : String) (receiver : List String) (first : Nat)
    (rest : List String) :
    functionBody name given receiver first args rest =
      functionBody name given receiver first others rest := by
  rw [functionBody, functionBody, unwrapStatements_of_sameGlue same, same.length_eq]

end Rendered

end Bodies

/-! ## Calls -/

/-- The body of a function that calls a wrapped one of this name on a target and returns its value.
What is checked is called the same, behind what is in front of it. -/
def callingBody (front given : String) (receiver : List String) (first : Nat) (target name : String)
    (args : List Argument) (value : ReturnValue) : List String :=
  functionBody (front ++ name) given receiver first args
    (value.statements (target ++ name ++ "(" ++ callExpressions args ++ ")"))

section Calls

variable {front given target name other : String} {receiver : List String} {first : Nat}
  {args others : List Argument} {value returned : ReturnValue}

theorem callingBody_eq_iff (word : IsName name) (wordOther : IsName other)
    (h : ∀ arg ∈ args, arg.WellFormed) (h' : ∀ arg ∈ others, arg.WellFormed)
    (returns : value.WellFormed) (returnsOther : returned.WellFormed) :
    bodyText (callingBody front given receiver first target name args value) =
        bodyText (callingBody front given receiver first target other others returned) ↔
      name = other ∧ List.Forall₂ Argument.SameGlue args others ∧ value = returned := by
  constructor
  · intro same
    have called {name : String} (word : IsName name) {args : List Argument}
        (h : ∀ arg ∈ args, arg.WellFormed) :
        (target ++ name ++ "(" ++ callExpressions args ++ ")").toList.count '\n' =
          target.toList.count '\n' := by
      have inName : name.toList.count '\n' = 0 := List.count_eq_zero.mpr word.isInline.1
      have inArguments : (callExpressions args).toList.count '\n' = 0 :=
        List.count_eq_zero.mpr (isInline_callExpressions h).1
      simp [List.count_append, inName, inArguments]
    obtain ⟨names, declared, behind⟩ :=
      functionBody_unique word.isInline.2 wordOther.isInline.2 h h' same
    obtain ⟨values, calls⟩ := returns.statements_unique returnsOther
      ((called word h).trans (called wordOther h').symm) behind
    rw [names, String.append_left_inj, String.append_right_inj] at calls
    have lengths : args.length = others.length := by
      simpa using congrArg List.length declared
    exact ⟨names, forall₂_sameGlue h h' declared (callExpressions_unique h h' lengths calls),
      values⟩
  · intro same
    obtain ⟨rfl, arguments, rfl⟩ := same
    rw [callingBody, callingBody, callExpressions_of_sameGlue arguments,
      functionBody_of_sameGlue arguments]

end Calls

theorem Class.methodBody_eq (cls : Class) (method : Method) :
    cls.methodBody method =
      callingBody "" "nargin-1" [cls.receiverStatement] 1 "self->" method.name method.args
        method.returnValue := by
  rw [callingBody, String.empty_append]
  simp only [methodBody, functionBody, List.cons_append, List.nil_append]

theorem Class.staticMethodBody_eq (cls : Class) (method : StaticMethod) :
    cls.staticMethodBody method =
      callingBody (cls.matlabName ++ "_") "nargin" [] 0 (cls.cppName ++ "::") method.name method.args
        method.returnValue := by
  simp only [callingBody, staticMethodBody, functionBody, staticMethodName, List.cons_append,
    List.nil_append]

/-! ## Whole files -/

/-- A method as a text can say it. -/
structure Method.WellFormed (method : Method) : Prop where
  name : IsLowerName method.name
  args : ∀ arg ∈ method.args, arg.WellFormed
  returnValue : method.returnValue.WellFormed

/-- A static method as a text can say it. -/
structure StaticMethod.WellFormed (method : StaticMethod) : Prop where
  name : IsName method.name
  args : ∀ arg ∈ method.args, arg.WellFormed
  returnValue : method.returnValue.WellFormed

/-- The method without what the glue does not keep. -/
def Method.bare (method : Method) : Method :=
  { method with args := method.args.map Argument.bare, isConst := false }

/-- The static method without what the glue does not keep. -/
def StaticMethod.bare (method : StaticMethod) : StaticMethod :=
  { method with args := method.args.map Argument.bare }

theorem map_bare_eq_iff {args others : List Argument} (h : ∀ arg ∈ args, arg.WellFormed)
    (h' : ∀ arg ∈ others, arg.WellFormed) :
    args.map Argument.bare = others.map Argument.bare ↔
      List.Forall₂ Argument.SameGlue args others := by
  induction args generalizing others with
  | nil => simp
  | cons arg args ih =>
      cases others with
      | nil => simp
      | cons other others =>
          obtain ⟨form, forms⟩ := List.forall_mem_cons.mp h
          obtain ⟨form', forms'⟩ := List.forall_mem_cons.mp h'
          rw [List.map_cons, List.map_cons, List.cons.injEq, List.forall₂_cons,
            form.bare_eq_iff form', ih forms forms']

namespace Class

variable {cls : Class} {libraryNamespace : String}

theorem WellFormed.method (h : cls.WellFormed) {method : Method} (member : method ∈ cls.methods) :
    method.WellFormed := by
  obtain ⟨name, args, returnValue⟩ := h.methods method member
  exact ⟨name, args, returnValue⟩

theorem WellFormed.staticMethod (h : cls.WellFormed) {method : StaticMethod}
    (member : method ∈ cls.staticMethods) : method.WellFormed := by
  obtain ⟨name, args, returnValue⟩ := h.staticMethods method member
  exact ⟨name, args, returnValue⟩

theorem methodFile_eq_iff {method other : Method} (h : method.WellFormed) (h' : other.WellFormed) :
    cls.methodFile libraryNamespace method = cls.methodFile libraryNamespace other ↔
      method.name = other.name ∧ List.Forall₂ Argument.SameGlue method.args other.args ∧
        method.returnValue = other.returnValue := by
  rw [methodFile, methodFile, mexFile_eq_iff, methodBody_eq, methodBody_eq]
  exact callingBody_eq_iff (.inl h.name) (.inl h'.name) h.args h'.args h.returnValue h'.returnValue

theorem staticMethodFile_eq_iff {method other : StaticMethod} (h : method.WellFormed)
    (h' : other.WellFormed) :
    cls.staticMethodFile libraryNamespace method = cls.staticMethodFile libraryNamespace other ↔
      method.name = other.name ∧ List.Forall₂ Argument.SameGlue method.args other.args ∧
        method.returnValue = other.returnValue := by
  rw [staticMethodFile, staticMethodFile, mexFile_eq_iff, staticMethodBody_eq, staticMethodBody_eq]
  exact callingBody_eq_iff h.name h'.name h.args h'.args h.returnValue h'.returnValue

theorem constructorBody_eq (cls : Class) (ctor : Constructor) (name : String) :
    cls.constructorBody ctor name =
      functionBody name "nargin" [] 0 ctor.args
        [cls.cppName ++ "* self = new " ++ cls.cppName ++ "(" ++ callExpressions ctor.args ++ ");",
          "out[0] = wrap_constructed(self,\"" ++ cls.matlabName ++ "\");"] := by
  simp only [constructorBody, functionBody, List.cons_append, List.nil_append]

theorem constructorBody_unique {ctor other : Constructor} (h : ∀ arg ∈ ctor.args, arg.WellFormed)
    (h' : ∀ arg ∈ other.args, arg.WellFormed) {front letters others : String}
    (word : HoldsWordChars letters) (wordOther : HoldsWordChars others)
    (same : bodyText (cls.constructorBody ctor (front ++ letters)) =
      bodyText (cls.constructorBody other (front ++ others))) :
    List.Forall₂ Argument.SameGlue ctor.args other.args := by
  rw [constructorBody_eq, constructorBody_eq] at same
  obtain ⟨-, declared, behind⟩ :=
    functionBody_unique word.isInline.2 wordOther.isInline.2 h h' same
  rw [bodyText_cons, bodyText_cons, Text.unlines_cons, Text.unlines_cons] at behind
  simp only [String.append_assoc, String.append_right_inj, String.append_left_inj] at behind
  have lengths : ctor.args.length = other.args.length := by
    simpa using congrArg List.length declared
  exact forall₂_sameGlue h h' declared (callExpressions_unique h h' lengths behind)

/-- A constructor whose arguments were read has a file. -/
theorem exists_constructorFile? (libraryNamespace : String) (cls : Class) {ctor : Constructor}
    (h : ∀ arg ∈ ctor.args, arg.WellFormed) :
    ∃ letters, HoldsWordChars letters ∧
      cls.constructorFile? libraryNamespace ctor = some (cls.mexFile libraryNamespace
        (cls.constructorBody ctor ("new_" ++ cls.matlabName ++ "_" ++ letters))) := by
  obtain ⟨letters, signed⟩ := exists_signature? fun arg member => (h arg member).isStem.nonempty
  refine ⟨letters,
    holdsWordChars_of_signature? (fun arg member => (h arg member).isStem.word) signed, ?_⟩
  rw [constructorFile?, constructorName?, signed]
  rfl

theorem constructorFile?_eq_iff {ctor other : Constructor} (h : ∀ arg ∈ ctor.args, arg.WellFormed)
    (h' : ∀ arg ∈ other.args, arg.WellFormed) :
    cls.constructorFile? libraryNamespace ctor = cls.constructorFile? libraryNamespace other ↔
      List.Forall₂ Argument.SameGlue ctor.args other.args := by
  constructor
  · intro same
    obtain ⟨letters, word, file⟩ := exists_constructorFile? libraryNamespace cls h
    obtain ⟨letters', word', file'⟩ := exists_constructorFile? libraryNamespace cls h'
    rw [file, file', Option.some.injEq, mexFile_eq_iff] at same
    exact constructorBody_unique h h' word word' same
  · intro same
    have body (name : String) : cls.constructorBody ctor name = cls.constructorBody other name := by
      rw [constructorBody_eq, constructorBody_eq, callExpressions_of_sameGlue same,
        functionBody_of_sameGlue same]
    simp only [constructorFile?, constructorName?, signature?_of_sameGlue same, body]

/-- Two functions of a class have the same C++ file exactly if they have the same name, arguments that
the glue keeps alike, and the same returned value; so they differ in nothing but whether a method is
constant, and whether a container argument is constant or a reference. -/
theorem files_tell_functions (libraryNamespace : String) (cls : Class) :
    (∀ method other : Method, method.WellFormed → other.WellFormed →
      (cls.methodFile libraryNamespace method = cls.methodFile libraryNamespace other ↔
        method.name = other.name ∧ List.Forall₂ Argument.SameGlue method.args other.args ∧
          method.returnValue = other.returnValue) ∧
      (cls.methodFile libraryNamespace method = cls.methodFile libraryNamespace other ↔
        method.bare = other.bare)) ∧
    (∀ method other : StaticMethod, method.WellFormed → other.WellFormed →
      (cls.staticMethodFile libraryNamespace method = cls.staticMethodFile libraryNamespace other ↔
        method.name = other.name ∧ List.Forall₂ Argument.SameGlue method.args other.args ∧
          method.returnValue = other.returnValue) ∧
      (cls.staticMethodFile libraryNamespace method = cls.staticMethodFile libraryNamespace other ↔
        method.bare = other.bare)) ∧
    ∀ ctor other : Constructor, (∀ arg ∈ ctor.args, arg.WellFormed) →
      (∀ arg ∈ other.args, arg.WellFormed) →
      (cls.constructorFile? libraryNamespace ctor).isSome = true ∧
      (cls.constructorFile? libraryNamespace ctor = cls.constructorFile? libraryNamespace other ↔
        List.Forall₂ Argument.SameGlue ctor.args other.args) ∧
      (cls.constructorFile? libraryNamespace ctor = cls.constructorFile? libraryNamespace other ↔
        ctor.args.map Argument.bare = other.args.map Argument.bare) := by
  refine ⟨fun method other h h' => ?_, fun method other h h' => ?_, fun ctor other h h' => ?_⟩
  · refine ⟨methodFile_eq_iff h h', (methodFile_eq_iff h h').trans ?_⟩
    rw [← map_bare_eq_iff h.args h'.args, Method.bare, Method.bare, Method.mk.injEq]
    simp
  · refine ⟨staticMethodFile_eq_iff h h', (staticMethodFile_eq_iff h h').trans ?_⟩
    rw [← map_bare_eq_iff h.args h'.args, StaticMethod.bare, StaticMethod.bare,
      StaticMethod.mk.injEq]
  · obtain ⟨letters, -, file⟩ := exists_constructorFile? libraryNamespace cls h
    refine ⟨by rw [file, Option.isSome_some], constructorFile?_eq_iff h h', ?_⟩
    exact (constructorFile?_eq_iff h h').trans (map_bare_eq_iff h h').symm

/-- Methods and constructors that differ in nothing else but marks that the glue does not keep, and
static methods of which one takes the address of a container. -/
theorem files_tell_functions_marks : ∃ (cls : Class) (method other : Method)
    (static otherStatic : StaticMethod) (ctor otherCtor : Constructor),
    Interface.ofText "m" false
        ("class A \x7b pair<B*,Vector> f(const B& b, const Vector& v) const; " ++
          "pair<B*,Vector> f(const B& b, Vector v); static int F(Vector* v); static int F(Vector v); " ++
          "A(const Matrix& m); A(Matrix m); \x7d;") =
      .ok { name := "m", classes := [cls] } ∧
    cls.methods = [method, other] ∧ method ≠ other ∧
    cls.methodFile "n" method = cls.methodFile "n" other ∧
    cls.staticMethods = [static, otherStatic] ∧
    cls.staticMethodFile "n" static ≠ cls.staticMethodFile "n" otherStatic ∧
    cls.constructors = [ctor, otherCtor] ∧ ctor ≠ otherCtor ∧
    cls.constructorFile? "n" ctor = cls.constructorFile? "n" otherCtor := by
  let pair : ReturnValue :=
    { first := ⟨"B", some .classType, true, []⟩
      second := some ⟨"Vector", some .container, false, []⟩ }
  let int : ReturnValue := { first := ⟨"int", some .basis, false, []⟩ }
  let b : Argument := { type := "B", name := "b", isConst := true, isReference := true }
  let v : Argument := { type := "Vector", name := "v" }
  let m : Argument := { type := "Matrix", name := "m" }
  let cls : Class :=
    { name := "A"
      methods := [⟨"f", [b, { v with isConst := true, isReference := true }], pair, true⟩,
        ⟨"f", [b, v], pair, false⟩]
      staticMethods := [⟨"F", [{ v with isPointer := true }], int⟩, ⟨"F", [v], int⟩]
      constructors := [⟨"A", [{ m with isConst := true, isReference := true }]⟩, ⟨"A", [m]⟩] }
  have read : Interface.ofText "m" false
      ("class A \x7b pair<B*,Vector> f(const B& b, const Vector& v) const; " ++
        "pair<B*,Vector> f(const B& b, Vector v); static int F(Vector* v); static int F(Vector v); " ++
        "A(const Matrix& m); A(Matrix m); \x7d;") =
    .ok { name := "m", classes := [cls] } := by decide +kernel
  have form : cls.WellFormed := Interface.wellFormed_of_ofText read cls List.mem_cons_self
  obtain ⟨methods, statics, ctors⟩ := files_tell_functions "n" cls
  have alike := methods _ _ (form.method List.mem_cons_self)
    (form.method (List.mem_cons_of_mem _ List.mem_cons_self))
  have apart := statics _ _ (form.staticMethod List.mem_cons_self)
    (form.staticMethod (List.mem_cons_of_mem _ List.mem_cons_self))
  have made := ctors _ _ (form.constructors _ List.mem_cons_self).2
    (form.constructors _ (List.mem_cons_of_mem _ List.mem_cons_self)).2
  refine ⟨cls, _, _, _, _, _, _, read, rfl, by decide, alike.2.mpr (by decide), rfl, ?_, rfl,
    by decide, made.2.2.mpr (by decide)⟩
  exact fun same => absurd (apart.2.mp same) (by decide)

end Class

end MexGlue
