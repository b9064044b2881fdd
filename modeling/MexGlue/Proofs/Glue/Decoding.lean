import MexGlue.Proofs.Glue.MexFunction

/-!
# Reading arguments back

Each part of a statement ends at a character that it cannot hold, so two statements that are the same
have the same parts, and what stands behind them is the same as well. A type of C++ tells the type
that it stands for with its namespaces. The words that declare a local and what is passed for it tell
the argument, but for the marks that make no difference for a container.
-/

namespace MexGlue

/-! ## Cutting texts -/

namespace Text

/-- A text is cut in one way only into a run of such characters and what stops it. -/
theorem run_unique {runs : Char → Bool} {first other rest others : String}
    (all : ∀ c ∈ first.toList, runs c = true) (allOther : ∀ c ∈ other.toList, runs c = true)
    (stops : ∀ c ∈ rest.toList.head?, runs c = false)
    (stopsOther : ∀ c ∈ others.toList.head?, runs c = false)
    (same : first ++ rest = other ++ others) : first = other ∧ rest = others := by
  have letters := congrArg String.toList same
  rw [String.toList_append, String.toList_append] at letters
  have heads := congrArg (List.takeWhile runs) letters
  rw [Pattern.takeWhile_run all stops, Pattern.takeWhile_run allOther stopsOther] at heads
  have front := String.toList_inj.mp heads
  refine ⟨front, ?_⟩
  rw [front] at same
  exact (String.append_right_inj other).mp same

/-- A text is cut in one way only at the first place where a mark stands. -/
theorem cut_unique {mark : Char} {tail : List Char} {joint first other rest others : String}
    (spelled : joint.toList = mark :: tail) (free : mark ∉ first.toList)
    (freeOther : mark ∉ other.toList)
    (same : first ++ (joint ++ rest) = other ++ (joint ++ others)) :
    first = other ∧ rest = others := by
  have noMark {text : String} (free : mark ∉ text.toList) :
      ∀ c ∈ text.toList, (c != mark) = true := by
    intro c member
    exact bne_iff_ne.mpr fun isMark => free (isMark ▸ member)
  have atMark (behind : String) : ∀ c ∈ (joint ++ behind).toList.head?, (c != mark) = false := by
    intro c member
    rw [String.toList_append, spelled] at member
    cases member
    exact bne_self_eq_false mark
  obtain ⟨front, behind⟩ := run_unique (noMark free) (noMark freeOther) (atMark rest)
    (atMark others) same
  exact ⟨front, (String.append_right_inj joint).mp behind⟩

theorem unlines_cons_unique {line other : String} {rest others : List String}
    (free : '\n' ∉ line.toList) (freeOther : '\n' ∉ other.toList)
    (same : unlines (line :: rest) = unlines (other :: others)) :
    line = other ∧ unlines rest = unlines others := by
  rw [unlines_cons, unlines_cons, String.append_assoc, String.append_assoc] at same
  exact cut_unique rfl free freeOther same

end Text

/-- The text of statements inside of a function. -/
def bodyText (body : List String) : String := Text.unlines (body.map ("  " ++ ·))

theorem bodyText_cons (statement : String) (body : List String) :
    bodyText (statement :: body) = Text.unlines (("  " ++ statement) :: body.map ("  " ++ ·)) := rfl

theorem bodyText_append (body rest : List String) :
    bodyText (body ++ rest) = bodyText body ++ bodyText rest := by
  rw [bodyText, List.map_append, Text.unlines_append]
  rfl

/-! ## Types of C++ -/

/-- Whether a character can stand in the name of a type of C++. -/
def isTypeChar (c : Char) : Bool := Pattern.isWordChar c || c == ':'

theorem IsTypeName.isTypeChar {name : String} (h : IsTypeName name) :
    ∀ c ∈ name.toList, isTypeChar c = true := by
  simpa [MexGlue.isTypeChar] using h.chars

/-- The namespaces of C++ that a type is in. -/
def cppScope (isClass : Bool) (type : String) (namespaces : List String) : List String :=
  if isClass then namespaces else if type = BasisType.string.spelling then ["std"] else []

theorem cppTypeName_eq (type : String) (namespaces : List String) :
    cppTypeName type = qualify "::" (cppScope false type namespaces) type := by
  unfold cppTypeName cppScope
  rw [if_neg Bool.false_ne_true]
  cases found : BasisType.ofName? type with
  | none =>
      have notString : type ≠ BasisType.string.spelling := by
        rintro rfl
        simp at found
      simp [notString]
  | some t =>
      have spelled : t.spelling = type := by simpa using List.find?_some found
      subst spelled
      cases t <;> decide

theorem holdsWordChars_cppScope {type : String} {namespaces : List String} (isClass : Bool)
    (words : ∀ part ∈ namespaces ++ [type], HoldsWordChars part) :
    ∀ part ∈ cppScope isClass type namespaces ++ [type], HoldsWordChars part := by
  intro part member
  rcases List.mem_append.mp member with inScope | last
  · unfold cppScope at inScope
    split at inScope
    · exact words part (List.mem_append_left _ inScope)
    · split at inScope
      · cases List.mem_singleton.mp inScope
        exact List.all_eq_true.mp rfl
      · cases inScope
  · exact words part (List.mem_append_right _ last)

/-- A type of C++ tells the type that it stands for, and the namespaces of a class. -/
theorem qualify_cppScope_unique {type other : String} {namespaces others : List String}
    {isClass isClassOther : Bool} (words : ∀ part ∈ namespaces ++ [type], HoldsWordChars part)
    (wordsOther : ∀ part ∈ others ++ [other], HoldsWordChars part)
    (same : qualify "::" (cppScope isClass type namespaces) type =
      qualify "::" (cppScope isClassOther other others) other) :
    cppScope isClass type namespaces = cppScope isClassOther other others ∧ type = other :=
  (qualify_scope_inj (holdsWordChars_cppScope isClass words)
    (holdsWordChars_cppScope isClassOther wordsOther)).mp same

theorem isBasisName_iff {type : String} : isBasisName type = true ↔ NamesType type .basis := by
  simp [isBasisName, BasisType.ofName?, NamesType, List.find?_isSome, BasisType.mem_all]

theorem isContainerName_iff {type : String} :
    isContainerName type = true ↔ NamesType type .container := by
  simp [isContainerName, ContainerType.ofName?, NamesType, List.find?_isSome,
    ContainerType.mem_all]

/-! ## Arguments -/

namespace Argument

variable {arg other : Argument}

theorem cppType_eq (arg : Argument) :
    arg.cppType = qualify "::" (cppScope arg.isClass arg.type arg.namespaces) arg.type := by
  unfold cppType
  cases arg.isClass with
  | true => rfl
  | false => exact cppTypeName_eq arg.type arg.namespaces

theorem isClass_of_category {category : Category} (h : NamesType arg.type category) :
    arg.isClass = (category == .classType) := by
  have basis := @isBasisName_iff arg.type
  have container := @isContainerName_iff arg.type
  cases category with
  | basis => simp [isClass, basis.mpr h]
  | container => simp [isClass, container.mpr h]
  | classType =>
      have notBasis : isBasisName arg.type = false :=
        Bool.eq_false_iff.mpr fun names => nomatch h.unique (basis.mp names)
      have notContainer : isContainerName arg.type = false :=
        Bool.eq_false_iff.mpr fun names => nomatch h.unique (container.mp names)
      simp [isClass, notBasis, notContainer]

/-- The marks of a class: it is a reference or a pointer, and no pointer is constant. -/
theorem WellFormed.marks_of_isClass (h : arg.WellFormed) (isClass : arg.isClass = true) :
    (arg.isPointer = false ∧ arg.isReference = true) ∨
      (arg.isPointer = true ∧ arg.isConst = false ∧ arg.isReference = false) := by
  obtain ⟨shape, found, -⟩ := h.shape
  rw [isClass_of_category found.category] at isClass
  cases shape with
  | basisValue => cases isClass
  | containerValue => cases isClass
  | containerReference => cases isClass
  | classReference => exact .inl ⟨found.2.2.1, found.2.1⟩
  | classPointer => exact .inr ⟨found.2.1, found.2.2.1, found.2.2.2.1⟩

/-- A built-in type is in no namespace, and only a container has marks. -/
theorem WellFormed.marks_of_not_isClass (h : arg.WellFormed) (isClass : arg.isClass = false) :
    arg.namespaces = [] ∧ (isContainerName arg.type = true ∨
      isContainerName arg.type = false ∧ arg.isConst = false ∧ arg.isPointer = false ∧
        arg.isReference = false) := by
  obtain ⟨shape, found, -⟩ := h.shape
  rw [isClass_of_category found.category] at isClass
  cases shape with
  | basisValue =>
      obtain ⟨basis, isConst, isPointer, isReference, namespaces⟩ := found
      have notContainer : isContainerName arg.type = false :=
        Bool.eq_false_iff.mpr fun names => nomatch basis.unique (isContainerName_iff.mp names)
      exact ⟨namespaces, .inr ⟨notContainer, isConst, isPointer, isReference⟩⟩
  | containerValue => exact ⟨found.2.2.2, .inl (isContainerName_iff.mpr found.1)⟩
  | containerReference => exact ⟨found.2.2.2, .inl (isContainerName_iff.mpr found.1)⟩
  | classReference => cases isClass
  | classPointer => cases isClass

/-- What stands behind the type of the argument's local. -/
def localMark (arg : Argument) : String :=
  if arg.isClass then (if arg.isPointer then "*" else "&") else ""

/-- The words that declare the argument's local. -/
def localWords (arg : Argument) : List String :=
  (if arg.isClass && !arg.isPointer && arg.isConst then ["const"] else []) ++
    [arg.cppType ++ arg.localMark, arg.name]

/-- What the argument's local is set to, with the end of the statement. -/
def localValue (arg : Argument) (index : Int) : String :=
  if arg.isClass then
    (if arg.isPointer then "" else "*") ++ "unwrap_shared_ptr< " ++ arg.cppType ++ " >(in[" ++
      index.repr ++ "], \"" ++ arg.qualifiedType "_" ++ "\")" ++
      (if arg.isPointer then ".get();" else ";")
  else "unwrap< " ++ arg.cppType ++ " >(in[" ++ index.repr ++ "]);"

theorem unwrapStatement_eq (arg : Argument) (index : Int) :
    arg.unwrapStatement index =
      " ".intercalate arg.localWords ++ " " ++ ("= " ++ arg.localValue index) := by
  unfold unwrapStatement localWords localMark localValue
  generalize index.repr = digits
  cases arg.isClass <;> cases arg.isPointer <;> cases arg.isConst <;> simp [← String.toList_inj]

/-- The words of a declaration hold nothing that stands between them or behind them. -/
theorem WellFormed.localWords_free (h : arg.WellFormed) :
    ∀ word ∈ arg.localWords, ' ' ∉ word.toList ∧ '=' ∉ word.toList := by
  have type := h.isTypeName_cppType
  have name := h.name.isStem.word
  have declared : ' ' ∉ (arg.cppType ++ arg.localMark).toList ∧
      '=' ∉ (arg.cppType ++ arg.localMark).toList := by
    unfold localMark
    rw [String.toList_append]
    have typeFree : ' ' ∉ arg.cppType.toList ∧ '=' ∉ arg.cppType.toList :=
      ⟨type.not_mem rfl (by decide), type.not_mem rfl (by decide)⟩
    split
    · split <;> simp [typeFree]
    · simp [typeFree]
  intro word member
  rcases List.mem_append.mp member with front | behind
  · split at front
    · cases List.mem_singleton.mp front
      decide
    · cases front
  · rcases List.mem_pair.mp behind with rfl | rfl
    · exact declared
    · exact ⟨name.not_mem rfl, name.not_mem rfl⟩

theorem WellFormed.localWords_unique (h : arg.WellFormed) (h' : other.WellFormed)
    {index : Int} (same : arg.unwrapStatement index = other.unwrapStatement index) :
    arg.localWords = other.localWords := by
  have noEquals {arg : Argument} (h : arg.WellFormed) :
      '=' ∉ (" ".intercalate arg.localWords ++ " ").toList := by
    rw [String.toList_append, List.mem_append, not_or]
    exact ⟨Text.not_mem_intercalate (by decide) fun word member => (h.localWords_free word member).2,
      by decide⟩
  rw [unwrapStatement_eq, unwrapStatement_eq] at same
  obtain ⟨declared, -⟩ := Text.cut_unique rfl (noEquals h) (noEquals h') same
  have texts := (String.append_left_inj " ").mp declared
  have nonempty (arg : Argument) : arg.localWords ≠ [] := by simp [localWords]
  exact intercalate_injective rfl (nonempty arg) (nonempty other)
    (fun word member => (h.localWords_free word member).1)
    (fun word member => (h'.localWords_free word member).1) texts

/-- What the glue keeps of an argument: all but the constant mark of a container and the reference
marks, which tell nothing else of a class. -/
structure SameGlue (arg other : Argument) : Prop where
  name : arg.name = other.name
  type : arg.type = other.type
  namespaces : arg.namespaces = other.namespaces
  isPointer : arg.isPointer = other.isPointer
  isConst : arg.isClass = true → arg.isConst = other.isConst

theorem WellFormed.type_unique (h : arg.WellFormed) (h' : other.WellFormed)
    (same : arg.cppType = other.cppType) :
    arg.type = other.type ∧ arg.isClass = other.isClass ∧ arg.namespaces = other.namespaces := by
  rw [cppType_eq, cppType_eq] at same
  obtain ⟨scope, type⟩ := qualify_cppScope_unique h.holdsWordChars h'.holdsWordChars same
  have isClass : arg.isClass = other.isClass := by rw [Argument.isClass, Argument.isClass, type]
  refine ⟨type, isClass, ?_⟩
  cases known : arg.isClass with
  | true =>
      rw [← isClass, known] at scope
      exact scope
  | false =>
      rw [(h.marks_of_not_isClass known).1, (h'.marks_of_not_isClass (isClass ▸ known)).1]

theorem isPointer_of_localMark (isClass : arg.isClass = other.isClass)
    (known : arg.isClass = true) (same : arg.localMark = other.localMark) :
    arg.isPointer = other.isPointer := by
  unfold localMark at same
  rw [← isClass, known, if_pos rfl, if_pos rfl] at same
  revert same
  cases arg.isPointer <;> cases other.isPointer <;> decide

/-- A container that is passed by its address is written otherwise than one that is not. -/
theorem isPointer_of_callExpression (type : arg.type = other.type) (name : arg.name = other.name)
    (container : isContainerName arg.type = true)
    (same : arg.callExpression = other.callExpression) : arg.isPointer = other.isPointer := by
  have longer (name : String) : "&" ++ name ≠ name := by
    intro same
    have lengths := congrArg String.length same
    rw [String.length_append] at lengths
    exact absurd lengths (by simp)
  unfold callExpression at same
  rw [← type, ← name, container, Bool.and_true, Bool.and_true] at same
  revert same
  cases arg.isPointer <;> cases other.isPointer
  · simp
  · exact fun same => absurd same.symm (longer arg.name)
  · exact fun same => absurd same (longer arg.name)
  · simp

/-- The words of a declaration and what is passed to the call tell all that the glue keeps. -/
theorem WellFormed.sameGlue (h : arg.WellFormed) (h' : other.WellFormed)
    (declared : arg.localWords = other.localWords)
    (passed : arg.callExpression = other.callExpression) : arg.SameGlue other := by
  obtain ⟨const, behind⟩ := List.append_inj' declared rfl
  obtain ⟨typed, name⟩ : arg.cppType ++ arg.localMark = other.cppType ++ other.localMark ∧
      arg.name = other.name := by simpa using behind
  have marked (arg : Argument) : ∀ c ∈ arg.localMark.toList.head?, isTypeChar c = false := by
    intro c member
    unfold localMark at member
    split at member
    · split at member <;> (cases member; rfl)
    · cases member
  obtain ⟨cppType, mark⟩ := Text.run_unique h.isTypeName_cppType.isTypeChar
    h'.isTypeName_cppType.isTypeChar (marked arg) (marked other) typed
  obtain ⟨type, isClass, namespaces⟩ := h.type_unique h' cppType
  cases known : arg.isClass with
  | true =>
      have isPointer := isPointer_of_localMark isClass known mark
      refine ⟨name, type, namespaces, isPointer, fun _ => ?_⟩
      have knownOther := isClass ▸ known
      rcases h.marks_of_isClass known with ⟨notPointer, -⟩ | ⟨pointer, notConst, -⟩
      · rw [known, knownOther, ← isPointer, notPointer] at const
        revert const
        cases arg.isConst <;> cases other.isConst <;> decide
      · rcases h'.marks_of_isClass knownOther with ⟨notPointer, -⟩ | ⟨-, notConst', -⟩
        · rw [← isPointer, pointer] at notPointer
          cases notPointer
        · rw [notConst, notConst']
  | false =>
      refine ⟨name, type, namespaces, ?_,
        fun isClass => absurd (known.symm.trans isClass) (by decide)⟩
      rcases (h.marks_of_not_isClass known).2 with container | ⟨notContainer, -, notPointer, -⟩
      · exact isPointer_of_callExpression type name container passed
      · rcases (h'.marks_of_not_isClass (isClass ▸ known)).2 with
          container | ⟨-, -, notPointer', -⟩
        · rw [type, container] at notContainer
          cases notContainer
        · rw [notPointer, notPointer']

theorem SameGlue.isClass (h : arg.SameGlue other) : arg.isClass = other.isClass := by
  rw [Argument.isClass, Argument.isClass, h.type]

theorem SameGlue.unwrapStatement (h : arg.SameGlue other) (index : Int) :
    arg.unwrapStatement index = other.unwrapStatement index := by
  have cppType : arg.cppType = other.cppType := by
    rw [cppType_eq, cppType_eq, h.isClass, h.type, h.namespaces]
  unfold Argument.unwrapStatement qualifiedType
  rw [← h.isClass, ← cppType, ← h.name, ← h.type, ← h.namespaces, ← h.isPointer]
  cases known : arg.isClass with
  | true => rw [h.isConst known]
  | false => rfl

theorem SameGlue.callExpression (h : arg.SameGlue other) :
    arg.callExpression = other.callExpression := by
  rw [Argument.callExpression, Argument.callExpression, h.isPointer, h.type, h.name]

/-- The argument without the marks of a container that the glue does not keep. -/
def bare (arg : Argument) : Argument :=
  if isContainerName arg.type then { arg with isConst := false, isReference := false } else arg

theorem bare_of_container (h : isContainerName arg.type = true) :
    arg.bare = { arg with isConst := false, isReference := false } := if_pos h

theorem bare_of_not_container (h : isContainerName arg.type = false) : arg.bare = arg :=
  if_neg (by simp [h])

theorem SameGlue.eq_of_not_container (h : arg.WellFormed) (h' : other.WellFormed)
    (same : arg.SameGlue other) (notContainer : isContainerName arg.type = false) : arg = other := by
  have rest : arg.isConst = other.isConst ∧ arg.isReference = other.isReference := by
    cases known : arg.isClass with
    | true =>
        refine ⟨same.isConst known, ?_⟩
        have reference {arg : Argument} (h : arg.WellFormed) (known : arg.isClass = true) :
            arg.isReference = !arg.isPointer := by
          rcases h.marks_of_isClass known with
            ⟨pointer, reference⟩ | ⟨pointer, -, reference⟩ <;>
            rw [pointer, reference] <;> rfl
        rw [reference h known, reference h' (same.isClass ▸ known), same.isPointer]
    | false =>
        have unmarked {arg : Argument} (h : arg.WellFormed) (known : arg.isClass = false)
            (notContainer : isContainerName arg.type = false) :
            arg.isConst = false ∧ arg.isReference = false := by
          rcases (h.marks_of_not_isClass known).2 with container | ⟨-, notConst, -, notReference⟩
          · rw [notContainer] at container
            cases container
          · exact ⟨notConst, notReference⟩
        obtain ⟨const, reference⟩ := unmarked h known notContainer
        obtain ⟨const', reference'⟩ :=
          unmarked h' (same.isClass ▸ known) (same.type ▸ notContainer)
        rw [const, const', reference, reference']
        exact ⟨rfl, rfl⟩
  obtain ⟨type, name, isConst, isPointer, isReference, namespaces⟩ := arg
  obtain ⟨name', type', namespaces', pointer, -⟩ := same
  cases name'
  cases type'
  cases namespaces'
  cases pointer
  obtain ⟨const, reference⟩ := rest
  cases const
  cases reference
  rfl

/-- The glue keeps all of an argument but the constant and reference marks of a container. -/
theorem WellFormed.bare_eq_iff (h : arg.WellFormed) (h' : other.WellFormed) :
    arg.bare = other.bare ↔ arg.SameGlue other := by
  have bareType (arg : Argument) : arg.bare.type = arg.type := by unfold bare; split <;> rfl
  constructor
  · intro same
    have type : arg.type = other.type := by rw [← bareType arg, ← bareType other, same]
    cases container : isContainerName arg.type with
    | true =>
        rw [bare_of_container container, bare_of_container (type ▸ container)] at same
        obtain ⟨type, name, -, pointer, -, namespaces⟩ := Argument.mk.inj same
        refine ⟨name, type, namespaces, pointer, fun isClass => ?_⟩
        rw [isClass_of_category (isContainerName_iff.mp container)] at isClass
        cases isClass
    | false =>
        rw [bare_of_not_container container, bare_of_not_container (type ▸ container)] at same
        cases same
        exact ⟨rfl, rfl, rfl, rfl, fun _ => rfl⟩
  · intro same
    cases container : isContainerName arg.type with
    | true =>
        rw [bare_of_container container, bare_of_container (same.type ▸ container),
          Argument.mk.injEq]
        exact ⟨same.type, same.name, rfl, same.isPointer, rfl, same.namespaces⟩
    | false => rw [same.eq_of_not_container h h' container]

end Argument

end MexGlue
