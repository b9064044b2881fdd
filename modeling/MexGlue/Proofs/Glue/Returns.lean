import MexGlue.Proofs.Glue.Decoding

/-!
# Reading returned values back

What stands in front of a call tells what it returns: nothing, a slot or a pair of slots, each by
the type of its result. The call itself may hold line feeds if its class has a strange name, so how
many values it returns is told by the number of all line feeds.
-/

namespace MexGlue

namespace Text

/-- Lines have a line feed each. -/
theorem count_unlines {lines : List String} (free : ∀ line ∈ lines, '\n' ∉ line.toList) :
    (unlines lines).toList.count '\n' = lines.length := by
  induction lines with
  | nil => rfl
  | cons line lines ih =>
      obtain ⟨here, behind⟩ := List.forall_mem_cons.mp free
      rw [unlines_cons, String.toList_append, String.toList_append, List.count_append,
        List.count_append, List.count_eq_zero.mpr here, ih behind, List.length_cons]
      exact Nat.add_comm 1 lines.length

end Text

/-! ## Slots -/

namespace ReturnSlot

variable {slot other : ReturnSlot}

theorem WellFormed.words (h : slot.WellFormed) :
    ∀ part ∈ slot.namespaces ++ [slot.type], HoldsWordChars part :=
  List.forall_mem_append.mpr ⟨fun name member => (h.namespaces name member).holdsWordChars,
    List.forall_mem_singleton.mpr h.isStem.word⟩

theorem cppType_eq (slot : ReturnSlot) :
    slot.cppType = qualify "::" (cppScope slot.isClass slot.type slot.namespaces) slot.type := by
  unfold cppType
  cases slot.isClass with
  | true => rfl
  | false => exact cppTypeName_eq slot.type slot.namespaces

theorem WellFormed.eq_of_cppType (h : slot.WellFormed) (h' : other.WellFormed)
    (type : slot.cppType = other.cppType) (isPointer : slot.isPointer = other.isPointer) :
    slot = other := by
  rw [cppType_eq, cppType_eq] at type
  obtain ⟨scope, type⟩ := qualify_cppScope_unique h.words h'.words type
  have category : slot.category = other.category := by
    obtain ⟨category, known⟩ := Option.ne_none_iff_exists'.mp h.category
    have names := (h.category_iff category).mp known
    rw [known, (h'.category_iff category).mpr (type ▸ names)]
  have isClass : slot.isClass = other.isClass := by
    rw [ReturnSlot.isClass, ReturnSlot.isClass, category]
  have namespaces : slot.namespaces = other.namespaces := by
    cases known : slot.isClass with
    | true =>
        rw [← isClass, known] at scope
        exact scope
    | false =>
        have notClass : slot.category ≠ some .classType := by simpa [ReturnSlot.isClass] using known
        rw [(h.bare notClass).2, (h'.bare (category ▸ notClass)).2]
  obtain ⟨_, _, _, _⟩ := slot
  obtain ⟨_, _, _, _⟩ := other
  rw [ReturnSlot.mk.injEq]
  exact ⟨type, category, isPointer, namespaces⟩

/-- What stands behind the type of a result. -/
def pointerMark (slot : ReturnSlot) : String := if slot.isPointer then "*" else ""

theorem resultType_eq (slot : ReturnSlot) : slot.resultType = slot.cppType ++ slot.pointerMark := by
  unfold resultType pointerMark
  cases slot.isPointer <;> simp

/-- The type of a result tells all of the slot, in front of what is no part of a type. -/
theorem WellFormed.resultType_unique (h : slot.WellFormed) (h' : other.WellFormed)
    {rest others : String} (stops : ∀ c ∈ rest.toList.head?, isTypeChar c = false ∧ c ≠ '*')
    (stopsOther : ∀ c ∈ others.toList.head?, isTypeChar c = false ∧ c ≠ '*')
    (same : slot.resultType ++ rest = other.resultType ++ others) :
    slot = other ∧ rest = others := by
  have marked (slot : ReturnSlot) {rest : String}
      (stops : ∀ c ∈ rest.toList.head?, isTypeChar c = false ∧ c ≠ '*') :
      ∀ c ∈ (slot.pointerMark ++ rest).toList.head?, isTypeChar c = false := by
    unfold pointerMark
    split
    · intro c member
      rw [String.toList_append] at member
      cases member
      rfl
    · simpa using fun c member => (stops c member).1
  rw [resultType_eq, resultType_eq, String.append_assoc, String.append_assoc] at same
  obtain ⟨type, behind⟩ := Text.run_unique h.isTypeName_cppType.isTypeChar
    h'.isTypeName_cppType.isTypeChar (marked slot stops) (marked other stopsOther) same
  have noStar {rest others : String}
      (stops : ∀ c ∈ rest.toList.head?, isTypeChar c = false ∧ c ≠ '*')
      (same : "" ++ rest = "*" ++ others) : False := by
    rw [String.empty_append] at same
    exact (stops '*' (by simp [same])).2 rfl
  have isPointer : slot.isPointer = other.isPointer := by
    unfold pointerMark at behind
    revert behind
    cases slot.isPointer <;> cases other.isPointer
    · exact fun _ => rfl
    · exact fun behind => (noStar stops behind).elim
    · exact fun behind => (noStar stopsOther behind.symm).elim
    · exact fun _ => rfl
  refine ⟨h.eq_of_cppType h' type isPointer, ?_⟩
  rw [pointerMark, pointerMark, isPointer] at behind
  exact (String.append_right_inj _).mp behind

/-- A statement that puts a result out is a single line. -/
theorem WellFormed.wrapExpression_line (h : slot.WellFormed) {output result : String}
    (outputInline : Mex.IsInline output) (resultInline : Mex.IsInline result)
    (resultFree : '<' ∉ result.toList) :
    '\n' ∉ (output ++ slot.wrapExpression result ++ ";").toList :=
  (h.tells_output outputInline resultInline resultFree).lines _ List.mem_cons_self

end ReturnSlot

/-! ## Values -/

namespace ReturnValue

variable {value other : ReturnValue} {call called : String}

/-- Nothing is returned, or a slot, or a pair of slots. -/
theorem WellFormed.forms (h : value.WellFormed) :
    value = {} ∨ (∃ slot : ReturnSlot, slot.WellFormed ∧ value = { first := slot }) ∨
      ∃ first second : ReturnSlot, first.WellFormed ∧ second.WellFormed ∧
        value = { first := first, second := some second } := by
  rcases h with rfl | slots
  · exact .inl rfl
  · obtain ⟨first, second⟩ := value
    obtain ⟨firstForm, later⟩ := List.forall_mem_cons.mp slots
    cases second with
    | none => exact .inr (.inl ⟨first, firstForm, rfl⟩)
    | some second =>
        exact .inr (.inr ⟨first, second, firstForm, later second (by simp), rfl⟩)

/-- What takes the value that a call returns, in front of the call. -/
def taken (value : ReturnValue) : String :=
  if value.isVoid then ""
  else
    match value.second with
    | none => value.first.resultType ++ " result = "
    | some second =>
        "std::pair< " ++ value.first.resultType ++ ", " ++ second.resultType ++ " > result = "

/-- The statements behind the call. -/
def outputs (value : ReturnValue) : List String :=
  if value.isVoid then []
  else
    match value.second with
    | none => ["out[0] = " ++ value.first.wrapExpression "result" ++ ";"]
    | some second =>
        ["out[0] = " ++ value.first.wrapExpression "result.first" ++ ";",
          "out[1] = " ++ second.wrapExpression "result.second" ++ ";"]

theorem statements_eq (value : ReturnValue) (call : String) :
    value.statements call = (value.taken ++ (call ++ ";")) :: value.outputs := by
  obtain ⟨first, second⟩ := value
  unfold statements taken outputs
  split
  · simp
  · cases second <;> simp [String.append_assoc]

section Forms

variable {slot first second : ReturnSlot}

theorem taken_single (h : slot.WellFormed) :
    ReturnValue.taken { first := slot } = slot.resultType ++ " result = " :=
  if_neg (by simpa [isVoid] using h.category)

theorem outputs_single (h : slot.WellFormed) :
    ReturnValue.outputs { first := slot } =
      ["out[0] = " ++ slot.wrapExpression "result" ++ ";"] :=
  if_neg (by simpa [isVoid] using h.category)

theorem taken_pair (h : first.WellFormed) :
    ReturnValue.taken { first := first, second := some second } =
      "std::pair< " ++ first.resultType ++ ", " ++ second.resultType ++ " > result = " :=
  if_neg (by simpa [isVoid] using h.category)

theorem outputs_pair (h : first.WellFormed) :
    ReturnValue.outputs { first := first, second := some second } =
      ["out[0] = " ++ first.wrapExpression "result.first" ++ ";",
        "out[1] = " ++ second.wrapExpression "result.second" ++ ";"] :=
  if_neg (by simpa [isVoid] using h.category)

end Forms

theorem WellFormed.lines (h : value.WellFormed) :
    '\n' ∉ value.taken.toList ∧ ∀ output ∈ value.outputs, '\n' ∉ output.toList := by
  rcases h.forms with rfl | ⟨slot, form, rfl⟩ | ⟨first, second, firstForm, secondForm, rfl⟩
  · exact ⟨by decide, by decide⟩
  · rw [taken_single form, outputs_single form]
    refine ⟨by simp [form.isInline_resultType.1], List.forall_mem_singleton.mpr ?_⟩
    exact form.wrapExpression_line (by decide) (by decide) (by decide)
  · rw [taken_pair firstForm, outputs_pair firstForm]
    refine ⟨by simp [firstForm.isInline_resultType.1, secondForm.isInline_resultType.1], ?_⟩
    exact List.forall_mem_cons.mpr
      ⟨firstForm.wrapExpression_line (by decide) (by decide) (by decide),
        List.forall_mem_singleton.mpr
          (secondForm.wrapExpression_line (by decide) (by decide) (by decide))⟩

/-- There are as many line feeds as outputs, but for those of the call and the line that it is in. -/
theorem WellFormed.count_statements (h : value.WellFormed) (call : String) :
    (bodyText (value.statements call)).toList.count '\n' =
      1 + value.outputs.length + call.toList.count '\n' := by
  obtain ⟨taken, outputs⟩ := h.lines
  have first : ("  " ++ (value.taken ++ (call ++ ";"))).toList.count '\n' =
      call.toList.count '\n' := by
    simp [List.count_append, List.count_eq_zero.mpr taken]
  have others : ∀ line ∈ value.outputs.map ("  " ++ ·), '\n' ∉ line.toList :=
    List.forall_mem_map.mpr fun output member => by simp [outputs output member]
  rw [statements_eq, bodyText_cons, Text.unlines_cons, String.toList_append,
    String.toList_append, List.count_append, List.count_append, first, Text.count_unlines others,
    List.length_map]
  have feed : List.count '\n' "\n".toList = 1 := rfl
  omega

/-- What takes the value of a call tells what is returned, if it is known how much that is. -/
theorem WellFormed.taken_unique (h : value.WellFormed) (h' : other.WellFormed)
    (lengths : value.outputs.length = other.outputs.length) {rest others : String}
    (same : value.taken ++ rest = other.taken ++ others) : value = other := by
  have none : ReturnValue.outputs {} = [] := rfl
  rcases h.forms with
    rfl | ⟨slot, form, rfl⟩ | ⟨first, second, firstForm, secondForm, rfl⟩ <;>
    rcases h'.forms with
      rfl | ⟨slot', form', rfl⟩ | ⟨first', second', firstForm', secondForm', rfl⟩
  · rfl
  · rw [none, outputs_single form'] at lengths
    cases lengths
  · rw [none, outputs_pair firstForm'] at lengths
    cases lengths
  · rw [none, outputs_single form] at lengths
    cases lengths
  · rw [taken_single form, taken_single form', String.append_assoc, String.append_assoc] at same
    rw [(form.resultType_unique form' (by simp +decide) (by simp +decide) same).1]
  · rw [outputs_single form, outputs_pair firstForm'] at lengths
    cases lengths
  · rw [none, outputs_pair firstForm] at lengths
    cases lengths
  · rw [outputs_pair firstForm, outputs_single form'] at lengths
    cases lengths
  · rw [taken_pair firstForm, taken_pair firstForm'] at same
    simp only [String.append_assoc, String.append_right_inj] at same
    obtain ⟨rfl, behind⟩ := firstForm.resultType_unique firstForm' (by simp +decide)
      (by simp +decide) same
    obtain ⟨rfl, -⟩ := secondForm.resultType_unique secondForm' (by simp +decide)
      (by simp +decide) ((String.append_right_inj _).mp behind)
    rfl

/-- The statements of a call tell what it returns and what is called, if the calls have as many line
feeds as each other. -/
theorem WellFormed.statements_unique (h : value.WellFormed) (h' : other.WellFormed)
    (sameLines : call.toList.count '\n' = called.toList.count '\n')
    (same : bodyText (value.statements call) = bodyText (other.statements called)) :
    value = other ∧ call = called := by
  have lengths : value.outputs.length = other.outputs.length := by
    have counts : (bodyText (value.statements call)).toList.count '\n' =
        (bodyText (other.statements called)).toList.count '\n' := by rw [same]
    rw [h.count_statements, h'.count_statements, sameLines] at counts
    omega
  have front : value.taken ++ (call ++ (";" ++ ("\n" ++ bodyText value.outputs))) =
      other.taken ++ (called ++ (";" ++ ("\n" ++ bodyText other.outputs))) := by
    rw [statements_eq, statements_eq, bodyText_cons, bodyText_cons, Text.unlines_cons,
      Text.unlines_cons] at same
    simp only [String.append_assoc, String.append_right_inj] at same
    exact same
  obtain rfl := h.taken_unique h' lengths front
  refine ⟨rfl, ?_⟩
  exact (String.append_left_inj _).mp ((String.append_right_inj _).mp front)

end ReturnValue

end MexGlue
