import MexGlue.Interface.Dependency
import MexGlue.Proofs.Model.WellFormed

/-!
# Qualified names

A qualified name is its namespaces and the name itself, joined by a delimiter. No word holds the
mark that the delimiter of C++ starts with, so two paths of words are joined to the same text only
if they are the same, and to look a joined name up among the known types is to compare paths.
-/

namespace MexGlue

/-- Whether a text could be a part of a word. -/
def HoldsWordChars (text : String) : Prop := ∀ c ∈ text.toList, Pattern.isWordChar c = true

theorem IsLowerName.holdsWordChars {name : String} (h : IsLowerName name) : HoldsWordChars name :=
  h.1.isWordChar fun _ => Pattern.isWordChar_of_isLower

theorem IsUpperName.holdsWordChars {name : String} (h : IsUpperName name) : HoldsWordChars name :=
  h.1.isWordChar fun _ => Pattern.isWordChar_of_isUpper

theorem BasisType.holdsWordChars (t : BasisType) : HoldsWordChars t.spelling := by
  cases t <;> exact List.all_eq_true.mp rfl

theorem ContainerType.holdsWordChars (t : ContainerType) : HoldsWordChars t.spelling := by
  cases t <;> exact List.all_eq_true.mp rfl

theorem NamesType.holdsWordChars {type : String} {category : Category}
    (h : NamesType type category) : HoldsWordChars type := by
  cases category with
  | basis =>
      obtain ⟨t, rfl⟩ := h
      exact t.holdsWordChars
  | container =>
      obtain ⟨t, rfl⟩ := h
      exact t.holdsWordChars
  | classType => exact IsUpperName.holdsWordChars h

theorem HoldsWordChars.not_mem {text : String} (h : HoldsWordChars text) {mark : Char}
    (isMark : Pattern.isWordChar mark = false) : mark ∉ text.toList := by
  intro member
  rw [h mark member] at isMark
  cases isMark

/-! ## Joining -/

/-- What stands behind the first of joined parts. -/
def joinedBehind (delimiter : String) (parts : List String) : List Char :=
  parts.flatMap fun part => delimiter.toList ++ part.toList

theorem toList_intercalate_cons (delimiter first : String) (rest : List String) :
    (delimiter.intercalate (first :: rest)).toList =
      first.toList ++ joinedBehind delimiter rest := by
  induction rest generalizing first with
  | nil => simp [joinedBehind]
  | cons second rest ih =>
      rw [String.intercalate_cons_cons, String.toList_append, String.toList_append, ih]
      simp [joinedBehind]

section Joining

variable {delimiter : String} {mark : Char} {tail : List Char}

theorem head?_joinedBehind (spelled : delimiter.toList = mark :: tail) {parts : List String}
    {c : Char} (h : c ∈ (joinedBehind delimiter parts).head?) : c = mark := by
  cases parts with
  | nil => cases h
  | cons part parts =>
      rw [joinedBehind, List.flatMap_cons, spelled] at h
      exact (Option.some.inj h).symm

/-- The part in front of the first mark. -/
theorem takeWhile_joinedBehind (spelled : delimiter.toList = mark :: tail) {first : List Char}
    (free : mark ∉ first) (parts : List String) :
    (first ++ joinedBehind delimiter parts).takeWhile (· != mark) = first := by
  apply Pattern.takeWhile_run
  · intro c member
    exact bne_iff_ne.mpr fun same => free (same ▸ member)
  · intro c member
    rw [head?_joinedBehind spelled member]
    exact bne_self_eq_false mark

/-- Joined parts are told apart at the marks, one part after the other. -/
theorem joinedBehind_unique (spelled : delimiter.toList = mark :: tail) {first other : String}
    {rest others : List String} (free : ∀ part ∈ first :: rest, mark ∉ part.toList)
    (freeOther : ∀ part ∈ other :: others, mark ∉ part.toList)
    (same : first.toList ++ joinedBehind delimiter rest =
      other.toList ++ joinedBehind delimiter others) : first :: rest = other :: others := by
  induction rest generalizing first other others with
  | nil =>
      have heads := congrArg (List.takeWhile (· != mark)) same
      rw [takeWhile_joinedBehind spelled (free first List.mem_cons_self),
        takeWhile_joinedBehind spelled (freeOther other List.mem_cons_self)] at heads
      rw [heads, List.append_cancel_left_eq] at same
      cases others with
      | nil => rw [String.toList_inj.mp heads]
      | cons part others => simp [joinedBehind, spelled] at same
  | cons second rest ih =>
      have heads := congrArg (List.takeWhile (· != mark)) same
      rw [takeWhile_joinedBehind spelled (free first List.mem_cons_self),
        takeWhile_joinedBehind spelled (freeOther other List.mem_cons_self)] at heads
      rw [heads, List.append_cancel_left_eq] at same
      cases others with
      | nil => simp [joinedBehind, spelled] at same
      | cons part others =>
          simp only [joinedBehind, List.flatMap_cons, List.append_assoc,
            List.append_cancel_left_eq] at same
          have later := ih (List.forall_mem_cons.mp free).2 (List.forall_mem_cons.mp freeOther).2
            same
          rw [String.toList_inj.mp heads, later]

theorem intercalate_injective (spelled : delimiter.toList = mark :: tail)
    {parts others : List String} (nonempty : parts ≠ []) (nonemptyOther : others ≠ [])
    (free : ∀ part ∈ parts, mark ∉ part.toList) (freeOther : ∀ part ∈ others, mark ∉ part.toList)
    (same : delimiter.intercalate parts = delimiter.intercalate others) : parts = others := by
  obtain ⟨first, rest, rfl⟩ := List.exists_cons_of_ne_nil nonempty
  obtain ⟨other, rest', rfl⟩ := List.exists_cons_of_ne_nil nonemptyOther
  have texts := congrArg String.toList same
  rw [toList_intercalate_cons, toList_intercalate_cons] at texts
  exact joinedBehind_unique spelled free freeOther texts

end Joining

@[simp] theorem qualify_nil (delimiter name : String) : qualify delimiter [] name = name := by
  simp [qualify]

/-- A qualified name ends in the name itself. -/
theorem exists_qualify_eq_append (delimiter : String) (namespaces : List String) (name : String) :
    ∃ front, qualify delimiter namespaces name = front ++ name := by
  by_cases outermost : namespaces = []
  · exact ⟨"", by simp [qualify, outermost]⟩
  · refine ⟨delimiter.intercalate namespaces ++ delimiter, ?_⟩
    rw [qualify, String.intercalate_append_of_ne_nil outermost (List.cons_ne_nil name []),
      String.intercalate_singleton]

/-- Paths of words are joined to the same text only if they are the same. -/
theorem qualify_scope_inj {namespaces others : List String} {name other : String}
    (words : ∀ part ∈ namespaces ++ [name], HoldsWordChars part)
    (otherWords : ∀ part ∈ others ++ [other], HoldsWordChars part) :
    qualify "::" namespaces name = qualify "::" others other ↔
      namespaces = others ∧ name = other := by
  constructor
  · intro same
    have spelled : "::".toList = [':', ':'] := rfl
    have parts := intercalate_injective spelled (by simp) (by simp)
      (fun part member => (words part member).not_mem rfl)
      (fun part member => (otherWords part member).not_mem rfl) same
    obtain ⟨front, last⟩ := List.append_inj' parts rfl
    exact ⟨front, List.singleton_inj.mp last⟩
  · intro h
    rw [h.1, h.2]

/-! ## Known types -/

/-- Whether a path names a type that needs no declaration, which is in no namespace. -/
def IsBuiltIn (namespaces : List String) (name : String) : Prop :=
  namespaces = [] ∧ (NamesType name .basis ∨ NamesType name .container)

/-- Whether a path is that of a class declared in the interface. -/
def Interface.Declares (interface : Interface) (namespaces : List String) (name : String) : Prop :=
  ∃ cls ∈ interface.classes, cls.namespaces = namespaces ∧ cls.name = name

theorem mem_builtInTypes_iff {name : String} :
    name ∈ builtInTypes ↔ NamesType name .basis ∨ NamesType name .container := by
  simp only [builtInTypes, List.mem_append, List.mem_map, BasisType.mem_all, ContainerType.mem_all,
    true_and, NamesType]

theorem holdsWordChars_of_mem_builtInTypes {name : String} (h : name ∈ builtInTypes) :
    HoldsWordChars name := by
  rcases mem_builtInTypes_iff.mp h with basis | container
  · exact basis.holdsWordChars
  · exact container.holdsWordChars

theorem Class.WellFormed.holdsWordChars {cls : Class} (h : cls.WellFormed) :
    ∀ part ∈ cls.namespaces ++ [cls.name], HoldsWordChars part := by
  intro part member
  rcases List.mem_append.mp member with inNamespaces | last
  · exact (h.namespaces part inNamespaces).holdsWordChars
  · rw [List.mem_singleton.mp last]
    exact h.name.holdsWordChars

section KnownTypes

variable {namespaces : List String} {name : String}

/-- A joined name is that of a built-in type only if it has one part. -/
theorem qualify_eq_builtIn_iff (words : ∀ part ∈ namespaces ++ [name], HoldsWordChars part)
    {builtIn : String} (h : builtIn ∈ builtInTypes) :
    qualify "::" namespaces name = builtIn ↔ namespaces = [] ∧ name = builtIn := by
  have builtInWords : ∀ part ∈ [] ++ [builtIn], HoldsWordChars part := by
    simpa using holdsWordChars_of_mem_builtInTypes h
  rw [← qualify_scope_inj words builtInWords, qualify_nil]

theorem qualify_eq_cppName_iff (words : ∀ part ∈ namespaces ++ [name], HoldsWordChars part)
    {cls : Class} (h : cls.WellFormed) :
    qualify "::" namespaces name = cls.cppName ↔ namespaces = cls.namespaces ∧ name = cls.name :=
  qualify_scope_inj words h.holdsWordChars

/-- A joined name is known exactly if its path is that of a built-in type or of a class. -/
theorem Interface.mem_knownTypes_iff {interface : Interface} (h : interface.WellFormed)
    (words : ∀ part ∈ namespaces ++ [name], HoldsWordChars part) :
    qualify "::" namespaces name ∈ interface.knownTypes ↔
      IsBuiltIn namespaces name ∨ interface.Declares namespaces name := by
  rw [knownTypes, List.mem_append]
  refine or_congr ?_ ?_
  · constructor
    · intro member
      obtain ⟨alone, same⟩ := (qualify_eq_builtIn_iff words member).mp rfl
      rw [← same] at member
      exact ⟨alone, mem_builtInTypes_iff.mp member⟩
    · intro builtIn
      rw [builtIn.1, qualify_nil]
      exact mem_builtInTypes_iff.mpr builtIn.2
  · rw [List.mem_map]
    constructor
    · intro declared
      obtain ⟨cls, member, same⟩ := declared
      obtain ⟨outer, last⟩ := (qualify_eq_cppName_iff words (h cls member)).mp same.symm
      exact ⟨cls, member, outer.symm, last.symm⟩
    · intro declared
      obtain ⟨cls, member, rfl, rfl⟩ := declared
      exact ⟨cls, member, rfl⟩

end KnownTypes

end MexGlue
