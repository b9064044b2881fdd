import MexGlue.Proofs.Dependency.Qualified
import MexGlue.Proofs.Storage.Components
import MexGlue.Toolbox.Plan

/-!
# What can be rendered

Rendering fails only for a constructor without a name, and a constructor has one if each of its
arguments' types has. So all that is made of a class is rendered or none of its glue is, and what is
rendered has a line. The names of a class that was read are words, so each file of it is a single
component below the directory that it is put in.
-/

namespace MexGlue

section MapM

variable {α β : Type} {f : α → Option β} {xs : List α}

theorem exists_mapM_eq_some (h : ∀ x ∈ xs, ∃ y, f x = some y) : ∃ ys, xs.mapM f = some ys := by
  induction xs with
  | nil => exact ⟨[], rfl⟩
  | cons x xs ih =>
      obtain ⟨⟨y, first⟩, later⟩ := List.forall_mem_cons.mp h
      obtain ⟨ys, rest⟩ := ih later
      exact ⟨y :: ys, by simp [List.mapM_cons, first, rest]⟩

theorem exists_of_mem_mapM {ys : List β} (h : xs.mapM f = some ys) {y : β} (member : y ∈ ys) :
    ∃ x ∈ xs, f x = some y := by
  induction xs generalizing ys with
  | nil =>
      cases h
      cases member
  | cons x xs ih =>
      simp only [List.mapM_cons, Option.bind_eq_bind, Option.bind_eq_some_iff,
        Option.pure_def, Option.some.injEq] at h
      obtain ⟨first, found, rest, others, rfl⟩ := h
      rcases List.mem_cons.mp member with rfl | behind
      · exact ⟨x, List.mem_cons_self, found⟩
      · obtain ⟨x', inRest, found'⟩ := ih others behind
        exact ⟨x', List.mem_cons_of_mem x inRest, found'⟩

end MapM

theorem exists_signature? {args : List Argument} (h : ∀ arg ∈ args, arg.type ≠ "") :
    ∃ letters, signature? args = some letters := by
  have firsts : ∃ letters, (args.mapM fun arg : Argument => arg.type.toList.head?) =
      some letters := by
    refine exists_mapM_eq_some fun arg member => ?_
    cases spelled : arg.type.toList with
    | nil => exact absurd (String.toList_eq_nil_iff.mp spelled) (h arg member)
    | cons first rest => exact ⟨first, rfl⟩
  obtain ⟨letters, found⟩ := firsts
  exact ⟨String.ofList letters, by rw [signature?, found]; rfl⟩

namespace Class

/-- Whether the types of all constructor arguments have a name. -/
def NamesConstructorTypes (cls : Class) : Prop :=
  ∀ ctor ∈ cls.constructors, ∀ arg ∈ ctor.args, arg.type ≠ ""

instance (cls : Class) : Decidable cls.NamesConstructorTypes :=
  inferInstanceAs (Decidable (∀ ctor ∈ cls.constructors, ∀ arg ∈ ctor.args, arg.type ≠ ""))

section Named

variable {cls : Class} {ctor : Constructor}

theorem NamesConstructorTypes.exists_constructorName? (h : cls.NamesConstructorTypes)
    (member : ctor ∈ cls.constructors) : ∃ name, cls.constructorName? ctor = some name := by
  obtain ⟨letters, found⟩ := exists_signature? (h ctor member)
  exact ⟨_, by rw [constructorName?, found]; rfl⟩

theorem NamesConstructorTypes.exists_constructorNames? (h : cls.NamesConstructorTypes) :
    ∃ names, cls.constructorNames? = some names :=
  exists_mapM_eq_some fun _ member => h.exists_constructorName? member

theorem NamesConstructorTypes.exists_proxy? (h : cls.NamesConstructorTypes) :
    ∃ text, cls.proxy? = some text := by
  have lines : ∃ dispatch, cls.constructors.mapM cls.dispatchLine? = some dispatch := by
    refine exists_mapM_eq_some fun ctor member => ?_
    obtain ⟨name, found⟩ := h.exists_constructorName? member
    exact ⟨_, by rw [dispatchLine?, found]; rfl⟩
  obtain ⟨dispatch, found⟩ := lines
  exact ⟨_, by rw [proxy?, found]; rfl⟩

theorem NamesConstructorTypes.exists_compileCommands? (h : cls.NamesConstructorTypes)
    (mexFlags : String) : ∃ commands, cls.compileCommands? mexFlags = some commands := by
  obtain ⟨names, found⟩ := h.exists_constructorNames?
  exact ⟨_, by rw [compileCommands?, found]; rfl⟩

theorem NamesConstructorTypes.exists_rules? (h : cls.NamesConstructorTypes) :
    ∃ rules, cls.rules? = some rules := by
  obtain ⟨names, found⟩ := h.exists_constructorNames?
  exact ⟨_, by rw [rules?, targets?, found]; rfl⟩

end Named

end Class

/-! ## Texts with a line -/

theorem Text.unlines_ne_empty {lines : List String} (h : lines ≠ []) : unlines lines ≠ "" := by
  obtain ⟨line, rest, rfl⟩ := List.exists_cons_of_ne_nil h
  intro empty
  have size := congrArg String.length empty
  simp at size

theorem stub_ne_empty (name : String) (parameters : List String) : stub name parameters ≠ "" :=
  Text.unlines_ne_empty (by simp)

namespace Class

variable {cls : Class} {ctor : Constructor} {text : String}

theorem mexFile_ne_empty (libraryNamespace : String) (body : List String) :
    cls.mexFile libraryNamespace body ≠ "" :=
  Text.unlines_ne_empty (by simp [preamble])

theorem proxy_ne_empty (h : cls.proxy? = some text) : text ≠ "" := by
  obtain ⟨dispatch, -, rfl⟩ := Option.map_eq_some_iff.mp h
  exact Text.unlines_ne_empty (by simp [proxyWith])

end Class

/-! ## Names of files -/

theorem HoldsWordChars.append {first second : String} (h : HoldsWordChars first)
    (h' : HoldsWordChars second) : HoldsWordChars (first ++ second) := by
  intro c member
  rw [String.toList_append, List.mem_append] at member
  exact member.elim (h c) (h' c)

/-- Whether a text can stand in front of the ending of a file's name. -/
structure IsStem (name : String) : Prop where
  word : HoldsWordChars name
  nonempty : name ≠ ""

theorem IsLowerName.isStem {name : String} (h : IsLowerName name) : IsStem name where
  word := h.holdsWordChars
  nonempty empty := h.1.ne_nil (String.toList_eq_nil_iff.mpr empty)

theorem IsUpperName.isStem {name : String} (h : IsUpperName name) : IsStem name where
  word := h.holdsWordChars
  nonempty empty := h.1.ne_nil (String.toList_eq_nil_iff.mpr empty)

theorem IsStem.append {first second : String} (h : IsStem first) (word : HoldsWordChars second) :
    IsStem (first ++ second) where
  word := h.word.append word
  nonempty empty := h.nonempty (String.append_eq_empty_iff.mp empty).1

/-- A file whose name starts with a word is a single component. -/
theorem IsStem.isComponent {name ending : String} (h : IsStem name)
    (noSlash : '/' ∉ ending.toList) : IsComponent (name ++ ending) := by
  cases spelled : name.toList with
  | nil => exact absurd (String.toList_eq_nil_iff.mp spelled) h.nonempty
  | cons first rest =>
      have notDot : first ≠ '.' := by
        intro same
        have mark : Pattern.isWordChar '.' = false := rfl
        exact h.word.not_mem mark (by simp [spelled, same])
      have whole : (name ++ ending).toList = first :: (rest ++ ending.toList) := by
        rw [String.toList_append, spelled, List.cons_append]
      refine .of_head whole notDot ?_
      rw [String.toList_append, List.mem_append, not_or]
      exact ⟨h.word.not_mem rfl, noSlash⟩

/-- What joins the parts of generated names could be a part itself. -/
theorem holdsWordChars_joint : HoldsWordChars "_" := List.all_eq_true.mp rfl

/-- Words joined by a word are one word. -/
theorem isStem_qualify {delimiter name : String} {namespaces : List String}
    (joint : HoldsWordChars delimiter) (words : ∀ part ∈ namespaces ++ [name], IsStem part) :
    IsStem (qualify delimiter namespaces name) := by
  rw [qualify]
  obtain ⟨first, rest, parts⟩ := List.exists_cons_of_ne_nil
    (List.append_ne_nil_of_right_ne_nil namespaces (List.cons_ne_nil name []))
  rw [parts] at words ⊢
  obtain ⟨firstWord, restWords⟩ := List.forall_mem_cons.mp words
  have letters := toList_intercalate_cons delimiter first rest
  refine ⟨fun c member => ?_, fun empty => ?_⟩
  · rw [letters, List.mem_append] at member
    rcases member with inFirst | behind
    · exact firstWord.word c inFirst
    · obtain ⟨part, inRest, inPart⟩ := List.mem_flatMap.mp behind
      rcases List.mem_append.mp inPart with inJoint | here
      · exact joint c inJoint
      · exact (restWords part inRest).word c here
  · rw [empty] at letters
    exact firstWord.nonempty
      (String.toList_eq_nil_iff.mp (List.append_eq_nil_iff.mp letters.symm).1)

theorem holdsWordChars_of_signature? {args : List Argument} {letters : String}
    (words : ∀ arg ∈ args, HoldsWordChars arg.type) (h : signature? args = some letters) :
    HoldsWordChars letters := by
  obtain ⟨firsts, found, rfl⟩ := Option.map_eq_some_iff.mp h
  intro c member
  rw [String.toList_ofList] at member
  obtain ⟨arg, inArgs, first⟩ := exists_of_mem_mapM found member
  exact words arg inArgs c (List.mem_of_mem_head? (Option.mem_def.mpr first))

theorem NamesType.isStem {type : String} {category : Category} (h : NamesType type category) :
    IsStem type := by
  refine ⟨h.holdsWordChars, ?_⟩
  cases category with
  | basis =>
      obtain ⟨t, rfl⟩ := h
      cases t <;> decide
  | container =>
      obtain ⟨t, rfl⟩ := h
      cases t <;> decide
  | classType => exact (IsUpperName.isStem h).nonempty

theorem Argument.WellFormed.isStem {arg : Argument} (h : arg.WellFormed) : IsStem arg.type := by
  obtain ⟨shape, found, -⟩ := h.shape
  exact found.category.isStem

namespace Class

variable {cls : Class}

theorem WellFormed.namesConstructorTypes (h : cls.WellFormed) : cls.NamesConstructorTypes :=
  fun ctor member arg inArgs => ((h.constructors ctor member).2 arg inArgs).isStem.nonempty

theorem WellFormed.isStem_matlabName (h : cls.WellFormed) : IsStem cls.matlabName := by
  refine isStem_qualify holdsWordChars_joint fun part member => ?_
  rcases List.mem_append.mp member with inNamespaces | last
  · exact (h.namespaces part inNamespaces).isStem
  · rw [List.mem_singleton.mp last]
    exact h.name.isStem

theorem WellFormed.isComponent_directory (h : cls.WellFormed) : IsComponent cls.directory := by
  have spelled : cls.directory.toList = '@' :: cls.matlabName.toList := by
    rw [directory, String.toList_append]
    rfl
  refine .of_head spelled (by decide) ?_
  rw [directory, String.toList_append, List.mem_append, not_or]
  exact ⟨by decide, h.isStem_matlabName.word.not_mem rfl⟩

/-- A constructor that was read has a name, and that is a word. -/
theorem WellFormed.exists_constructorName? (h : cls.WellFormed) {ctor : Constructor}
    (member : ctor ∈ cls.constructors) :
    ∃ name, cls.constructorName? ctor = some name ∧ IsStem name := by
  obtain ⟨letters, signed⟩ := exists_signature? (h.namesConstructorTypes ctor member)
  have words := holdsWordChars_of_signature?
    (fun arg inArgs => ((h.constructors ctor member).2 arg inArgs).isStem.word) signed
  have start : IsStem "new_" := ⟨List.all_eq_true.mp rfl, by decide⟩
  have name := ((start.append h.isStem_matlabName.word).append holdsWordChars_joint).append words
  exact ⟨_, by rw [constructorName?, signed]; rfl, name⟩

theorem WellFormed.isStem_staticMethodName (h : cls.WellFormed) {method : StaticMethod}
    (member : method ∈ cls.staticMethods) : IsStem (cls.staticMethodName method) := by
  refine (h.isStem_matlabName.append holdsWordChars_joint).append ?_
  rcases (h.staticMethods method member).1 with lower | upper
  · exact lower.holdsWordChars
  · exact upper.holdsWordChars

end Class

end MexGlue
