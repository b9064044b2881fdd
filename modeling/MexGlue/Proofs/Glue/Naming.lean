import MexGlue.Proofs.Toolbox.Functions

/-!
# Whose file it is

Generated names are joined from parts by a mark that the names of methods may hold as well. If the
path of a class does not hold it, the path can be read off the name again: the parts that start with
a small letter are the namespaces, and the first that does not is the class. A constructor's name has
one more part in front, which no outermost namespace may be.
-/

namespace MexGlue

/-! ## Paths in names -/

def startsSmall (part : String) : Bool := part.toList.head?.any Char.isLower

theorem IsLowerName.startsSmall {name : String} (h : IsLowerName name) :
    startsSmall name = true := by
  obtain ⟨first, rest, spelled, small, -⟩ := h.1
  rw [MexGlue.startsSmall, spelled, List.head?_cons, Option.any_some, small]

theorem IsUpperName.startsSmall {name : String} (h : IsUpperName name) :
    startsSmall name = false := by
  obtain ⟨first, rest, spelled, capital, -⟩ := h.1
  rw [MexGlue.startsSmall, spelled, List.head?_cons, Option.any_some,
    Pattern.not_isLower_of_isUpper capital]

/-- The path of a class in front of other parts: its namespaces and its name. -/
def pathIn (parts : List String) : List String × Option String :=
  (parts.takeWhile startsSmall, (parts.dropWhile startsSmall).head?)

/-- The path of the class that a file is for, given the file's place in the toolbox. -/
def ownerOf : Location → List String × Option String
  | [] => ([], none)
  | [file] =>
      let parts := Text.parts '_' file
      pathIn (if parts.head? = some "new" then parts.tail else parts)
  | directory :: _ => pathIn (Text.parts '_' (String.ofList directory.toList.tail))

namespace Class

/-- Whether the path of a class can be read off the names that it is in. -/
structure HasPlainPath (cls : Class) : Prop where
  noMark : ∀ part ∈ cls.namespaces ++ [cls.name], '_' ∉ part.toList
  outermost : ∀ outer ∈ cls.namespaces.head?, outer ≠ "new" ∧ outer ≠ "make"

instance (cls : Class) : Decidable cls.HasPlainPath :=
  decidable_of_iff
    ((∀ part ∈ cls.namespaces ++ [cls.name], '_' ∉ part.toList) ∧
      ∀ outer ∈ cls.namespaces.head?, outer ≠ "new" ∧ outer ≠ "make")
    ⟨fun h => ⟨h.1, h.2⟩, fun h => ⟨h.noMark, h.outermost⟩⟩

variable {cls : Class} {libraryNamespace : String} {function : GlueFunction}

theorem WellFormed.pathIn_append (h : cls.WellFormed) (rest : List String) :
    pathIn (cls.namespaces ++ cls.name :: rest) = (cls.namespaces, some cls.name) := by
  have small : ∀ name ∈ cls.namespaces, startsSmall name = true := fun name member =>
    (h.namespaces name member).startsSmall
  have capital : ¬ startsSmall cls.name = true := by simp [h.name.startsSmall]
  rw [pathIn, List.takeWhile_append_of_pos small, List.takeWhile_cons_of_neg capital,
    List.dropWhile_append_of_pos small, List.dropWhile_cons_of_neg capital, List.append_nil,
    List.head?_cons]

/-- A path starts with a word that no class could be called only if it has a namespace of it. -/
theorem WellFormed.head?_path (h : cls.WellFormed) {word : String} (small : startsSmall word = true)
    (notOutermost : ∀ outer ∈ cls.namespaces.head?, outer ≠ word) (rest : List String) :
    (cls.namespaces ++ cls.name :: rest).head? ≠ some word := by
  cases outer : cls.namespaces with
  | nil =>
      intro same
      rw [← Option.some.inj same, h.name.startsSmall] at small
      cases small
  | cons first others =>
      rw [outer] at notOutermost
      exact fun same => notOutermost first rfl (Option.some.inj same)

theorem HasPlainPath.parts_matlabName (plain : cls.HasPlainPath) :
    Text.parts '_' cls.matlabName = cls.namespaces ++ [cls.name] :=
  Text.parts_intercalate rfl plain.noMark (by simp)

theorem HasPlainPath.parts_matlabName_append (plain : cls.HasPlainPath) (rest : String) :
    Text.parts '_' (cls.matlabName ++ "_" ++ rest) =
      cls.namespaces ++ cls.name :: Text.parts '_' rest := by
  rw [Text.parts_append rfl, plain.parts_matlabName, List.append_assoc, List.singleton_append]

/-! ## Names of functions -/

theorem WellFormed.exists_constructorName_eq (h : cls.WellFormed) {ctor : Constructor}
    (member : ctor ∈ cls.constructors) : ∃ letters, signature? ctor.args = some letters ∧
      cls.constructorName ctor = "new_" ++ cls.matlabName ++ "_" ++ letters := by
  obtain ⟨letters, signed⟩ := exists_signature? (h.namesConstructorTypes ctor member)
  refine ⟨letters, signed, ?_⟩
  rw [constructorName, constructorName?, signed]
  rfl

theorem WellFormed.exists_parts_constructorName (h : cls.WellFormed) (plain : cls.HasPlainPath)
    {ctor : Constructor} (member : ctor ∈ cls.constructors) (ending : String) :
    ∃ rest, rest ≠ [] ∧ Text.parts '_' (cls.constructorName ctor ++ ending) =
      "new" :: (cls.namespaces ++ cls.name :: rest) := by
  obtain ⟨letters, -, name⟩ := h.exists_constructorName_eq member
  refine ⟨Text.parts '_' (letters ++ ending), Text.parts_ne_nil _ _, ?_⟩
  have split : cls.constructorName ctor ++ ending =
      "new" ++ "_" ++ (cls.matlabName ++ "_" ++ (letters ++ ending)) := by
    rw [name]
    simp [← String.toList_inj]
  rw [split, Text.parts_append_of_not_mem rfl (by decide), plain.parts_matlabName_append]

theorem HasPlainPath.exists_parts_staticMethodName (plain : cls.HasPlainPath)
    (method : StaticMethod) (ending : String) :
    ∃ rest, rest ≠ [] ∧ Text.parts '_' (cls.staticMethodName method ++ ending) =
      cls.namespaces ++ cls.name :: rest := by
  refine ⟨Text.parts '_' (method.name ++ ending), Text.parts_ne_nil _ _, ?_⟩
  rw [staticMethodName, String.append_assoc, plain.parts_matlabName_append]

/-- The names of the files in the toolbox directory have the path of their class in them, with more
behind it. -/
theorem WellFormed.exists_parts_outerFunction (h : cls.WellFormed) (plain : cls.HasPlainPath)
    (member : function ∈ cls.outerFunctions libraryNamespace) (ending : String) :
    ∃ rest, rest ≠ [] ∧
      (Text.parts '_' (function.name ++ ending) = "new" :: (cls.namespaces ++ cls.name :: rest) ∨
        Text.parts '_' (function.name ++ ending) = cls.namespaces ++ cls.name :: rest) := by
  rcases List.mem_append.mp member with isConstructor | isStatic
  · obtain ⟨ctor, inClass, rfl⟩ := List.mem_map.mp isConstructor
    obtain ⟨rest, more, parts⟩ := h.exists_parts_constructorName plain inClass ending
    exact ⟨rest, more, .inl parts⟩
  · obtain ⟨method, inClass, rfl⟩ := List.mem_map.mp isStatic
    obtain ⟨rest, more, parts⟩ := plain.exists_parts_staticMethodName method ending
    exact ⟨rest, more, .inr parts⟩

theorem WellFormed.ownerOf_outerFunction (h : cls.WellFormed) (plain : cls.HasPlainPath)
    (member : function ∈ cls.outerFunctions libraryNamespace) (ending : String) :
    ownerOf [function.name ++ ending] = (cls.namespaces, some cls.name) := by
  obtain ⟨rest, -, parts | parts⟩ := h.exists_parts_outerFunction plain member ending
  · rw [ownerOf, parts, List.head?_cons, if_pos rfl, List.tail_cons, h.pathIn_append]
  · have notNew : (cls.namespaces ++ cls.name :: rest).head? ≠ some "new" :=
      h.head?_path (by decide) (fun outer first => (plain.outermost outer first).1) rest
    rw [ownerOf, parts, if_neg notNew, h.pathIn_append]

theorem WellFormed.ownerOf_directory (h : cls.WellFormed) (plain : cls.HasPlainPath)
    (file : String) : ownerOf [cls.directory, file] = (cls.namespaces, some cls.name) := by
  have name : String.ofList cls.directory.toList.tail = cls.matlabName := by
    rw [directory, String.toList_append]
    exact String.ofList_toList
  rw [ownerOf, name, plain.parts_matlabName, h.pathIn_append]
  exact List.cons_ne_nil _ _

end Class

end MexGlue
