import Mathlib.Data.List.Nodup
import MexGlue.Proofs.Glue.Naming

/-!
# Files that are told apart

If classes have different paths without the mark that joins names, and the members of a class have
different names, no two files of an interface have one place. Files of two classes are told apart by
the class that their places are for, and files of one class by their functions: a file has the name
of its function, in the directory that the function is in.
-/

namespace MexGlue

/-! ## Names that are apart -/

/-- Whether no two members of a class have files of the same names. -/
structure Class.MembersApart (cls : Class) : Prop where
  methods : (cls.methods.map Method.name).Nodup
  proxy : ∀ method ∈ cls.methods, method.name ≠ cls.matlabName
  staticMethods : (cls.staticMethods.map StaticMethod.name).Nodup
  constructors : (cls.constructors.map fun ctor => signature? ctor.args).Nodup

/-- Whether the names in an interface make no two files of the same name. -/
structure Interface.NamesApart (interface : Interface) : Prop where
  moduleName : '/' ∉ interface.name.toList
  classes : (interface.classes.map fun cls => (cls.namespaces, cls.name)).Nodup
  paths : ∀ cls ∈ interface.classes, cls.HasPlainPath
  members : ∀ cls ∈ interface.classes, cls.MembersApart

instance (cls : Class) : Decidable cls.MembersApart :=
  decidable_of_iff
    ((cls.methods.map Method.name).Nodup ∧ (∀ method ∈ cls.methods, method.name ≠ cls.matlabName) ∧
      (cls.staticMethods.map StaticMethod.name).Nodup ∧
      (cls.constructors.map fun ctor => signature? ctor.args).Nodup)
    ⟨fun h => ⟨h.1, h.2.1, h.2.2.1, h.2.2.2⟩,
      fun h => ⟨h.methods, h.proxy, h.staticMethods, h.constructors⟩⟩

instance (interface : Interface) : Decidable interface.NamesApart :=
  decidable_of_iff
    ('/' ∉ interface.name.toList ∧
      (interface.classes.map fun cls => (cls.namespaces, cls.name)).Nodup ∧
      (∀ cls ∈ interface.classes, cls.HasPlainPath) ∧
      ∀ cls ∈ interface.classes, cls.MembersApart)
    ⟨fun h => ⟨h.1, h.2.1, h.2.2.1, h.2.2.2⟩,
      fun h => ⟨h.moduleName, h.classes, h.paths, h.members⟩⟩

/-! ## Files of functions -/

namespace GlueFunction

/-- The places of a function's files. -/
def places (function : GlueFunction) : List Location := [function.stubPlace, function.sourcePlace]

/-- What tells the files of functions apart. -/
def key (function : GlueFunction) : Location × String := (function.inside, function.name)

/-- A file of a function has its name, in the directory that the function is in. -/
theorem exists_eq_of_mem_places {function : GlueFunction} {place : Location}
    (member : place ∈ function.places) :
    ∃ ending, place = function.inside ++ [function.name ++ ending] := by
  simp only [places, List.mem_cons, List.not_mem_nil, or_false] at member
  rcases member with rfl | rfl
  · exact ⟨".m", rfl⟩
  · exact ⟨".cpp", rfl⟩

theorem stubPlace_ne_sourcePlace (function other : GlueFunction) :
    function.stubPlace ≠ other.sourcePlace := by
  intro same
  have files := List.singleton_inj.mp (List.append_inj' same rfl).2
  have last := congrArg (fun file => file.toList.getLast?) files
  simp at last

theorem key_eq_of_append {function other : GlueFunction} {ending : String}
    (same : function.inside ++ [function.name ++ ending] = other.inside ++ [other.name ++ ending]) :
    function.key = other.key := by
  obtain ⟨inside, files⟩ := List.append_inj' same rfl
  have names := (String.append_left_inj ending).mp (List.singleton_inj.mp files)
  rw [key, key, inside, names]

theorem key_eq_of_mem_places {function other : GlueFunction} {place : Location}
    (member : place ∈ function.places) (member' : place ∈ other.places) :
    function.key = other.key := by
  simp only [places, List.mem_cons, List.not_mem_nil, or_false] at member member'
  rcases member with rfl | rfl <;> rcases member' with same | same
  · exact key_eq_of_append same
  · exact absurd same (stubPlace_ne_sourcePlace function other)
  · exact absurd same.symm (stubPlace_ne_sourcePlace other function)
  · exact key_eq_of_append same

/-- Functions with different keys have different files. -/
theorem nodup_flatMap_places {functions : List GlueFunction}
    (apart : (functions.map key).Nodup) : (functions.flatMap places).Nodup := by
  refine List.nodup_flatMap.mpr ⟨fun function _ => ?_, ?_⟩
  · exact List.nodup_cons.mpr ⟨by simpa using stubPlace_ne_sourcePlace function function,
      List.nodup_singleton _⟩
  · refine (List.pairwise_map.mp apart).imp fun different => ?_
    exact List.disjoint_left.mpr fun place member member' =>
      different (key_eq_of_mem_places member member')

end GlueFunction

namespace Class

variable {cls : Class} {libraryNamespace : String}

/-- The places of all files of a class. -/
def places (libraryNamespace : String) (cls : Class) : List Location :=
  cls.proxyArtifact.place :: (cls.functions libraryNamespace).flatMap GlueFunction.places

theorem map_place_artifacts (libraryNamespace : String) (cls : Class) :
    (cls.artifacts libraryNamespace).map Artifact.place = cls.places libraryNamespace := by
  rw [artifacts, List.map_cons, List.map_flatMap]
  rfl

theorem constructorName_injective (h : cls.WellFormed) {ctor other : Constructor}
    (member : ctor ∈ cls.constructors) (member' : other ∈ cls.constructors)
    (same : cls.constructorName ctor = cls.constructorName other) :
    signature? ctor.args = signature? other.args := by
  obtain ⟨letters, signed, name⟩ := h.exists_constructorName_eq member
  obtain ⟨letters', signed', name'⟩ := h.exists_constructorName_eq member'
  rw [name, name', String.append_right_inj] at same
  rw [signed, signed', same]

/-- The functions in the toolbox directory have different names: no static method is called like a
constructor, since no class and no outermost namespace starts like one. -/
theorem nodup_outerFunctions (h : cls.WellFormed) (plain : cls.HasPlainPath)
    (apart : cls.MembersApart) :
    ((cls.outerFunctions libraryNamespace).map GlueFunction.key).Nodup := by
  rw [outerFunctions, List.map_append, List.map_map, List.map_map]
  refine List.nodup_append'.mpr ⟨?_, ?_, ?_⟩
  · refine List.Nodup.map_on ?_ (List.Nodup.of_map _ apart.constructors)
    intro ctor member other member' same
    exact List.inj_on_of_nodup_map apart.constructors member member'
      (constructorName_injective h member member' (congrArg Prod.snd same))
  · refine List.Nodup.map_on ?_ (List.Nodup.of_map _ apart.staticMethods)
    intro method member other member' same
    exact List.inj_on_of_nodup_map apart.staticMethods member member'
      ((String.append_right_inj _).mp (congrArg Prod.snd same))
  · refine List.disjoint_left.mpr fun key isConstructor isStatic => ?_
    obtain ⟨ctor, inClass, rfl⟩ := List.mem_map.mp isConstructor
    obtain ⟨method, -, same⟩ := List.mem_map.mp isStatic
    have names : cls.staticMethodName method = cls.constructorName ctor := congrArg Prod.snd same
    obtain ⟨rest, -, parts⟩ := h.exists_parts_constructorName plain inClass ""
    obtain ⟨rest', -, parts'⟩ := plain.exists_parts_staticMethodName method ""
    have notNew : (cls.namespaces ++ cls.name :: rest').head? ≠ some "new" :=
      h.head?_path (by decide) (fun outer first => (plain.outermost outer first).1) rest'
    rw [names, parts] at parts'
    exact notNew (parts' ▸ rfl)

theorem nodup_functions (h : cls.WellFormed) (plain : cls.HasPlainPath)
    (apart : cls.MembersApart) :
    ((cls.functions libraryNamespace).map GlueFunction.key).Nodup := by
  rw [functions, List.map_append]
  refine List.nodup_append'.mpr ⟨nodup_outerFunctions h plain apart, ?_, ?_⟩
  · rw [innerFunctions, List.map_map]
    refine List.Nodup.map_on ?_ (List.Nodup.of_map _ apart.methods)
    intro method member other member' same
    exact List.inj_on_of_nodup_map apart.methods member member' (congrArg Prod.snd same)
  · refine List.disjoint_left.mpr fun key isOuter isInner => ?_
    obtain ⟨outer, member, rfl⟩ := List.mem_map.mp isOuter
    obtain ⟨inner, member', same⟩ := List.mem_map.mp isInner
    have inside := congrArg Prod.fst same
    rw [GlueFunction.key, GlueFunction.key, (h.outerFunction_spec libraryNamespace member).2,
      (h.innerFunction_spec libraryNamespace member').2] at inside
    cases inside

/-- No function of a class has a file in the place of the proxy. -/
theorem proxy_not_mem_places (h : cls.WellFormed) (apart : cls.MembersApart) :
    cls.proxyArtifact.place ∉ (cls.functions libraryNamespace).flatMap GlueFunction.places := by
  intro member
  obtain ⟨function, inClass, isPlace⟩ := List.mem_flatMap.mp member
  simp only [GlueFunction.places, GlueFunction.stubPlace, GlueFunction.sourcePlace,
    proxyArtifact, List.mem_cons, List.not_mem_nil, or_false] at isPlace
  rcases List.mem_append.mp inClass with outer | inner
  · rw [(h.outerFunction_spec libraryNamespace outer).2] at isPlace
    simp at isPlace
  · obtain ⟨method, inMethods, rfl⟩ := List.mem_map.mp inner
    have notSource : cls.matlabName ++ ".m" ≠ method.name ++ ".cpp" := fun same => by
      have last := congrArg (fun file => file.toList.getLast?) same
      simp at last
    have notStub : cls.matlabName ++ ".m" ≠ method.name ++ ".m" := fun same =>
      apart.proxy method inMethods ((String.append_left_inj _).mp same).symm
    simp [methodFunction, notSource, notStub] at isPlace

theorem nodup_places (h : cls.WellFormed) (plain : cls.HasPlainPath) (apart : cls.MembersApart) :
    (cls.places libraryNamespace).Nodup :=
  List.nodup_cons.mpr ⟨proxy_not_mem_places h apart,
    GlueFunction.nodup_flatMap_places (nodup_functions h plain apart)⟩

/-- A file of a class is for that class. -/
theorem ownerOf_of_mem_places (h : cls.WellFormed) (plain : cls.HasPlainPath) {place : Location}
    (member : place ∈ cls.places libraryNamespace) :
    ownerOf place = (cls.namespaces, some cls.name) := by
  rcases List.mem_cons.mp member with rfl | ofFunction
  · exact h.ownerOf_directory plain _
  · obtain ⟨function, inClass, isPlace⟩ := List.mem_flatMap.mp ofFunction
    obtain ⟨ending, rfl⟩ := GlueFunction.exists_eq_of_mem_places isPlace
    rcases List.mem_append.mp inClass with outer | inner
    · rw [(h.outerFunction_spec libraryNamespace outer).2]
      exact h.ownerOf_outerFunction plain outer ending
    · rw [(h.innerFunction_spec libraryNamespace inner).2]
      exact h.ownerOf_directory plain _

/-- A make script starts with a word that no class and no outermost namespace is called. -/
theorem outerFile_ne_script (h : cls.WellFormed) (plain : cls.HasPlainPath) {function : GlueFunction}
    (member : function ∈ cls.outerFunctions libraryNamespace) (ending moduleName : String) :
    function.name ++ ending ≠ "make_" ++ moduleName ++ ".m" := by
  intro same
  obtain ⟨rest, -, parts⟩ := h.exists_parts_outerFunction plain member ending
  have script : Text.parts '_' ("make_" ++ moduleName ++ ".m") =
      "make" :: Text.parts '_' (moduleName ++ ".m") := by
    have split : "make_" ++ moduleName ++ ".m" = "make" ++ "_" ++ (moduleName ++ ".m") := by
      simp [← String.toList_inj]
    rw [split, Text.parts_append_of_not_mem rfl (by decide)]
  rw [same, script] at parts
  rcases parts with new | path
  · exact absurd (List.cons.inj new).1 (by decide)
  · exact h.head?_path (by decide) (fun outer first => (plain.outermost outer first).2) rest
      (path ▸ rfl)

/-- The name of the Makefile is a single part. -/
theorem outerFile_ne_makefile (h : cls.WellFormed) (plain : cls.HasPlainPath)
    {function : GlueFunction} (member : function ∈ cls.outerFunctions libraryNamespace)
    (ending : String) : function.name ++ ending ≠ "Makefile" := by
  intro same
  obtain ⟨rest, more, parts⟩ := h.exists_parts_outerFunction plain member ending
  have makefile : Text.parts '_' "Makefile" = ["Makefile"] := Text.parts_of_not_mem (by decide)
  have size := List.length_pos_of_ne_nil more
  rw [same, makefile] at parts
  rcases parts with new | path
  · have lengths := congrArg List.length new
    simp at lengths
  · have lengths := congrArg List.length path
    simp only [List.length_append, List.length_cons, List.length_nil] at lengths
    omega

/-- No file of a class has the place of a file that a toolbox has anyway. -/
theorem ne_of_mem_places (h : cls.WellFormed) (plain : cls.HasPlainPath) {place : Location}
    (member : place ∈ cls.places libraryNamespace) (moduleName : String) :
    place ≠ ["make_" ++ moduleName ++ ".m"] ∧ place ≠ ["Makefile"] := by
  rcases List.mem_cons.mp member with rfl | ofFunction
  · simp [proxyArtifact]
  · obtain ⟨function, inClass, isPlace⟩ := List.mem_flatMap.mp ofFunction
    obtain ⟨ending, rfl⟩ := GlueFunction.exists_eq_of_mem_places isPlace
    rcases List.mem_append.mp inClass with outer | inner
    · rw [(h.outerFunction_spec libraryNamespace outer).2, List.nil_append, ne_eq, ne_eq,
        List.singleton_inj, List.singleton_inj]
      exact ⟨outerFile_ne_script h plain outer ending moduleName,
        outerFile_ne_makefile h plain outer ending⟩
    · rw [(h.innerFunction_spec libraryNamespace inner).2]
      simp

end Class

/-- The files of all classes have different places, and none is in that of the make script or the
Makefile. -/
theorem Interface.NamesApart.nodup_places {interface : Interface} (apart : interface.NamesApart)
    (wellFormed : interface.WellFormed) (libraryNamespace : String) :
    (["make_" ++ interface.name ++ ".m"] :: ["Makefile"] ::
      interface.classes.flatMap (Class.places libraryNamespace)).Nodup := by
  have elsewhere {place : Location}
      (member : place ∈ interface.classes.flatMap (Class.places libraryNamespace)) :
      place ≠ ["make_" ++ interface.name ++ ".m"] ∧ place ≠ ["Makefile"] := by
    obtain ⟨cls, inClasses, isPlace⟩ := List.mem_flatMap.mp member
    exact Class.ne_of_mem_places (wellFormed cls inClasses) (apart.paths cls inClasses) isPlace
      interface.name
  have script : "make_" ++ interface.name ++ ".m" ≠ "Makefile" := fun same => by
    have first := congrArg (fun file => file.toList.head?) same
    simp at first
  refine List.nodup_cons.mpr ⟨?_, List.nodup_cons.mpr ⟨fun member => (elsewhere member).2 rfl, ?_⟩⟩
  · rw [List.mem_cons, not_or]
    exact ⟨by simpa using script, fun member => (elsewhere member).1 rfl⟩
  · refine List.nodup_flatMap.mpr ⟨fun cls member => Class.nodup_places (wellFormed cls member)
      (apart.paths cls member) (apart.members cls member), ?_⟩
    refine (List.pairwise_map.mp apart.classes).imp_of_mem fun {cls other} member member' different =>
      List.disjoint_left.mpr fun place isPlace isPlace' => different ?_
    have owner := Class.ownerOf_of_mem_places (wellFormed cls member) (apart.paths cls member) isPlace
    rw [Class.ownerOf_of_mem_places (wellFormed other member') (apart.paths other member') isPlace']
      at owner
    obtain ⟨namespaces, name⟩ := Prod.mk.inj owner
    rw [namespaces, Option.some.inj name]

end MexGlue
