import MexGlue.Proofs.Makefile.Glue

/-!
# The Makefile builds exactly the written glue

The Makefile of a completed run, read rule by rule, names all classes behind its first target, has a
rule for each of them, and these rules need what the C++ files that the run wrote are compiled to, in
the order of writing. Each of these has one rule, and what is compiled is removed again.
-/

namespace MexGlue

namespace Makefile

/-! ## What rules build -/

/-- The names behind a target, in all of its rules. -/
def prerequisitesOf (rules : List Rule) (target : String) : List String :=
  (rules.filter fun rule => rule.target = target).flatMap Rule.prerequisites

/-- The rules of what is named behind the first target. -/
def classRules (rules : List Rule) : List Rule :=
  rules.filter fun rule => rule.target ∈ prerequisitesOf rules "all"

/-- The C++ files that rules need, in the order of the rules. -/
def sourcesOf (rules : List Rule) : List String :=
  (rules.flatMap Rule.prerequisites).filter isSourceName

/-- Whether the rules of a Makefile compile exactly these C++ files of a toolbox with these classes,
which are named by what they are compiled to. -/
structure BuildsExactly (rules : List Rule) (directory : Path) (classes : List Class)
    (targets : List String) (files : List Location) : Prop where
  all : rules.filter (fun rule => rule.target = "all") = [.all classes]
  classRule : ∀ name ∈ prerequisitesOf rules "all", ∃ rule ∈ rules, rule.target = name
  products : (classRules rules).flatMap Rule.prerequisites = targets.map product
  unbroken : ∀ target ∈ targets, ' ' ∉ target.toList
  compiled : ∀ target ∈ targets, .ofTarget target ∈ rules
  compiledOnce : ∀ target ∈ targets, ∀ rule ∈ rules, rule.target = product target →
    rule = .ofTarget target
  sources : sourcesOf rules = targets.map (· ++ ".cpp")
  written : targets.map (fun target => (directory.join (target ++ ".cpp")).location) = files
  clean : rules.filter (fun rule => rule.target = "clean") = [.clean classes]
  /-- The directory in which a target lies is one of those that are cleaned. -/
  cleaned : ∀ target ∈ targets, ∃ inside name, target = inside ++ name ∧ '/' ∉ name.toList ∧
    "rm -rf " ++ inside ++ "*.$(MEXENDING)" ∈ (Rule.clean classes).recipe

end Makefile

/-! ## The rules of a toolbox -/

section Rules

variable (libraryNamespace : String)

/-- What is compiled for a class, as paths inside the toolbox. -/
def Class.targets (cls : Class) : List String :=
  (cls.functions libraryNamespace).map GlueFunction.target

/-- The rules of a class: one for each of its functions, and its own. -/
def Class.makeRules (cls : Class) : List Makefile.Rule :=
  (cls.targets libraryNamespace).map .ofTarget ++ [.ofClass cls (cls.targets libraryNamespace)]

namespace Makefile

/-- The rules of a Makefile for these classes. -/
def rulesFor (classes : List Class) : List Rule :=
  .all classes :: (classes.flatMap (Class.makeRules libraryNamespace) ++ [.clean classes])

end Makefile

/-- All that a plan appends to the Makefile gives the rules for its classes. -/
theorem Toolbox.gives_makefile {toolbox : Toolbox} (wellFormed : toolbox.interface.WellFormed)
    (extensionLine : '\n' ∉ toolbox.options.mexExtension.toList)
    (flagsLine : '\n' ∉ toolbox.options.makefileFlags.toList) :
    Makefile.Gives (String.join (toolbox.plan.map Step.makefileText))
      (Makefile.rulesFor libraryNamespace toolbox.interface.classes) := by
  have names : ∀ cls ∈ toolbox.interface.classes, Makefile.IsPlain cls.matlabName :=
    fun cls member => (wellFormed cls member).isStem_matlabName.isPlain
  have sections : Makefile.Gives
      (String.join (toolbox.interface.classes.map Class.makefileSection))
      (toolbox.interface.classes.flatMap (Class.makeRules libraryNamespace)) := by
    refine Makefile.gives_join fun cls member => Makefile.gives_section
      ((wellFormed cls member).namesConstructorTypes.targets? libraryNamespace) (names cls member) ?_
    exact List.forall_mem_map.mpr fun function inClass =>
      (wellFormed cls member).isPlain_target inClass
  rw [join_makefileText_plan, String.append_assoc]
  exact (Makefile.gives_header extensionLine flagsLine names).append
    (sections.append (Makefile.gives_cleanRule names))

end Rules

/-! ## Which rule has which target -/

namespace Makefile

section Rules

variable {libraryNamespace : String} {classes : List Class} {cls : Class}

theorem dot_mem_product (target : String) : '.' ∈ (product target).toList := by
  simp [product]

theorem product_injective {target other : String} (h : product target = product other) :
    target = other := by
  simpa [product] using h

/-- No class has the name of another target: its name has a capital letter and no dot. -/
theorem matlabName_spec (h : cls.WellFormed) :
    '.' ∉ cls.matlabName.toList ∧ cls.matlabName ≠ "all" ∧ cls.matlabName ≠ "clean" := by
  have capital : cls.matlabName.toList.any Char.isUpper = true := by
    obtain ⟨c, rest, spelled, upper, -⟩ := h.name.1
    obtain ⟨front, qualified⟩ := exists_qualify_eq_append "_" cls.namespaces cls.name
    refine List.any_eq_true.mpr ⟨c, ?_, upper⟩
    rw [Class.matlabName, Class.qualifiedName, qualified, String.toList_append, spelled]
    simp
  refine ⟨h.isStem_matlabName.word.not_mem rfl, fun same => ?_, fun same => ?_⟩
  · rw [same] at capital
    exact absurd capital (by decide)
  · rw [same] at capital
    exact absurd capital (by decide)

/-- Apart from the first and the last rule, only those of the classes have a target without a
dot. -/
theorem filter_makeRules (libraryNamespace : String) (classes : List Class) {selects : String → Bool}
    (undotted : ∀ name, selects name = true → '.' ∉ name.toList) :
    (classes.flatMap (Class.makeRules libraryNamespace)).filter (fun rule => selects rule.target) =
      (classes.filter fun cls => selects cls.matlabName).map fun cls =>
        .ofClass cls (cls.targets libraryNamespace) := by
  induction classes with
  | nil => rfl
  | cons cls classes ih =>
      have compiling : ((cls.targets libraryNamespace).map Rule.ofTarget).filter
          (fun rule => selects rule.target) = [] := by
        refine List.filter_eq_nil_iff.mpr (List.forall_mem_map.mpr fun target _ => ?_)
        exact fun selected => undotted _ selected (dot_mem_product target)
      have target : (Rule.ofClass cls (cls.targets libraryNamespace)).target = cls.matlabName := rfl
      rw [List.flatMap_cons, List.filter_append, ih, Class.makeRules, List.filter_append, compiling,
        List.nil_append, List.filter_cons, List.filter_cons, target]
      cases selects cls.matlabName <;> rfl

theorem filter_makeRules_eq_nil {name : String} (undotted : '.' ∉ name.toList)
    (other : ∀ cls ∈ classes, cls.matlabName ≠ name) :
    (classes.flatMap (Class.makeRules libraryNamespace)).filter (fun rule => rule.target = name) =
      [] := by
  have none : classes.filter (fun cls => cls.matlabName = name) = [] :=
    List.filter_eq_nil_iff.mpr fun cls member same => other cls member (of_decide_eq_true same)
  have only : ∀ target, decide (target = name) = true → '.' ∉ target.toList := fun target same =>
    of_decide_eq_true same ▸ undotted
  have middle := filter_makeRules libraryNamespace classes only
  rw [none] at middle
  exact middle

variable (wellFormed : ∀ cls ∈ classes, cls.WellFormed)

include wellFormed

theorem filter_all :
    (rulesFor libraryNamespace classes).filter (fun rule => rule.target = "all") =
      [.all classes] := by
  rw [rulesFor, List.filter_cons_of_pos (by rfl), List.filter_append,
    filter_makeRules_eq_nil (by decide) fun cls member => (matlabName_spec (wellFormed cls member)).2.1]
  rfl

theorem filter_clean :
    (rulesFor libraryNamespace classes).filter (fun rule => rule.target = "clean") =
      [.clean classes] := by
  rw [rulesFor, List.filter_cons_of_neg (by simp [Rule.all]), List.filter_append,
    filter_makeRules_eq_nil (by decide) fun cls member => (matlabName_spec (wellFormed cls member)).2.2]
  rfl

theorem prerequisitesOf_all :
    prerequisitesOf (rulesFor libraryNamespace classes) "all" = classes.map Class.matlabName := by
  rw [prerequisitesOf, filter_all wellFormed, List.flatMap_singleton]
  rfl

theorem classRules_rulesFor :
    classRules (rulesFor libraryNamespace classes) =
      classes.map fun cls => .ofClass cls (cls.targets libraryNamespace) := by
  have names : ∀ name ∈ classes.map Class.matlabName,
      '.' ∉ name.toList ∧ name ≠ "all" ∧ name ≠ "clean" :=
    List.forall_mem_map.mpr fun cls member => matlabName_spec (wellFormed cls member)
  have undotted : ∀ name, decide (name ∈ classes.map Class.matlabName) = true →
      '.' ∉ name.toList := fun name selected => (names name (of_decide_eq_true selected)).1
  have middle := filter_makeRules libraryNamespace classes undotted
  have every : classes.filter (fun cls => cls.matlabName ∈ classes.map Class.matlabName) =
      classes :=
    List.filter_eq_self.mpr fun cls member => decide_eq_true (List.mem_map_of_mem member)
  have notAll : "all" ∉ classes.map Class.matlabName := fun member => (names _ member).2.1 rfl
  have notClean : "clean" ∉ classes.map Class.matlabName := fun member => (names _ member).2.2 rfl
  rw [every] at middle
  rw [classRules, prerequisitesOf_all wellFormed, rulesFor,
    List.filter_cons_of_neg (by simpa [Rule.all] using notAll), List.filter_append, middle,
    List.filter_cons_of_neg (by simpa [Rule.clean] using notClean)]
  exact List.append_nil _

/-- The C++ files that the rules need are those of the functions. -/
theorem sourcesOf_rulesFor :
    sourcesOf (rulesFor libraryNamespace classes) =
      (classes.flatMap (Class.targets libraryNamespace)).map (· ++ ".cpp") := by
  have ofAll : (Rule.all classes).prerequisites.filter isSourceName = [] := by
    refine List.filter_eq_nil_iff.mpr (List.forall_mem_map.mpr fun cls member source => ?_)
    have dot := (List.isSuffixOf_iff_suffix.mp source).subset (by decide : '.' ∈ ".cpp".toList)
    exact (matlabName_spec (wellFormed cls member)).1 dot
  have ofClass : ∀ cls : Class,
      ((cls.makeRules libraryNamespace).flatMap Rule.prerequisites).filter isSourceName =
        (cls.targets libraryNamespace).map (· ++ ".cpp") := by
    intro cls
    have sources : ((cls.targets libraryNamespace).map (· ++ ".cpp")).filter isSourceName =
        (cls.targets libraryNamespace).map (· ++ ".cpp") :=
      List.filter_eq_self.mpr (List.forall_mem_map.mpr fun target _ => isSourceName_cpp target)
    have products : ((cls.targets libraryNamespace).map product).filter isSourceName = [] := by
      refine List.filter_eq_nil_iff.mpr (List.forall_mem_map.mpr fun target _ source => ?_)
      obtain ⟨front, same⟩ := List.isSuffixOf_iff_suffix.mp source
      have last := congrArg List.getLast? same
      simp [product] at last
    rw [Class.makeRules, List.flatMap_append, List.flatMap_map, List.flatMap_singleton,
      List.filter_append]
    have compiling : ((cls.targets libraryNamespace).flatMap fun target =>
        (Rule.ofTarget target).prerequisites) = (cls.targets libraryNamespace).map (· ++ ".cpp") :=
      (List.map_eq_flatMap).symm
    rw [compiling, sources, Rule.ofClass, products, List.append_nil]
  rw [sourcesOf, rulesFor]
  simp only [List.flatMap_cons, List.flatMap_append, List.flatMap_assoc, List.filter_append,
    List.filter_flatMap, ofAll, ofClass, List.map_flatMap]
  simp [Rule.clean]

omit wellFormed in
theorem ofTarget_mem_rulesFor {target : String}
    (member : target ∈ classes.flatMap (Class.targets libraryNamespace)) :
    .ofTarget target ∈ rulesFor libraryNamespace classes := by
  obtain ⟨cls, inClasses, inTargets⟩ := List.mem_flatMap.mp member
  refine List.mem_cons_of_mem _ (List.mem_append_left _ (List.mem_flatMap.mpr ⟨cls, inClasses, ?_⟩))
  exact List.mem_append_left _ (List.mem_map_of_mem inTargets)

theorem eq_ofTarget_of_mem_rulesFor {target : String} {rule : Rule}
    (member : rule ∈ rulesFor libraryNamespace classes) (same : rule.target = product target) :
    rule = .ofTarget target := by
  have dot : '.' ∈ rule.target.toList := same ▸ dot_mem_product target
  rcases List.mem_cons.mp member with rfl | behind
  · exact absurd dot (by simp [Rule.all])
  rcases List.mem_append.mp behind with ofClasses | last
  · obtain ⟨cls, inClasses, inRules⟩ := List.mem_flatMap.mp ofClasses
    rcases List.mem_append.mp inRules with compiling | own
    · obtain ⟨other, -, rfl⟩ := List.mem_map.mp compiling
      rw [product_injective same]
    · rw [List.mem_singleton.mp own] at dot
      exact absurd dot (matlabName_spec (wellFormed cls inClasses)).1
  · rw [List.mem_singleton.mp last] at dot
    exact absurd dot (by simp [Rule.clean])

/-- What is compiled lies in a directory that is cleaned. -/
theorem exists_cleaned {target : String}
    (member : target ∈ classes.flatMap (Class.targets libraryNamespace)) :
    ∃ inside name, target = inside ++ name ∧ '/' ∉ name.toList ∧
      "rm -rf " ++ inside ++ "*.$(MEXENDING)" ∈ (Rule.clean classes).recipe := by
  obtain ⟨cls, inClasses, inTargets⟩ := List.mem_flatMap.mp member
  obtain ⟨function, inClass, rfl⟩ := List.mem_map.mp inTargets
  obtain ⟨stem, inside⟩ := (wellFormed cls inClasses).function_spec libraryNamespace inClass
  have noSlash : '/' ∉ function.name.toList := stem.word.not_mem rfl
  rcases inside with outer | inner
  · exact ⟨"", function.name, by simp [GlueFunction.target, outer], noSlash, List.mem_cons_self⟩
  · refine ⟨cls.directory ++ "/", function.name, by simp [GlueFunction.target, inner], noSlash, ?_⟩
    have command : "rm -rf " ++ (cls.directory ++ "/") ++ "*.$(MEXENDING)" =
        "rm -rf " ++ cls.directory ++ "/*.$(MEXENDING)" := by
      simp [← String.toList_inj]
    rw [command]
    exact List.mem_cons_of_mem _ (List.mem_map_of_mem inClasses)

theorem buildsExactly_rulesFor (directory : Path) :
    BuildsExactly (rulesFor libraryNamespace classes) directory classes
      (classes.flatMap (Class.targets libraryNamespace))
      (classes.flatMap fun cls => (cls.functions libraryNamespace).map fun function =>
        directory.location ++ function.sourcePlace) where
  all := filter_all wellFormed
  classRule := by
    rw [prerequisitesOf_all wellFormed]
    refine List.forall_mem_map.mpr fun cls member => ?_
    refine ⟨.ofClass cls (cls.targets libraryNamespace), ?_, rfl⟩
    refine List.mem_cons_of_mem _ (List.mem_append_left _ (List.mem_flatMap.mpr ⟨cls, member, ?_⟩))
    exact List.mem_append_right _ (List.mem_singleton_self _)
  products := by
    rw [classRules_rulesFor wellFormed, List.flatMap_map, List.map_flatMap]
    rfl
  unbroken target member := by
    obtain ⟨cls, inClasses, inTargets⟩ := List.mem_flatMap.mp member
    obtain ⟨function, inClass, rfl⟩ := List.mem_map.mp inTargets
    exact ((wellFormed cls inClasses).isPlain_target inClass).isUnbroken.noBlank
  compiled _ member := ofTarget_mem_rulesFor member
  compiledOnce _ _ _ member same := eq_ofTarget_of_mem_rulesFor wellFormed member same
  sources := sourcesOf_rulesFor wellFormed
  written := by
    rw [List.map_flatMap]
    refine List.flatMap_congr fun cls inClasses => ?_
    rw [Class.targets, List.map_map]
    exact List.map_congr_left fun function inClass =>
      (wellFormed cls inClasses).join_source inClass directory
  clean := filter_clean wellFormed
  cleaned _ member := exists_cleaned wellFormed member

end Rules

end Makefile

/-! ## Completed runs -/

namespace Toolbox

variable {toolbox : Toolbox} {disk : Disk}

/-- The Makefile that a completed run leaves builds exactly the C++ files that the run wrote. -/
theorem generate_makefile_buildsExactly {name text : String} {verbose : Bool}
    (read : Interface.ofText name verbose text = .ok toolbox.interface)
    (extensionLine : '\n' ∉ toolbox.options.mexExtension.toList)
    (flagsLine : '\n' ∉ toolbox.options.makefileFlags.toList)
    (completes : (toolbox.generate disk).failure = none) :
    ∃ content targets,
      (toolbox.generate disk).disk.find? toolbox.makefilePath.location =
        some (.file content.toUTF8) ∧
      Makefile.BuildsExactly (Makefile.readRules content) toolbox.directory
        toolbox.interface.classes targets (toolbox.writtenSources disk) := by
  have wellFormed := Interface.wellFormed_of_ofText read
  obtain ⟨start, reached, completed⟩ := exists_completes completes
  refine ⟨_, toolbox.interface.classes.flatMap (Class.targets toolbox.options.libraryNamespace),
    completed.find?_aggregate wellFormed .makefile (makefile_apart wellFormed), ?_⟩
  rw [Step.textFor, (gives_makefile toolbox.options.libraryNamespace wellFormed extensionLine
    flagsLine).readRules, writtenSources_of_completes completes wellFormed]
  exact Makefile.buildsExactly_rulesFor wellFormed toolbox.directory

/-- One class has two constructors with one name and members of all kinds, the other one has none. -/
theorem generate_makefile_buildsExactly_repeated : ∃ (toolbox : Toolbox) (disk : Disk),
    Interface.ofText "m" false
        "class A { A(); A(); void f(); static void F(); }; namespace n { class B { }; }///\\namespace" =
      .ok toolbox.interface ∧
    '\n' ∉ toolbox.options.mexExtension.toList ∧ '\n' ∉ toolbox.options.makefileFlags.toList ∧
    (toolbox.generate disk).failure = none ∧
    ∃ content targets,
      (toolbox.generate disk).disk.find? toolbox.makefilePath.location =
        some (.file content.toUTF8) ∧
      Makefile.BuildsExactly (Makefile.readRules content) toolbox.directory
        toolbox.interface.classes targets (toolbox.writtenSources disk) := by
  refine ⟨{
    directory := .ofText "out"
    interface := {
      name := "m"
      classes := [
        { name := "A"
          constructors := [⟨"A", []⟩, ⟨"A", []⟩]
          methods := [{ name := "f" }]
          staticMethods := [{ name := "F" }] },
        { name := "B", namespaces := ["n"] }] }
    options := { mexFlags := "-O -g" } },
    {}, ?read, ?extensionLine, ?flagsLine, ?completes,
    generate_makefile_buildsExactly ?read ?extensionLine ?flagsLine ?completes⟩
  all_goals decide +kernel

end Toolbox

end MexGlue
