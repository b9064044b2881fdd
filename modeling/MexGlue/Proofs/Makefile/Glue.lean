import MexGlue.Proofs.Makefile.Rules
import MexGlue.Proofs.Toolbox.Sections

/-!
# What the Makefile of a toolbox builds

The Makefile of a completed run, read rule by rule, has one rule for the C++ file of each function,
in the order in which the run wrote them, and a rule for each class that needs what the class's
functions are compiled to. So what it builds is the written glue: nothing is missing, and nothing that
it names was not written.
-/

namespace MexGlue

/-! ## Targets -/

theorem isBlank_of_isWordChar {c : Char} (h : Pattern.isWordChar c = true) :
    Text.isBlank c = false := by
  have range : 0x30 ≤ c.toNat ∧ c.toNat ≤ 0x7A := by
    change ((((decide (c.val ≥ 'A'.val ∧ c.val ≤ 'Z'.val) ||
      (decide (c.val ≥ 'a'.val) && decide (c.val ≤ 'z'.val))) ||
      (decide (c.val ≥ '0'.val) && decide (c.val ≤ '9'.val))) || c == '_') = true) at h
    simp only [Bool.or_eq_true, Bool.and_eq_true, decide_eq_true_eq, beq_iff_eq,
      UInt32.le_iff_toNat_le, ge_iff_le] at h
    rcases h with ((⟨low, high⟩ | ⟨low, high⟩) | ⟨low, high⟩) | rfl
    · exact ⟨Nat.le_trans (by decide) low, Nat.le_trans high (by decide)⟩
    · exact ⟨Nat.le_trans (by decide) low, Nat.le_trans high (by decide)⟩
    · exact ⟨low, Nat.le_trans high (by decide)⟩
    · decide
  obtain ⟨low, high⟩ := range
  rw [Bool.eq_false_iff]
  intro blank
  simp only [Text.isBlank, Text.blankRanges, List.any_cons, List.any_nil, Bool.or_eq_true,
    Bool.and_eq_true, decide_eq_true_eq, Bool.false_eq_true, or_false] at blank
  omega

theorem isPlain_of_isWordChar {c : Char} (h : Pattern.isWordChar c = true) :
    Makefile.isMark c = false ∧ Text.isBlank c = false := by
  refine ⟨Bool.eq_false_iff.mpr fun mark => ?_, isBlank_of_isWordChar h⟩
  simp only [Makefile.isMark, Bool.or_eq_true, beq_iff_eq] at mark
  rcases mark with (rfl | rfl) | rfl <;> exact absurd h (by decide)

theorem IsStem.isPlain {name : String} (h : IsStem name) : Makefile.IsPlain name :=
  ⟨h.nonempty, fun c member => isPlain_of_isWordChar (h.word c member)⟩

section Targets

variable {cls : Class} {libraryNamespace : String} {function : GlueFunction}

theorem GlueFunction.target_append_cpp (function : GlueFunction) :
    function.target ++ ".cpp" = "/".intercalate function.sourcePlace := by
  by_cases single : function.inside = []
  · simp [target, sourcePlace, single]
  · rw [target, sourcePlace, String.intercalate_append_of_ne_nil single (List.cons_ne_nil _ _),
      String.intercalate_append_of_ne_nil single (List.cons_ne_nil _ _)]
    simp [String.append_assoc]

namespace Class.WellFormed

/-- The C++ file of a function, named inside the toolbox, is the one that is written. -/
theorem join_source (h : cls.WellFormed) (member : function ∈ cls.functions libraryNamespace)
    (directory : Path) :
    (directory.join (function.target ++ ".cpp")).location =
      directory.location ++ function.sourcePlace := by
  obtain ⟨stem, inside⟩ := h.function_spec libraryNamespace member
  have file : IsComponent (function.name ++ ".cpp") := stem.isComponent (by decide)
  have components : ∀ name ∈ function.sourcePlace, IsComponent name := by
    rw [GlueFunction.sourcePlace]
    rcases inside with outer | inner
    · simp [outer, file]
    · simp [inner, file, h.isComponent_directory]
  rw [GlueFunction.target_append_cpp, Path.join_intercalate components (by
    simp [GlueFunction.sourcePlace]),
    Path.location_below fun name member => (components name member).goesDown]

theorem isPlain_target (h : cls.WellFormed) (member : function ∈ cls.functions libraryNamespace) :
    Makefile.IsPlain function.target := by
  obtain ⟨stem, inside⟩ := h.function_spec libraryNamespace member
  rcases inside with outer | inner
  · simpa [GlueFunction.target, outer] using stem.isPlain
  · have plain : ∀ c ∈ (cls.matlabName ++ "/" ++ function.name).toList,
        Makefile.isMark c = false ∧ Text.isBlank c = false := by
      simp only [String.toList_append, List.forall_mem_append]
      exact ⟨⟨h.isStem_matlabName.isPlain.plain, Makefile.plain_of_all rfl⟩, stem.isPlain.plain⟩
    have target : function.target = "@" ++ (cls.matlabName ++ "/" ++ function.name) := by
      rw [GlueFunction.target, inner, Class.directory]
      simp [String.append_assoc]
    rw [target]
    exact Makefile.IsPlain.append ⟨by decide, Makefile.plain_of_all rfl⟩ plain

end Class.WellFormed

end Targets

/-! ## The rules -/

namespace Makefile

/-- The rule that compiles a function. -/
def Rule.ofTarget (target : String) : Rule where
  target := product target
  prerequisites := [target ++ ".cpp"]
  recipe := ["$(MEX) $(mex_flags) " ++ target ++ ".cpp -output " ++ target]

/-- The rule of a class, which needs all that is compiled for it. -/
def Rule.ofClass (cls : Class) (targets : List String) : Rule where
  target := cls.matlabName
  prerequisites := targets.map product

def Rule.all (classes : List Class) : Rule where
  target := "all"
  prerequisites := classes.map Class.matlabName

/-- The rule that removes what is compiled, from the toolbox directory and from that of each
class. -/
def Rule.clean (classes : List Class) : Rule where
  target := "clean"
  recipe := "rm -rf *.$(MEXENDING)" ::
    classes.map fun cls => "rm -rf " ++ cls.directory ++ "/*.$(MEXENDING)"

section Gives

variable {target : String}

theorem IsPlain.product (h : IsPlain target) : IsPlain (product target) :=
  h.append (plain_of_all rfl)

theorem gives_rule (h : IsPlain target) : Gives (Text.unlines (rule target)) [.ofTarget target] := by
  have free : '\n' ∉ target.toList := h.not_mem_of_isBlank rfl
  have source : IsPlain (target ++ ".cpp") := h.append (plain_of_all rfl)
  have head : Line.ofText (Makefile.product target ++ ": " ++ target ++ ".cpp") =
      .head (Makefile.product target) [target ++ ".cpp"] := by
    have line : Makefile.product target ++ ": " ++ target ++ ".cpp" =
        Makefile.product target ++ ":" ++ (" " ++ (target ++ ".cpp")) := by
      simp [← String.toList_inj]
    rw [line, Line.ofText_head h.product, Text.words_blank_append, source.isUnbroken.words]
  have command : Line.ofText ("\t$(MEX) $(mex_flags) " ++ target ++ ".cpp -output " ++ target) =
      .command ("$(MEX) $(mex_flags) " ++ target ++ ".cpp -output " ++ target) := by
    have line : "\t$(MEX) $(mex_flags) " ++ target ++ ".cpp -output " ++ target =
        "\t" ++ ("$(MEX) $(mex_flags) " ++ target ++ ".cpp -output " ++ target) := by
      simp [← String.toList_inj]
    rw [line, Line.ofText_command]
  refine ⟨rule target, ⟨rfl, ?_⟩, ?_⟩
  · simp [rule, Makefile.product, free]
  · rw [rule, List.map_cons, List.map_singleton, head, command]
    exact reads_rule _ _ ["$(MEX) $(mex_flags) " ++ target ++ ".cpp -output " ++ target]

theorem not_mem_trimmedHead {names : List String} (h : IsPlain target)
    (plain : ∀ name ∈ names, IsPlain name) :
    '\n' ∉ (Text.trimEnd (target ++ ": " ++ " ".intercalate names)).toList := by
  apply Text.not_mem_trimEnd
  rw [String.toList_append, String.toList_append, List.mem_append, List.mem_append, not_or, not_or]
  refine ⟨⟨h.not_mem_of_isBlank rfl, by decide⟩, Text.not_mem_intercalate (by decide) ?_⟩
  exact fun name member => (plain name member).not_mem_of_isBlank rfl

theorem gives_header {mexExtension mexFlags : String} {classes : List Class}
    (extensionLine : '\n' ∉ mexExtension.toList) (flagsLine : '\n' ∉ mexFlags.toList)
    (plain : ∀ cls ∈ classes, IsPlain cls.matlabName) :
    Gives (header mexExtension mexFlags classes) [.all classes] := by
  have all : IsPlain "all" := ⟨by decide, plain_of_all rfl⟩
  have names : ∀ name ∈ classes.map Class.matlabName, IsPlain name := List.forall_mem_map.mpr plain
  have extension : Line.ofText ("MEXENDING = " ++ mexExtension) = .setting := by
    rw [Line.ofText, String.toList_append]
    rfl
  have flags : Line.ofText ("mex_flags = " ++ mexFlags) = .setting := by
    rw [Line.ofText, String.toList_append]
    rfl
  have spelled : "all: " = "all" ++ ": " := rfl
  rw [header, spelled]
  refine ⟨_, ⟨rfl, ?_⟩, ?_⟩
  · have allLine := not_mem_trimmedHead all names
    simp only [List.forall_mem_cons, String.toList_append, List.mem_append, not_or]
    exact ⟨by decide, by decide, by decide, ⟨by decide, extensionLine⟩, ⟨by decide, flagsLine⟩,
      by decide, allLine, by decide, List.forall_mem_nil _⟩
  · have settings : Reads [.gap, .gap, .setting, .setting, .setting, .gap] [] :=
      reads_gap.append (reads_gap.append (reads_setting.append (reads_setting.append
        (reads_setting.append reads_gap))))
    simp only [List.map_cons, List.map_nil, Line.ofText_comment, extension, flags,
      Line.ofText_trimmedHead all names]
    exact settings.append ((reads_rule "all" _ []).append reads_gap)

theorem gives_section {cls : Class} {targets : List String} (found : cls.targets? = some targets)
    (name : IsPlain cls.matlabName) (plain : ∀ target ∈ targets, IsPlain target) :
    Gives cls.makefileSection (targets.map Rule.ofTarget ++ [.ofClass cls targets]) := by
  have products : ∀ product ∈ targets.map Makefile.product, IsPlain product :=
    List.forall_mem_map.mpr fun target member => (plain target member).product
  have title : Gives (sectionTitle cls) [] := by
    refine ⟨["# " ++ cls.matlabName], ⟨by simp [sectionTitle], ?_⟩, ?_⟩
    · simp [name.not_mem_of_isBlank (c := '\n') rfl]
    · simpa using reads_gap
  have compiling : Gives (Text.unlines (targets.flatMap rule)) (targets.map Rule.ofTarget) := by
    rw [Text.unlines_flatMap, List.map_eq_flatMap (f := Rule.ofTarget)]
    exact gives_join fun target member => gives_rule (plain target member)
  have ending : Gives (Text.unlines ["", Text.trimEnd
      (cls.matlabName ++ ": " ++ " ".intercalate (targets.map Makefile.product)), ""])
      [.ofClass cls targets] := by
    refine ⟨_, ⟨rfl, ?_⟩, ?_⟩
    · simpa using not_mem_trimmedHead name products
    · simp only [List.map_cons, List.map_nil, Line.ofText_trimmedHead name products]
      exact reads_gap.append ((reads_rule _ _ []).append reads_gap)
  rw [Class.makefileSection, Class.rules?, found, Option.map_some, Option.getD_some,
    Text.unlines_append]
  exact title.append (compiling.append ending)

theorem gives_cleanRule {classes : List Class} (plain : ∀ cls ∈ classes, IsPlain cls.matlabName) :
    Gives (cleanRule classes) [.clean classes] := by
  have clean : IsPlain "clean" := ⟨by decide, plain_of_all rfl⟩
  have head : Line.ofText "clean:" = .head "clean" [] := Line.ofText_head clean ""
  have root : Line.ofText "\trm -rf *.$(MEXENDING)" = .command "rm -rf *.$(MEXENDING)" :=
    Line.ofText_command "rm -rf *.$(MEXENDING)"
  have inside : ∀ cls : Class, Line.ofText ("\trm -rf " ++ cls.directory ++ "/*.$(MEXENDING)") =
      .command ("rm -rf " ++ cls.directory ++ "/*.$(MEXENDING)") := by
    intro cls
    have line : "\trm -rf " ++ cls.directory ++ "/*.$(MEXENDING)" =
        "\t" ++ ("rm -rf " ++ cls.directory ++ "/*.$(MEXENDING)") := by
      simp [← String.toList_inj]
    rw [line, Line.ofText_command]
  refine ⟨_, ⟨rfl, ?_⟩, ?_⟩
  · have free : ∀ cls ∈ classes, '\n' ∉ cls.matlabName.toList := fun cls member =>
      (plain cls member).not_mem_of_isBlank rfl
    simpa [Class.directory] using free
  · have lines := reads_gap.append
      (reads_rule "clean" [] ("rm -rf *.$(MEXENDING)" ::
        classes.map fun cls => "rm -rf " ++ cls.directory ++ "/*.$(MEXENDING)"))
    simpa [head, root, inside, Function.comp_def, Rule.clean] using lines

end Gives

end Makefile

end MexGlue
