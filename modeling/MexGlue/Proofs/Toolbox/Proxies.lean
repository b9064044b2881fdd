import MexGlue.Proofs.Glue.Closed
import MexGlue.Proofs.Glue.JoinedPaths
import MexGlue.Proofs.Text.Utf8

/-!
# Classes that have a proxy of their own

A class is known by its joined name wherever the other side meets it: as a directory, as a file, in
what a proxy asks for and in what a C++ file refers to. If no two classes share their name, all of
this is about one class each. What stands in the place of a proxy in the end was written there last,
and of the files that follow a proxy only the stub of a method that is called like it goes there.
-/

namespace MexGlue

theorem exists_last {α : Type} {holds : α → Prop} {xs : List α} (h : ∃ x ∈ xs, holds x) :
    ∃ front x back, xs = front ++ x :: back ∧ holds x ∧ ∀ y ∈ back, ¬ holds y := by
  induction xs with
  | nil => simp at h
  | cons first xs ih =>
      by_cases later : ∃ x ∈ xs, holds x
      · obtain ⟨front, x, back, rfl, here, last⟩ := ih later
        exact ⟨first :: front, x, back, rfl, here, last⟩
      · obtain ⟨x, member, here⟩ := h
        rcases List.mem_cons.mp member with rfl | behind
        · exact ⟨[], x, xs, rfl, here, fun y inLater found => later ⟨y, inLater, found⟩⟩
        · exact absurd ⟨x, behind, here⟩ later

namespace Class.WellFormed

variable {cls other : Class} {libraryNamespace : String} {artifact : Artifact}

/-! ## Texts that are no proxy -/

/-- A text is no proxy if its second line does not start like the declaration of a class. -/
theorem proxy_ne_of_lines (h : cls.WellFormed) {text first second : String} {rest : List String}
    (lines : Text.lines text = first :: second :: rest) (other : second.toList.head? ≠ some 'c') :
    cls.proxyArtifact.text ≠ text := by
  rintro rfl
  rw [h.lines_proxy] at lines
  have same : "classdef " ++ cls.matlabName = second := (List.cons.inj (List.cons.inj lines).2).1
  simp [← same] at other

theorem proxy_ne_methodStub (h : cls.WellFormed) (h' : other.WellFormed) {method : Method}
    (member : method ∈ other.methods) : cls.proxyArtifact.text ≠ method.stub := by
  have inner : other.methodFunction "" method ∈ other.functions "" :=
    List.mem_append_right _ (List.mem_map_of_mem member)
  obtain ⟨parameters, text, words⟩ := h'.exists_stub inner
  have stub : method.stub = stub method.name parameters := text
  rw [stub]
  exact h.proxy_ne_of_lines (lines_stub (h'.methods method member).1.isStem words) (by simp)

/-- The only line of a proxy that holds nothing is what stands behind the last line feed. -/
theorem nonempty_of_mem_dropLast_lines (h : cls.WellFormed) {line : String}
    (member : line ∈ (Text.lines cls.proxyArtifact.text).dropLast) : line ≠ "" := by
  have closed : closing cls = (closing cls).dropLast ++ [""] := rfl
  rw [h.lines_proxy, closed, ← List.append_assoc, List.dropLast_concat] at member
  rcases List.mem_append.mp member with inFront | inClosing
  · rcases List.mem_append.mp inFront with inOpening | dispatches
    · have nonempty : ∀ line ∈ opening cls, line ≠ "" := by simp [opening, banner]
      exact nonempty line inOpening
    · obtain ⟨ctor, inClass, rfl⟩ := List.mem_map.mp dispatches
      rw [h.dispatchLine_eq inClass]
      simp
  · have nonempty : ∀ line ∈ (closing cls).dropLast, line ≠ "" := by simp [closing]
    exact nonempty line inClosing

/-- Bytes in which one line feed follows another are no proxy. -/
theorem toUTF8_proxy_ne (h : cls.WellFormed) {content : ByteArray}
    (blankLine : [10, 10] <:+: content.data.toList) : cls.proxyArtifact.text.toUTF8 ≠ content := by
  rintro rfl
  obtain ⟨front, back, bytes⟩ := blankLine
  have encodes := Utf8.encodes_toUTF8 cls.proxyArtifact.text
  rw [← bytes, List.append_assoc, List.cons_append] at encodes
  obtain ⟨before, c, behind, text, -, rest, first⟩ := encodes.exists_cut (by decide)
  have rest : Utf8.Encodes ([] ++ 10 :: back) behind := rest
  obtain ⟨between, d, after, rfl, nothing, -, second⟩ := rest.exists_cut (by decide)
  obtain rfl : between = [] := nothing.unique .nil
  obtain rfl : c = '\n' := Char.toNat_inj.mp first
  obtain rfl : d = '\n' := Char.toNat_inj.mp second
  have lines : Text.lines cls.proxyArtifact.text =
      Text.lines (String.ofList before) ++ "" :: Text.lines (String.ofList after) := by
    have whole : cls.proxyArtifact.text =
        String.ofList before ++ "\n" ++ ("" ++ "\n" ++ String.ofList after) := by
      simp [← String.toList_inj, text]
    rw [whole, Text.lines, Text.parts_append rfl, Text.parts_append_of_not_mem rfl (by decide),
      Text.lines, Text.lines]
  have more : Text.lines (String.ofList after) ≠ [] := Text.parts_ne_nil _ _
  refine h.nonempty_of_mem_dropLast_lines ?_ rfl
  rw [lines, List.dropLast_append_of_ne_nil (List.cons_ne_nil _ _),
    List.dropLast_cons_of_ne_nil more]
  exact List.mem_append_right _ List.mem_cons_self

/-! ## Files in the place of a proxy -/

/-- A file of a function in the place of a proxy is the stub of a method with the name of the
class. -/
theorem exists_method_of_place (h : other.WellFormed)
    (member : artifact ∈ (other.functions libraryNamespace).flatMap GlueFunction.artifacts)
    (same : artifact.place = cls.proxyArtifact.place) :
    other.matlabName = cls.matlabName ∧ ∃ method ∈ other.methods,
      method.name = cls.matlabName ∧ artifact.text = method.stub := by
  obtain ⟨function, inClass, own⟩ := List.mem_flatMap.mp member
  simp only [GlueFunction.artifacts, List.mem_cons, List.not_mem_nil, or_false] at own
  rcases List.mem_append.mp inClass with outer | inner
  · -- Outside the directories of classes no place has two parts.
    have inside := (h.outerFunction_spec libraryNamespace outer).2
    rcases own with rfl | rfl <;>
      simp [GlueFunction.stubPlace, GlueFunction.sourcePlace, Class.proxyArtifact, inside] at same
  · obtain ⟨method, inMethods, rfl⟩ := List.mem_map.mp inner
    rcases own with rfl | rfl
    · obtain ⟨directories, files⟩ := List.cons.inj same
      have names := (String.append_left_inj _).mp (List.singleton_inj.mp files)
      exact ⟨(String.append_right_inj _).mp directories, method, inMethods, names, rfl⟩
    · have files := congrArg List.getLast? same
      have last := congrArg (fun file => file.bind fun file => file.toList.getLast?) files
      simp [GlueFunction.sourcePlace, Class.proxyArtifact] at last

theorem matlabName_eq_of_place (h : other.WellFormed)
    (member : artifact ∈ other.artifacts libraryNamespace)
    (same : artifact.place = cls.proxyArtifact.place) : other.matlabName = cls.matlabName := by
  rcases List.mem_cons.mp member with rfl | inFunctions
  · exact (String.append_right_inj _).mp (List.cons.inj same).1
  · exact (h.exists_method_of_place inFunctions same).1

end Class.WellFormed

namespace Toolbox

variable {toolbox : Toolbox} {disk : Disk} {start reached : Progress}

/-- Where no open file is, what was written last stays. -/
theorem Completes.find?_last (h : toolbox.Completes disk start reached)
    (wellFormed : toolbox.interface.WellFormed) {front back : List Artifact} {artifact : Artifact}
    (split : toolbox.interface.classes.flatMap (Class.artifacts toolbox.options.libraryNamespace) =
      front ++ artifact :: back)
    (last : ∀ later ∈ back, later.place ≠ artifact.place)
    (notScript : toolbox.directory.location ++ artifact.place ≠ toolbox.scriptPath.location)
    (notMakefile : toolbox.directory.location ++ artifact.place ≠ toolbox.makefilePath.location) :
    (toolbox.generate disk).disk.find? (toolbox.directory.location ++ artifact.place) =
      some (.file artifact.text.toUTF8) := by
  have changes := h.changes wellFormed
  rw [flatMap_writes_plan wellFormed, split, List.map_append, List.map_cons] at changes
  refine changes.written _ _ _ _ (by simp [openPlaces, notScript, notMakefile]) rfl
    fun later member => ?_
  obtain ⟨other, inBack, rfl⟩ := List.mem_map.mp member
  exact fun same => last other inBack (List.append_cancel_left same)

/-- If no two classes share their name, no file behind those of a class goes to the place of its
proxy. -/
theorem exists_split_artifacts (wellFormed : toolbox.interface.WellFormed) {cls : Class}
    (member : cls ∈ toolbox.interface.classes)
    (names : (toolbox.interface.classes.map Class.matlabName).Nodup) (libraryNamespace : String) :
    ∃ front back, toolbox.interface.classes.flatMap (Class.artifacts libraryNamespace) =
        front ++ cls.artifacts libraryNamespace ++ back ∧
      ∀ later ∈ back, later.place ≠ cls.proxyArtifact.place := by
  obtain ⟨earlier, behind, split⟩ := List.append_of_mem member
  refine ⟨earlier.flatMap (Class.artifacts libraryNamespace),
    behind.flatMap (Class.artifacts libraryNamespace), ?_, fun later inBack same => ?_⟩
  · rw [split, List.flatMap_append, List.flatMap_cons, List.append_assoc]
  · obtain ⟨other, inBehind, inOther⟩ := List.mem_flatMap.mp inBack
    have inClasses : other ∈ toolbox.interface.classes := by simp [split, inBehind]
    have shared := (wellFormed other inClasses).matlabName_eq_of_place inOther same
    rw [split, List.map_append, List.map_cons] at names
    have alone := (List.nodup_cons.mp (List.nodup_append'.mp names).2.1).1
    exact alone (shared ▸ List.mem_map_of_mem inBehind)

/-- If a file of a class goes to the place of the make script, the last lines of the make script stand
in it all the same. -/
theorem Completes.infix_script (h : toolbox.Completes disk start reached)
    (wellFormed : toolbox.interface.WellFormed)
    (shared : ∃ step ∈ toolbox.plan, ∃ write ∈ step.writes,
      write.1 = toolbox.scriptPath.location) :
    ∃ final, (toolbox.generate disk).disk.find? toolbox.scriptPath.location = some (.file final) ∧
      MakeScript.trailer.toUTF8.data.toList <:+: final.data.toList := by
  obtain ⟨layout, -, builds⟩ := h.exists_layout wellFormed
  have inFront : ∃ step ∈ toolbox.openingSteps ++
      toolbox.interface.classes.flatMap toolbox.classSteps, ∃ write ∈ step.writes,
        write.1 = toolbox.scriptPath.location := by
    obtain ⟨step, inPlan, write, inWrites, here⟩ := shared
    rcases List.mem_append.mp inPlan with inFront | closing
    · exact ⟨step, inFront, write, inWrites, here⟩
    · have quiet : ∀ step ∈ toolbox.closingSteps, step.writes = [] := by
        simp [closingSteps, Step.writes]
      simp [quiet step closing] at inWrites
  obtain ⟨before, step, later, split, ⟨write, inWrites, here⟩, last⟩ := exists_last inFront
  have order : toolbox.plan = before ++ step :: (later ++ toolbox.closingSteps) := by
    rw [plan, split, List.append_assoc, List.cons_append]
  have text := builds.texts step (by simp [order])
  have taken := h.taken
  rw [order] at taken
  cases step with
  | writeFile path content =>
      rw [List.mem_singleton.mp inWrites] at here
      have trailer : String.join ((later ++ toolbox.closingSteps).map (Step.textFor .script)) =
          String.join (later.map (Step.textFor .script)) ++ MakeScript.trailer := by
        rw [List.map_append, String.join_append]
        simp [closingSteps, Step.textFor, Step.scriptText]
      have apart : ∀ step ∈ later ++ toolbox.closingSteps, ∀ write ∈ step.writes,
          write.1 ≠ (toolbox.aggregatePath .script).location :=
        List.forall_mem_append.mpr
          ⟨fun step inLater write inWrites same => last step inLater ⟨write, inWrites, same⟩,
            by simp [closingSteps, Step.writes]⟩
      have more : MakeScript.trailer ≠ "" := by decide
      obtain ⟨middle, offset, -, -, final⟩ := find?_finish_of_writeFile .script h.begins taken here
        text apart (fun empty => more (String.append_eq_empty_iff.mp (trailer ▸ empty)).2) h.closes
        none
      rw [trailer, ← String.append_assoc] at final
      rw [h.outcome]
      exact ⟨_, final, infix_overwrite_append _ _ _ _⟩
  | makeDirectory path => cases inWrites
  | appendToScript text => cases inWrites
  | appendToMakefile text => cases inWrites
  | stop failure => cases inWrites

theorem proxy_place_ne_makefile (toolbox : Toolbox) (cls : Class) :
    toolbox.directory.location ++ cls.proxyArtifact.place ≠ toolbox.makefilePath.location := by
  rw [makefilePath_location]
  intro same
  have lengths := congrArg List.length (List.append_cancel_left same)
  simp [Class.proxyArtifact] at lengths

/-- If no two classes share their name, the proxy of a class is in its place behind a completed run
exactly if no method of the class is called like it and the make script is elsewhere. -/
theorem Completes.find?_proxy_iff (h : toolbox.Completes disk start reached)
    (wellFormed : toolbox.interface.WellFormed)
    (names : (toolbox.interface.classes.map Class.matlabName).Nodup) {cls : Class}
    (member : cls ∈ toolbox.interface.classes) :
    (toolbox.generate disk).disk.find? (toolbox.proxyPath cls).location =
        some (.file cls.proxyArtifact.text.toUTF8) ↔
      (∀ method ∈ cls.methods, method.name ≠ cls.matlabName) ∧
        (toolbox.proxyPath cls).location ≠ toolbox.scriptPath.location := by
  have wellFormedClass := wellFormed cls member
  have replaced {text : String} (different : cls.proxyArtifact.text ≠ text) :
      some (Node.file text.toUTF8) ≠ some (.file cls.proxyArtifact.text.toUTF8) := fun same =>
    different (String.toByteArray_inj.mp (Node.file.inj (Option.some.inj same))).symm
  rw [proxyPath_location toolbox wellFormedClass]
  by_cases script :
      toolbox.directory.location ++ cls.proxyArtifact.place = toolbox.scriptPath.location
  · have inPlan : (toolbox.directory.location ++ cls.proxyArtifact.place, cls.proxyArtifact.text) ∈
        toolbox.plan.flatMap Step.writes := by
      rw [flatMap_writes_plan wellFormed]
      exact List.mem_map_of_mem (f := Artifact.write toolbox.directory)
        (List.mem_flatMap.mpr ⟨cls, member, List.mem_cons_self⟩)
    obtain ⟨step, inSteps, inWrites⟩ := List.mem_flatMap.mp inPlan
    obtain ⟨content, found, lastLines⟩ :=
      h.infix_script wellFormed ⟨step, inSteps, _, inWrites, script⟩
    have blankLine : [10, 10] <:+: MakeScript.trailer.toUTF8.data.toList := by decide +kernel
    have different := wellFormedClass.toUTF8_proxy_ne (blankLine.trans lastLines)
    rw [script, found]
    refine iff_of_false (fun same => ?_) fun both => both.2 rfl
    exact different (Node.file.inj (Option.some.inj same)).symm
  · have elsewhere := proxy_place_ne_makefile toolbox cls
    obtain ⟨front, back, split, apart⟩ := exists_split_artifacts wellFormed member names
      toolbox.options.libraryNamespace
    by_cases named : ∃ artifact ∈ (cls.functions toolbox.options.libraryNamespace).flatMap
        GlueFunction.artifacts, artifact.place = cls.proxyArtifact.place
    · -- The last of the stubs that go there stays.
      obtain ⟨earlier, artifact, later, whole, place, last⟩ := exists_last named
      obtain ⟨-, method, inMethods, name, text⟩ := wellFormedClass.exists_method_of_place
        (whole ▸ List.mem_append_right earlier List.mem_cons_self) place
      have order : toolbox.interface.classes.flatMap
          (Class.artifacts toolbox.options.libraryNamespace) =
          (front ++ cls.proxyArtifact :: earlier) ++ artifact :: (later ++ back) := by
        rw [split, Class.artifacts, whole]
        simp
      have found := h.find?_last wellFormed order
        (place ▸ List.forall_mem_append.mpr ⟨last, apart⟩) (place ▸ script) (place ▸ elsewhere)
      rw [place, text] at found
      rw [found]
      exact iff_of_false (replaced (wellFormedClass.proxy_ne_methodStub wellFormedClass inMethods))
        fun both => both.1 method inMethods name
    · have free : ∀ artifact ∈ (cls.functions toolbox.options.libraryNamespace).flatMap
          GlueFunction.artifacts, artifact.place ≠ cls.proxyArtifact.place :=
        fun artifact inFunctions same => named ⟨artifact, inFunctions, same⟩
      have order : toolbox.interface.classes.flatMap
          (Class.artifacts toolbox.options.libraryNamespace) =
          front ++ cls.proxyArtifact :: ((cls.functions toolbox.options.libraryNamespace).flatMap
            GlueFunction.artifacts ++ back) := by
        rw [split, Class.artifacts]
        simp
      have found := h.find?_last wellFormed order (List.forall_mem_append.mpr ⟨free, apart⟩) script
        elsewhere
      refine iff_of_true found ⟨fun method inMethods name => ?_, script⟩
      refine free ⟨(cls.methodFunction toolbox.options.libraryNamespace method).stubPlace,
        method.stub⟩ ?_ ?_
      · exact List.mem_flatMap.mpr ⟨_, List.mem_append_right _ (List.mem_map_of_mem inMethods),
          List.mem_cons_self⟩
      · rw [GlueFunction.stubPlace, Class.methodFunction, name]
        rfl

end Toolbox

/-! ## One class for each name -/

/-- Whether a name of the other side is that of this class and of no other. -/
def Interface.NamesOnly (interface : Interface) (name : String) (cls : Class) : Prop :=
  cls ∈ interface.classes ∧ ∀ other ∈ interface.classes, other.matlabName = name ↔ other = cls

theorem Interface.namesOnly_matlabName {interface : Interface}
    (names : (interface.classes.map Class.matlabName).Nodup) {cls : Class}
    (member : cls ∈ interface.classes) : interface.NamesOnly cls.matlabName cls :=
  ⟨member, fun _ member' => ⟨List.inj_on_of_nodup_map names member' member, congrArg _⟩⟩

namespace Toolbox

/-- Whether no two classes of a toolbox have one name, one directory or one proxy, so that all that
is asked for or referred to is a single class, and each class keeps the proxy that was written for
it unless it has a method that is called like it or the make script goes there. -/
structure HasOwnProxies (toolbox : Toolbox) : Prop where
  names : (toolbox.interface.classes.map Class.matlabName).Nodup
  directories : (toolbox.interface.classes.map fun cls =>
    (toolbox.classDirectory cls).location).Nodup
  places : (toolbox.interface.classes.map fun cls => (toolbox.proxyPath cls).location).Nodup
  guards : ∀ cls ∈ toolbox.interface.classes, ∃ text, cls.proxy? = some text ∧
    ∀ name ∈ Matlab.guards text,
      (name ∈ Matlab.builtInClasses ∧
        ∀ other ∈ toolbox.interface.classes, other.matlabName ≠ name) ∨
      ∃ other, toolbox.interface.NamesOnly name other
  references : ∀ cls ∈ toolbox.interface.classes,
    ∀ function ∈ cls.functions toolbox.options.libraryNamespace,
      ∀ reference ∈ Mex.references function.source, ∃ other,
        reference.cppType = some other.cppName ∧
        toolbox.interface.NamesOnly reference.matlabClass other
  kept : ∀ disk : Disk, (toolbox.generate disk).failure = none →
    ∀ cls ∈ toolbox.interface.classes, ∃ text, cls.proxy? = some text ∧
      ((toolbox.generate disk).disk.find? (toolbox.proxyPath cls).location =
          some (.file text.toUTF8) ↔
        (∀ method ∈ cls.methods, method.name ≠ cls.matlabName) ∧
          (toolbox.proxyPath cls).location ≠ toolbox.scriptPath.location)

variable {toolbox : Toolbox}

theorem hasOwnProxies_of_nodup (wellFormed : toolbox.interface.WellFormed)
    (verified : toolbox.interface.verify = .ok ())
    (names : (toolbox.interface.classes.map Class.matlabName).Nodup) :
    toolbox.HasOwnProxies := by
  have resolves := Interface.resolvesClass_of_verify wellFormed verified
  -- A name can be read off whatever place it is in.
  have nodup {α : Type} {place : Class → α}
      (tells : ∀ cls ∈ toolbox.interface.classes, ∀ other ∈ toolbox.interface.classes,
        place cls = place other → cls.matlabName = other.matlabName) :
      (toolbox.interface.classes.map place).Nodup :=
    List.Nodup.map_on (fun cls member other member' same =>
      List.inj_on_of_nodup_map names member member' (tells cls member other member' same))
      (List.Nodup.of_map _ names)
  refine ⟨names, nodup fun cls member other member' same => ?_,
    nodup fun cls member other member' same => ?_, fun cls member => ?_,
    fun cls member function inClass reference referred => ?_, fun disk completed cls member => ?_⟩
  · have down (cls : Class) (member : cls ∈ toolbox.interface.classes) :
        (toolbox.classDirectory cls).location = toolbox.directory.location ++ [cls.directory] := by
      rw [classDirectory_eq (wellFormed cls member), Path.location_below
        (List.forall_mem_singleton.mpr (wellFormed cls member).isComponent_directory.goesDown)]
    rw [down cls member, down other member'] at same
    exact (String.append_right_inj _).mp (List.singleton_inj.mp (List.append_cancel_left same))
  · rw [proxyPath_location toolbox (wellFormed cls member),
      proxyPath_location toolbox (wellFormed other member')] at same
    exact (String.append_right_inj _).mp (List.cons.inj (List.append_cancel_left same)).1
  · refine ⟨_, (wellFormed cls member).namesConstructorTypes.proxy?, ?_⟩
    rw [← Class.proxyArtifact_text]
    intro name asked
    refine ((wellFormed cls member).guards_proxy_found (resolves cls member) name asked).imp
      (fun builtIn => ⟨builtIn, fun other member' same => ?_⟩) ?_
    · rw [← same] at builtIn
      exact (wellFormed other member').name.qualify_not_mem_builtInClasses _ builtIn
    · rintro ⟨other, member', rfl⟩
      exact ⟨other, Interface.namesOnly_matlabName names member'⟩
  · obtain ⟨other, member', rfl⟩ := (wellFormed cls member).references_source member
      (resolves cls member) inClass reference referred
    exact ⟨other, rfl, Interface.namesOnly_matlabName names member'⟩
  · obtain ⟨start, reached, completes⟩ := exists_completes completed
    refine ⟨_, (wellFormed cls member).namesConstructorTypes.proxy?, ?_⟩
    rw [← Class.proxyArtifact_text]
    exact completes.find?_proxy_iff wellFormed names member

/-- The classes of an accepted interface have names of their own exactly if their paths, cut at every
mark in them, are different, and proxies of their own just then. Classes of different paths have such
ones as long as none is in a namespace that continues one of another class behind the mark. -/
theorem hasOwnProxies_iff_pathParts {name text : String} {verbose : Bool}
    (read : Interface.ofText name verbose text = .ok toolbox.interface)
    (verified : toolbox.interface.verify = .ok ())
    (distinct : (toolbox.interface.classes.map Class.cppName).Nodup) :
    ((toolbox.interface.classes.map Class.matlabName).Nodup ↔
        (toolbox.interface.classes.map Class.pathParts).Nodup) ∧
      (toolbox.HasOwnProxies ↔ (toolbox.interface.classes.map Class.pathParts).Nodup) ∧
      (toolbox.interface.NamespacesApart → toolbox.HasOwnProxies) := by
  have wellFormed := Interface.wellFormed_of_ofText read
  have names := toolbox.interface.nodup_matlabNames_iff
  have own := hasOwnProxies_of_nodup wellFormed verified
  refine ⟨names, ⟨fun h => names.mp h.names, fun parts => own (names.mpr parts)⟩, fun apart => ?_⟩
  exact own (names.mpr (apart.nodup_pathParts wellFormed distinct))

/-- A toolbox for classes of one name in three scopes. -/
def forScopes : Toolbox where
  directory := .ofText "out"
  interface := {
    name := "m"
    classes := [
      { name := "A"
        constructors := [⟨"A", [
          { type := "A", name := "a", isConst := true, isReference := true,
            namespaces := ["a"] }]⟩]
        methods := [{ name := "f" }] },
      { name := "A"
        namespaces := ["a"]
        constructors := [⟨"A", [{ type := "int", name := "x" }]⟩] },
      { name := "A", namespaces := ["a", "b"], constructors := [⟨"A", []⟩] }] }

/-- Classes of one name in three scopes, each of which keeps its proxy. -/
theorem hasOwnProxies_iff_pathParts_scopes :
    Interface.ofText "m" false
        "class A { A(const a::A& a); void f(); }; namespace a \x7b class A { A(int x); }; namespace b { class A { A(); }; }///\\namespace \x7d///\\namespace" =
      .ok forScopes.interface ∧
    forScopes.interface.verify = .ok () ∧
    (forScopes.interface.classes.map Class.cppName).Nodup ∧
    forScopes.interface.NamespacesApart ∧ forScopes.HasOwnProxies ∧
    (forScopes.generate {}).failure = none ∧
    ∀ cls ∈ forScopes.interface.classes, ∃ text, cls.proxy? = some text ∧
      (forScopes.generate {}).disk.find? (forScopes.proxyPath cls).location =
        some (.file text.toUTF8) := by
  have read : Interface.ofText "m" false
      "class A { A(const a::A& a); void f(); }; namespace a \x7b class A { A(int x); }; namespace b { class A { A(); }; }///\\namespace \x7d///\\namespace" =
    .ok forScopes.interface := by decide +kernel
  have verified : forScopes.interface.verify = .ok () := by decide +kernel
  have distinct : (forScopes.interface.classes.map Class.cppName).Nodup := by decide +kernel
  have apart : forScopes.interface.NamespacesApart := by decide +kernel
  have completes : (forScopes.generate {}).failure = none := by decide +kernel
  have free : ∀ cls ∈ forScopes.interface.classes,
      (∀ method ∈ cls.methods, method.name ≠ cls.matlabName) ∧
        (forScopes.proxyPath cls).location ≠ forScopes.scriptPath.location := by decide +kernel
  have own := (hasOwnProxies_iff_pathParts read verified distinct).2.2 apart
  refine ⟨read, verified, distinct, apart, own, completes, fun cls member => ?_⟩
  obtain ⟨text, proxy, kept⟩ := own.kept {} completes cls member
  exact ⟨text, proxy, kept.mpr (free cls member)⟩

/-- A class with a method that is called like its proxy. -/
def withProxyMethod : Class where
  name := "B"
  namespaces := ["a"]
  constructors := [⟨"B", []⟩]
  methods := [{ name := "a_B" }]

def forProxyMethod : Toolbox where
  directory := .ofText "out"
  interface := { name := "m", classes := [withProxyMethod] }

/-- Classes of different paths may share their name, and the stub of a method may replace the proxy
of its class. -/
theorem proxies_shared :
    (∃ interface : Interface, Interface.ofText "m" false
        "namespace a \x7b namespace b { class C { C(); }; }///\\namespace \x7d///\\namespace namespace a_b { class C { C(); }; }///\\namespace" =
      .ok interface ∧ interface.verify = .ok () ∧
      (interface.classes.map Class.cppName).Nodup ∧
      ¬ (interface.classes.map Class.matlabName).Nodup) ∧
    Interface.ofText "m" false "namespace a { class B { B(); void a_B(); }; }///\\namespace" =
      .ok forProxyMethod.interface ∧
    forProxyMethod.interface.verify = .ok () ∧
    (forProxyMethod.interface.classes.map Class.cppName).Nodup ∧
    (forProxyMethod.generate {}).failure = none ∧
    ∃ text, withProxyMethod.proxy? = some text ∧
      (forProxyMethod.generate {}).disk.find? (forProxyMethod.proxyPath withProxyMethod).location ≠
        some (.file text.toUTF8) := by
  refine ⟨⟨{
    name := "m"
    classes := [
      { name := "C", namespaces := ["a", "b"], constructors := [⟨"C", []⟩] },
      { name := "C", namespaces := ["a_b"], constructors := [⟨"C", []⟩] }] }, ?_⟩,
    ?_, ?_, ?_, ?_, withProxyMethod.proxyArtifact.text, ?_, ?_⟩
  all_goals decide +kernel

end Toolbox

end MexGlue
