import MexGlue.Proofs.Dependency.Verification
import MexGlue.Proofs.Glue.Matlab
import MexGlue.Proofs.Toolbox.Functions

/-!
# What proxies and stubs refer to

A proxy asks for the classes of its constructors' arguments and calls the constructors' functions,
in their order, and declares its class. A stub refers to nothing and declares its function.
-/

namespace MexGlue

theorem Argument.matlabClass_of_isClass (arg : Argument) (isClass : arg.isClass = true) :
    arg.matlabClass = arg.qualifiedType "_" := by
  rw [Argument.isClass, Bool.and_eq_true, Bool.not_eq_true', Bool.not_eq_true'] at isClass
  have basis : BasisType.ofName? arg.type = none :=
    Option.isNone_iff_eq_none.mp (Option.isSome_eq_false_iff.mp isClass.1)
  simp only [matlabClass, basis, isClass.2, Bool.false_eq_true, if_false]

theorem Argument.WellFormed.holdsWordChars_matlabClass {arg : Argument} (h : arg.WellFormed) :
    HoldsWordChars arg.matlabClass := by
  rw [matlabClass]
  split
  · rename_i t _
    cases t <;> exact List.all_eq_true.mp rfl
  · split
    · exact List.all_eq_true.mp rfl
    · exact holdsWordChars_qualify holdsWordChars_joint h.holdsWordChars

/-! ## Lines that try a constructor -/

/-- How a line asks for the class of one more parameter. -/
def isaText (arg : Argument × Nat) : String :=
  " && isa(" ++ proxyParameter arg.2 ++ ",'" ++ arg.1.matlabClass ++ "')"

theorem intercalate_cons_eq (delimiter first : String) (rest : List String) :
    delimiter.intercalate (first :: rest) =
      first ++ String.join (rest.map fun part => delimiter ++ part) := by
  induction rest generalizing first with
  | nil => simp
  | cons next rest ih =>
      rw [String.intercalate_cons_cons, ih, List.map_cons, String.join_cons]
      simp only [String.append_assoc]

theorem intercalate_guards (ctor : Constructor) :
    " && ".intercalate ctor.guards =
      "nargin == " ++ ctor.args.length.repr ++ String.join ((ctor.args.zipIdx 1).map isaText) := by
  rw [Constructor.guards, intercalate_cons_eq, List.map_map]
  refine congrArg (fun texts => _ ++ String.join texts) (List.map_congr_left fun arg _ => ?_)
  simp [isaText, ← String.toList_inj]

section Dispatch

variable {ctor : Constructor}

theorem not_mem_proxyParameter {c : Char} (mark : Pattern.isWordChar c = false)
    (notBrace : c ≠ '\x7b' ∧ c ≠ '\x7d') (i : Nat) : c ∉ (proxyParameter i).toList := by
  have word : HoldsWordChars "varargin" := List.all_eq_true.mp rfl
  have front : "varargin\x7b".toList = "varargin".toList ++ ['\x7b'] := rfl
  have back : "\x7d".toList = ['\x7d'] := rfl
  rw [proxyParameter, String.toList_append, String.toList_append, front, back]
  simp only [List.mem_append, List.mem_singleton, not_or]
  exact ⟨⟨⟨word.not_mem mark, notBrace.1⟩, (holdsWordChars_repr i).not_mem mark⟩, notBrace.2⟩

theorem not_mem_isaTexts {c : Char} (mark : Pattern.isWordChar c = false)
    (notPart : c ∉ " && isa(\x7b\x7d,')".toList) {args : List (Argument × Nat)}
    (classes : ∀ arg ∈ args, HoldsWordChars arg.1.matlabClass) :
    c ∉ (String.join (args.map isaText)).toList := by
  have inside : ∀ arg ∈ args, c ∉ (isaText arg).toList := by
    intro arg inArgs
    have matlabClass := (classes arg inArgs).not_mem mark
    simp only [String.reduceToList, List.mem_cons, not_or] at notPart
    have parameter := not_mem_proxyParameter mark (by simp [notPart]) arg.2
    simp [isaText, matlabClass, parameter, notPart]
  rw [String.toList_join, List.mem_flatMap]
  rintro ⟨text, member, inText⟩
  obtain ⟨arg, inArgs, rfl⟩ := List.mem_map.mp member
  exact inside arg inArgs inText

/-- A line asks for the classes of the arguments, whatever stands around. -/
theorem guardsIn_isaTexts {start rest : String} (startFree : '\'' ∉ start.toList)
    (restFree : '\'' ∉ rest.toList) {args : List (Argument × Nat)}
    (classes : ∀ arg ∈ args, HoldsWordChars arg.1.matlabClass) :
    Matlab.guardsIn (start ++ String.join (args.map isaText) ++ rest) =
      args.map fun arg => arg.1.matlabClass := by
  induction args generalizing start with
  | nil =>
      refine Matlab.guardsIn_of_not_mem ?_
      simp [startFree, restFree]
  | cons arg args ih =>
      obtain ⟨here, behind⟩ := List.forall_mem_cons.mp classes
      have line : start ++ String.join ((arg :: args).map isaText) ++ rest =
          (start ++ " && " ++ "isa(" ++ (proxyParameter arg.2 ++ ",")) ++ "'" ++
            arg.1.matlabClass ++ "'" ++ (")" ++ String.join (args.map isaText) ++ rest) := by
        simp [isaText, ← String.toList_inj]
      have front : '\'' ∉
          (start ++ " && " ++ "isa(" ++ (proxyParameter arg.2 ++ ",")).toList := by
        have parameter := not_mem_proxyParameter (c := '\'') rfl (by decide) arg.2
        simp [startFree, parameter]
      have asks : Text.mentions "isa("
          (start ++ " && " ++ "isa(" ++ (proxyParameter arg.2 ++ ",")) = true :=
        Text.mentions_append _ _ _
      have later : Matlab.guardsIn (")" ++ String.join (args.map isaText) ++ rest) =
          args.map fun arg => arg.1.matlabClass := ih (by decide) behind
      rw [line, Matlab.guardsIn_quote front (here.not_mem rfl), if_pos asks, later]
      rfl

end Dispatch

namespace Class.WellFormed

variable {cls : Class} {ctor : Constructor}

theorem dispatchLine_eq (h : cls.WellFormed) (member : ctor ∈ cls.constructors) :
    cls.dispatchLine ctor =
      "      if nargin == " ++ ctor.args.length.repr ++
        String.join ((ctor.args.zipIdx 1).map isaText) ++
        (", obj.self = " ++ cls.constructorName ctor ++ "(" ++ ctor.passedParameters ++ "); end") := by
  rw [dispatchLine, h.namesConstructorTypes.dispatchLine? member, Option.getD_some,
    intercalate_guards]
  simp [← String.toList_inj]

theorem not_mem_passedParameters {c : Char} (mark : Pattern.isWordChar c = false)
    (notPart : c ≠ '\x7b' ∧ c ≠ '\x7d' ∧ c ≠ ',') (ctor : Constructor) :
    c ∉ ctor.passedParameters.toList := by
  refine Text.not_mem_intercalate ?_ (List.forall_mem_map.mpr fun arg _ => ?_)
  · simp [notPart.2.2]
  · exact not_mem_proxyParameter mark ⟨notPart.1, notPart.2.1⟩ arg.2

theorem matlabClasses (h : cls.WellFormed) (member : ctor ∈ cls.constructors) :
    ∀ arg ∈ ctor.args.zipIdx 1, HoldsWordChars arg.1.matlabClass := fun arg inArgs =>
  ((h.constructors ctor member).2 arg.1
    (List.fst_mem_of_mem_zipIdx inArgs)).holdsWordChars_matlabClass

theorem guardsIn_dispatchLine (h : cls.WellFormed) (member : ctor ∈ cls.constructors) :
    Matlab.guardsIn (cls.dispatchLine ctor) = ctor.args.map Argument.matlabClass := by
  have name : '\'' ∉ (cls.constructorName ctor).toList :=
    (h.isStem_constructorName member).word.not_mem rfl
  have parameters := not_mem_passedParameters (c := '\'') rfl (by decide) ctor
  have count : '\'' ∉ ctor.args.length.repr.toList := (holdsWordChars_repr _).not_mem rfl
  rw [h.dispatchLine_eq member, guardsIn_isaTexts (by simp [-Nat.toList_repr, count])
    (by simp [name, parameters]) (h.matlabClasses member)]
  exact (List.map_map (f := Prod.fst) (g := Argument.matlabClass)).symm.trans
    (congrArg (List.map Argument.matlabClass) (List.zipIdx_map_fst 1 ctor.args))

/-- A line calls the function of its constructor, and assigns the result to the object. -/
theorem callsIn_dispatchLine (h : cls.WellFormed) (member : ctor ∈ cls.constructors) :
    Matlab.callsIn (Text.words (cls.dispatchLine ctor)) = [cls.constructorName ctor] := by
  have stem := h.isStem_constructorName member
  have callWord : Text.IsUnbroken
      (cls.constructorName ctor ++ "(" ++ ctor.passedParameters ++ ");") := by
    have name : ' ' ∉ (cls.constructorName ctor).toList := stem.word.not_mem rfl
    have parameters := not_mem_passedParameters (c := ' ') rfl (by decide) ctor
    refine ⟨fun empty => ?_, by simp [name, parameters]⟩
    exact absurd (String.append_eq_empty_iff.mp empty).2 (by decide)
  have noDot : '.' ∉ ("      if nargin == " ++ ctor.args.length.repr ++
      String.join ((ctor.args.zipIdx 1).map isaText) ++ ",").toList := by
    have count : '.' ∉ ctor.args.length.repr.toList := (holdsWordChars_repr _).not_mem rfl
    have guards := not_mem_isaTexts (c := '.') rfl (by decide) (h.matlabClasses member)
    simp only [String.toList_append, List.mem_append, not_or]
    exact ⟨⟨⟨by decide, count⟩, guards⟩, by decide⟩
  have line : cls.dispatchLine ctor =
      "      if nargin == " ++ ctor.args.length.repr ++
          String.join ((ctor.args.zipIdx 1).map isaText) ++ "," ++ " " ++
        ("obj.self" ++ " " ++ ("=" ++ " " ++
          (cls.constructorName ctor ++ "(" ++ ctor.passedParameters ++ ");" ++ " " ++ "end"))) := by
    rw [h.dispatchLine_eq member]
    simp [← String.toList_inj]
  have object : Text.IsUnbroken "obj.self" := ⟨by decide, by decide⟩
  have equals : Text.IsUnbroken "=" := ⟨by decide, by decide⟩
  have ending : Text.IsUnbroken "end" := ⟨by decide, by decide⟩
  have notObject : "obj.self" ∉ ["=",
      cls.constructorName ctor ++ "(" ++ ctor.passedParameters ++ ");", "end"] := by
    simp only [List.mem_cons, List.not_mem_nil, or_false, not_or]
    refine ⟨by decide, fun same => ?_, by decide⟩
    have bracket : '(' ∈ "obj.self".toList := by simp [same]
    exact absurd bracket (by decide)
  have called : Matlab.called? ["=",
      cls.constructorName ctor ++ "(" ++ ctor.passedParameters ++ ");", "end"] =
        some (cls.constructorName ctor) := by
    have spelled : (cls.constructorName ctor ++ "(" ++ ctor.passedParameters ++ ");").toList =
        (cls.constructorName ctor).toList ++ '(' :: (ctor.passedParameters ++ ");").toList := by
      simp
    have name : ∀ c ∈ (cls.constructorName ctor).toList, (c != '(') = true := fun c inName =>
      bne_iff_ne.mpr fun same => stem.word.not_mem rfl (same ▸ inName)
    rw [Matlab.called?, spelled, List.takeWhile_append_of_pos name,
      List.takeWhile_cons_of_neg (by decide), List.append_nil, String.ofList_toList]
  rw [line, Text.words_append, Matlab.callsIn_append_of_not_mem fun inFront =>
      noDot (Text.mem_of_mem_words inFront (by decide)),
    object.words_append, equals.words_append, callWord.words_append, ending.words, Matlab.callsIn,
    if_pos rfl, called, Matlab.callsIn_of_not_mem notObject]
  rfl

theorem not_mem_dispatchLine (h : cls.WellFormed) (member : ctor ∈ cls.constructors) :
    '\n' ∉ (cls.dispatchLine ctor).toList := by
  have name : '\n' ∉ (cls.constructorName ctor).toList :=
    (h.isStem_constructorName member).word.not_mem rfl
  have parameters := not_mem_passedParameters (c := '\n') rfl (by decide) ctor
  have count : '\n' ∉ ctor.args.length.repr.toList := (holdsWordChars_repr _).not_mem rfl
  have guards := not_mem_isaTexts (c := '\n') rfl (by decide) (h.matlabClasses member)
  rw [h.dispatchLine_eq member]
  simp only [String.toList_append, List.mem_append, not_or]
  exact ⟨⟨⟨by decide, count⟩, guards⟩, ⟨⟨⟨by decide, name⟩, by decide⟩, parameters⟩, by decide⟩

/-! ## Proxies -/

/-- The line of a proxy that is run if no constructor fits. -/
theorem isSilent_failureLine (h : cls.WellFormed) :
    Matlab.IsSilent
      ("      if obj.self == 0, error('" ++ cls.matlabName ++ " constructor failed'); end") where
  guards := by
    have front : '\'' ∉ "      if obj.self == 0, error(".toList := by decide
    have matlabName : '\'' ∉ cls.matlabName.toList := h.isStem_matlabName.word.not_mem rfl
    have name : '\'' ∉ (cls.matlabName ++ " constructor failed").toList := by
      simp [matlabName]
    have line : "      if obj.self == 0, error('" ++ cls.matlabName ++ " constructor failed'); end" =
        "      if obj.self == 0, error(" ++ "'" ++
          (cls.matlabName ++ " constructor failed") ++ "'" ++ "); end" := by
      simp [← String.toList_inj]
    have behind : Matlab.guardsIn "); end" = [] := Matlab.guardsIn_of_not_mem (by decide)
    have asks : Text.mentions "isa(" "      if obj.self == 0, error(" = false := by decide +kernel
    rw [line, Matlab.guardsIn_quote front name, asks, behind]
    rfl
  calls := by
    have named : Text.IsUnbroken ("error('" ++ cls.matlabName) := by
      have noBlank : ' ' ∉ cls.matlabName.toList := h.isStem_matlabName.word.not_mem rfl
      refine ⟨fun empty => absurd (String.append_eq_empty_iff.mp empty).1 (by decide), ?_⟩
      simp [noBlank]
    have line : "      if obj.self == 0, error('" ++ cls.matlabName ++ " constructor failed'); end" =
        "      if obj.self == 0," ++ " " ++
          (("error('" ++ cls.matlabName) ++ " " ++ "constructor failed'); end") := by
      simp [← String.toList_inj]
    have front : Text.words "      if obj.self == 0," = ["if", "obj.self", "==", "0,"] := by
      decide +kernel
    have behind : Text.words "constructor failed'); end" = ["constructor", "failed');", "end"] := by
      decide +kernel
    have notObject : "obj.self" ≠ "error('" ++ cls.matlabName := fun same => by
      have quote : '\'' ∈ "obj.self".toList := by simp [same]
      exact absurd quote (by decide)
    rw [line, Text.words_append, named.words_append, front, behind]
    simp [Matlab.callsIn, Matlab.called?, notObject.symm]

/-- The lines of a proxy in front of those that try a constructor. -/
def opening (cls : Class) : List String :=
  ["% " ++ banner, "classdef " ++ cls.matlabName, "  properties", "    self = 0", "  end", "  methods",
    "    function obj = " ++ cls.matlabName ++ "(varargin)"]

/-- The lines of a proxy behind those that try a constructor. -/
def closing (cls : Class) : List String :=
  ["      if obj.self == 0, error('" ++ cls.matlabName ++ " constructor failed'); end",
    "    end", "    function display(obj), obj.print(''); end",
    "    function disp(obj), obj.display; end", "  end", "end", ""]

theorem lines_proxy (h : cls.WellFormed) :
    Text.lines cls.proxyArtifact.text =
      opening cls ++ cls.constructors.map cls.dispatchLine ++ closing cls := by
  have name : '\n' ∉ cls.matlabName.toList := h.isStem_matlabName.word.not_mem rfl
  have proxy : Text.HasLines cls.proxyArtifact.text
      (cls.proxyWith (cls.constructors.map cls.dispatchLine)) := by
    refine ⟨proxyArtifact_text cls, ?_⟩
    rw [proxyWith]
    refine List.forall_mem_append.mpr ⟨List.forall_mem_append.mpr ⟨?_, ?_⟩, ?_⟩
    · simp [name, banner]
    · exact List.forall_mem_map.mpr fun ctor member => h.not_mem_dispatchLine member
    · simp [name]
  rw [proxy.lines, proxyWith, List.append_assoc]
  rfl

theorem declaresClass_proxy (h : cls.WellFormed) :
    Matlab.DeclaresClass cls.proxyArtifact.text cls.matlabName := by
  rw [Matlab.DeclaresClass, h.lines_proxy]
  simp [opening]

theorem isSilent_opening (h : cls.WellFormed) : ∀ line ∈ opening cls, Matlab.IsSilent line := by
  have quote : '\'' ∉ cls.matlabName.toList := h.isStem_matlabName.word.not_mem rfl
  have dot : '.' ∉ cls.matlabName.toList := h.isStem_matlabName.word.not_mem rfl
  have free : ∀ line ∈ opening cls, '\'' ∉ line.toList ∧ '.' ∉ line.toList := by
    simp [opening, banner, quote, dot]
  exact fun line member => Matlab.isSilent_of_not_mem (free line member).1 (free line member).2

theorem isSilent_closing (h : cls.WellFormed) : ∀ line ∈ closing cls, Matlab.IsSilent line := by
  have fixed : ∀ line ∈ ["    end", "    function display(obj), obj.print(''); end",
      "    function disp(obj), obj.display; end", "  end", "end", ""],
      Matlab.guardsIn line = [] ∧ Matlab.callsIn (Text.words line) = [] := by decide +kernel
  exact List.forall_mem_cons.mpr
    ⟨h.isSilent_failureLine, fun line member => ⟨(fixed line member).1, (fixed line member).2⟩⟩

/-- A proxy asks for the classes of its constructors' arguments. -/
theorem guards_proxy (h : cls.WellFormed) :
    Matlab.guards cls.proxyArtifact.text =
      cls.constructors.flatMap fun ctor => ctor.args.map Argument.matlabClass := by
  rw [Matlab.guards, h.lines_proxy,
    (Matlab.flatMap_of_isSilent h.isSilent_opening h.isSilent_closing).1, List.flatMap_map]
  exact List.flatMap_congr fun ctor member => h.guardsIn_dispatchLine member

/-- A proxy calls the functions of its constructors. -/
theorem calls_proxy (h : cls.WellFormed) :
    Matlab.calls cls.proxyArtifact.text = cls.constructors.map cls.constructorName := by
  rw [Matlab.calls, h.lines_proxy,
    (Matlab.flatMap_of_isSilent h.isSilent_opening h.isSilent_closing).2, List.flatMap_map,
    List.map_eq_flatMap]
  exact List.flatMap_congr fun ctor member => h.callsIn_dispatchLine member

end Class.WellFormed

/-! ## Stubs -/

section Stub

variable {name : String} {parameters : List String}

theorem lines_stub (stem : IsStem name) (words : ∀ parameter ∈ parameters, IsStem parameter) :
    Text.lines (stub name parameters) =
      ["% " ++ banner, "function result = " ++ name ++ "(" ++ ",".intercalate parameters ++ ")",
        "  error('need to compile " ++ name ++ ".cpp');", "end", ""] := by
  have nameFree : '\n' ∉ name.toList := stem.word.not_mem rfl
  have parametersFree : '\n' ∉ (",".intercalate parameters).toList :=
    Text.not_mem_intercalate (by decide) fun parameter member =>
      (words parameter member).word.not_mem rfl
  have written : Text.HasLines (stub name parameters)
      ["% " ++ banner, "function result = " ++ name ++ "(" ++ ",".intercalate parameters ++ ")",
        "  error('need to compile " ++ name ++ ".cpp');", "end"] := by
    refine ⟨rfl, ?_⟩
    simp only [List.forall_mem_cons, String.toList_append, List.mem_append, not_or]
    exact ⟨by decide, ⟨⟨⟨⟨by decide, nameFree⟩, by decide⟩, parametersFree⟩, by decide⟩,
      ⟨⟨by decide, nameFree⟩, by decide⟩, by decide, nofun⟩
  exact written.lines

theorem isSilent_errorLine (stem : IsStem name) :
    Matlab.IsSilent ("  error('need to compile " ++ name ++ ".cpp');") where
  guards := by
    have front : '\'' ∉ "  error(".toList := by decide
    have nameFree : '\'' ∉ name.toList := stem.word.not_mem rfl
    have inside : '\'' ∉ ("need to compile " ++ name ++ ".cpp").toList := by
      simp [nameFree]
    have line : "  error('need to compile " ++ name ++ ".cpp');" =
        "  error(" ++ "'" ++ ("need to compile " ++ name ++ ".cpp") ++ "'" ++ ");" := by
      simp [← String.toList_inj]
    have behind : Matlab.guardsIn ");" = [] := Matlab.guardsIn_of_not_mem (by decide)
    have asks : Text.mentions "isa(" "  error(" = false := by decide +kernel
    rw [line, Matlab.guardsIn_quote front inside, asks, behind]
    rfl
  calls := by
    have file : Text.IsUnbroken (name ++ ".cpp');") := by
      have noBlank : ' ' ∉ name.toList := stem.word.not_mem rfl
      refine ⟨fun empty => stem.nonempty (String.append_eq_empty_iff.mp empty).1, ?_⟩
      simp [noBlank]
    have line : "  error('need to compile " ++ name ++ ".cpp');" =
        "  error('need to compile" ++ " " ++ (name ++ ".cpp');") := by
      simp [← String.toList_inj]
    have front : Text.words "  error('need to compile" = ["error('need", "to", "compile"] := by
      decide +kernel
    have notObject : "obj.self" ≠ name ++ ".cpp');" := fun same => by
      have quote : '\'' ∈ "obj.self".toList := by simp [same]
      exact absurd quote (by decide)
    rw [line, Text.words_append, front, file.words]
    exact Matlab.callsIn_of_not_mem (by simp [notObject])

theorem isSilent_stub (stem : IsStem name) (words : ∀ parameter ∈ parameters, IsStem parameter) :
    ∀ line ∈ Text.lines (stub name parameters), Matlab.IsSilent line := by
  have signature {c : Char} (mark : Pattern.isWordChar c = false)
      (fixed : c ∉ "function result = ".toList ∧ c ∉ "(".toList ∧ c ∉ ",".toList ∧ c ∉ ")".toList) :
      c ∉ ("function result = " ++ name ++ "(" ++ ",".intercalate parameters ++ ")").toList := by
    have inside := Text.not_mem_intercalate fixed.2.2.1 fun parameter member =>
      (words parameter member).word.not_mem mark
    simp only [String.toList_append, List.mem_append, not_or]
    exact ⟨⟨⟨⟨fixed.1, stem.word.not_mem mark⟩, fixed.2.1⟩, inside⟩, fixed.2.2.2⟩
  rw [lines_stub stem words]
  simp only [List.forall_mem_cons]
  exact ⟨Matlab.isSilent_of_not_mem (by decide) (by decide),
    Matlab.isSilent_of_not_mem (signature rfl (by decide)) (signature rfl (by decide)),
    isSilent_errorLine stem, Matlab.isSilent_of_not_mem (by decide) (by decide),
    Matlab.isSilent_of_not_mem (by decide) (by decide), nofun⟩

/-- A stub refers to nothing. -/
theorem guards_calls_stub (stem : IsStem name)
    (words : ∀ parameter ∈ parameters, IsStem parameter) :
    Matlab.guards (stub name parameters) = [] ∧ Matlab.calls (stub name parameters) = [] := by
  have silent := isSilent_stub stem words
  exact ⟨List.flatMap_eq_nil_iff.mpr fun line member => (silent line member).guards,
    List.flatMap_eq_nil_iff.mpr fun line member => (silent line member).calls⟩

theorem declaresFunction_stub (stem : IsStem name)
    (words : ∀ parameter ∈ parameters, IsStem parameter) :
    Matlab.DeclaresFunction (stub name parameters) name := by
  rw [Matlab.DeclaresFunction, lines_stub stem words]
  exact ⟨",".intercalate parameters, by simp⟩

end Stub

end MexGlue
