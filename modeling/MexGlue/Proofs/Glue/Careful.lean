import MexGlue.Proofs.Toolbox.Rendering

/-!
# The partial operations of rendering

Three things that rendering does need not work for a model that no text can say: taking the first
letter of a type, looking up a type in the table of MATLAB classes, and taking a returned pair apart.
The careful renderers do all three and stop with a fault where one does not work. The table is asked
for built-in types only, and only pairs are taken apart, so the only fault that ever shows is that of
a type without a first letter, and only constructors ask for it. Otherwise the careful renderers give
what the others give.
-/

namespace MexGlue

/-- How rendering can fail. -/
inductive RenderFault where
  /-- A type without a name has no first letter. -/
  | noLetter
  /-- The table of MATLAB classes does not list a type. -/
  | notListed
  /-- A returned value has not two slots. -/
  | notTwo
  deriving DecidableEq, Repr

/-- What was rendered, or the fault of a type without a first letter. -/
def orNoLetter {α : Type} : Option α → Except RenderFault α
  | some rendered => .ok rendered
  | none => .error .noLetter

section

variable {α β : Type}

theorem map_orNoLetter (f : α → β) (rendered : Option α) :
    (orNoLetter rendered).map f = orNoLetter (rendered.map f) := by
  cases rendered <;> rfl

theorem mapM_orNoLetter {careful : α → Except RenderFault β} {plain : α → Option β}
    (same : ∀ x, careful x = orNoLetter (plain x)) (xs : List α) :
    xs.mapM careful = orNoLetter (xs.mapM plain) := by
  induction xs with
  | nil => rfl
  | cons x xs ih =>
      rw [List.mapM_cons, List.mapM_cons, same, ih]
      cases plain x with
      | none => rfl
      | some y => cases xs.mapM plain <;> rfl

theorem mapM_ok {careful : α → Except RenderFault β} {plain : α → β}
    (same : ∀ x, careful x = .ok (plain x)) (xs : List α) : xs.mapM careful = .ok (xs.map plain) := by
  induction xs with
  | nil => rfl
  | cons x xs ih =>
      rw [List.mapM_cons, same, ih]
      rfl

end

/-! ## Careful renderers -/

/-- The MATLAB classes of built-in types. -/
def matlabClassTable : List (String × String) :=
  [("string", "char"), ("bool", "logical"), ("size_t", "numeric"), ("int", "numeric"),
    ("double", "double"), ("Vector", "double"), ("Matrix", "double")]

namespace Careful

def firstLetter (type : String) : Except RenderFault Char :=
  match type.toList with
  | [] => .error .noLetter
  | first :: _ => .ok first

def signature (args : List Argument) : Except RenderFault String :=
  (args.mapM fun arg => firstLetter arg.type).map String.ofList

def matlabClass (arg : Argument) : Except RenderFault String :=
  if arg.isClass then .ok (arg.qualifiedType "_")
  else
    match matlabClassTable.lookup arg.type with
    | some listed => .ok listed
    | none => .error .notListed

def twoSlots : List ReturnSlot → Except RenderFault (ReturnSlot × ReturnSlot)
  | [first, second] => .ok (first, second)
  | _ => .error .notTwo

def returnStatements (value : ReturnValue) (call : String) : Except RenderFault (List String) :=
  if value.isVoid then .ok [call ++ ";"]
  else if value.isPair then
    (twoSlots value.slots).map fun (first, second) =>
      ["std::pair< " ++ first.resultType ++ ", " ++ second.resultType ++ " > result = " ++
          call ++ ";",
        "out[0] = " ++ first.wrapExpression "result.first" ++ ";",
        "out[1] = " ++ second.wrapExpression "result.second" ++ ";"]
  else
    .ok
      [value.first.resultType ++ " result = " ++ call ++ ";",
        "out[0] = " ++ value.first.wrapExpression "result" ++ ";"]

variable (libraryNamespace mexFlags : String) (cls : Class)

def constructorName (ctor : Constructor) : Except RenderFault String :=
  (signature ctor.args).map fun letters => "new_" ++ cls.matlabName ++ "_" ++ letters

/-- The line of a proxy that tries one constructor. The classes of its arguments are found before its
name is. -/
def dispatchLine (ctor : Constructor) : Except RenderFault String := do
  let classes ← ctor.args.mapM matlabClass
  let guards := ("nargin == " ++ ctor.args.length.repr) ::
    (classes.zipIdx 1).map fun entry =>
      "isa(" ++ proxyParameter entry.2 ++ ",'" ++ entry.1 ++ "')"
  let name ← constructorName cls ctor
  return "      if " ++ " && ".intercalate guards ++ ", obj.self = " ++ name ++ "(" ++
    ctor.passedParameters ++ "); end"

def proxy : Except RenderFault String :=
  (cls.constructors.mapM (dispatchLine cls)).map fun dispatch =>
    Text.unlines (cls.proxyWith dispatch)

def constructorStub (ctor : Constructor) : Except RenderFault String :=
  (constructorName cls ctor).map fun name => stub name (ctor.args.map Argument.name)

def constructorFile (ctor : Constructor) : Except RenderFault String :=
  (constructorName cls ctor).map fun name =>
    cls.mexFile libraryNamespace (cls.constructorBody ctor name)

def staticMethodFile (method : StaticMethod) : Except RenderFault String :=
  (returnStatements method.returnValue
      (cls.cppName ++ "::" ++ method.name ++ "(" ++ callExpressions method.args ++ ")")).map
    fun returned => cls.mexFile libraryNamespace
      ([checkStatement (cls.staticMethodName method) "nargin" method.args.length] ++
        unwrapStatements 0 method.args ++ returned)

def methodFile (method : Method) : Except RenderFault String :=
  (returnStatements method.returnValue
      ("self->" ++ method.name ++ "(" ++ callExpressions method.args ++ ")")).map
    fun returned => cls.mexFile libraryNamespace
      ([checkStatement method.name "nargin-1" method.args.length, cls.receiverStatement] ++
        unwrapStatements 1 method.args ++ returned)

def compileCommands : Except RenderFault String :=
  (cls.constructors.mapM (constructorName cls)).map fun constructors =>
    Text.unlines
      ((constructors ++ cls.staticMethods.map cls.staticMethodName).map
          (MakeScript.compileLine mexFlags) ++
        ["cd " ++ cls.directory] ++
        (cls.methods.map Method.name).map (MakeScript.compileLine mexFlags))

def rules : Except RenderFault String :=
  (cls.constructors.mapM (constructorName cls)).map fun constructors =>
    let targets := constructors ++ cls.staticMethods.map cls.staticMethodName ++
      cls.methods.map fun method => cls.directory ++ "/" ++ method.name
    Text.unlines
      (targets.flatMap Makefile.rule ++
        ["",
          Text.trimEnd
            (cls.matlabName ++ ": " ++ " ".intercalate (targets.map Makefile.product)),
          ""])

end Careful

/-! ## Why the table and the pairs never fail -/

namespace Careful

theorem firstLetter_eq (type : String) : firstLetter type = orNoLetter type.toList.head? := by
  unfold firstLetter
  cases type.toList <;> rfl

theorem signature_eq (args : List Argument) : signature args = orNoLetter (signature? args) := by
  rw [signature, mapM_orNoLetter fun arg : Argument => firstLetter_eq arg.type, map_orNoLetter]
  rfl

theorem eq_spelling_of_basis {name : String} {t : BasisType}
    (found : BasisType.ofName? name = some t) : name = t.spelling := by
  unfold BasisType.ofName? at found
  have spelled := List.find?_some found
  exact (eq_of_beq spelled).symm

theorem eq_spelling_of_container {name : String} {t : ContainerType}
    (found : ContainerType.ofName? name = some t) : name = t.spelling := by
  unfold ContainerType.ofName? at found
  have spelled := List.find?_some found
  exact (eq_of_beq spelled).symm

/-- The table lists every type that is no class. -/
theorem matlabClass_eq (arg : Argument) : matlabClass arg = .ok arg.matlabClass := by
  unfold matlabClass Argument.isClass Argument.matlabClass isBasisName isContainerName
  cases basis : BasisType.ofName? arg.type with
  | some t =>
      rw [eq_spelling_of_basis basis]
      cases t <;> rfl
  | none =>
      cases container : ContainerType.ofName? arg.type with
      | some t =>
          rw [eq_spelling_of_container container]
          cases t <;> rfl
      | none => rfl

theorem returnStatements_eq (value : ReturnValue) (call : String) :
    returnStatements value call = .ok (value.statements call) := by
  unfold returnStatements ReturnValue.statements ReturnValue.isPair ReturnValue.slots
  cases value.isVoid with
  | true => rfl
  | false => cases value.second <;> rfl

section

variable (libraryNamespace mexFlags : String) (cls : Class) (ctor : Constructor)

theorem constructorName_eq : constructorName cls ctor = orNoLetter (cls.constructorName? ctor) := by
  rw [constructorName, signature_eq, map_orNoLetter]
  rfl

theorem constructorNames_eq :
    cls.constructors.mapM (constructorName cls) = orNoLetter cls.constructorNames? :=
  mapM_orNoLetter (constructorName_eq cls) cls.constructors

theorem dispatchLine_eq : dispatchLine cls ctor = orNoLetter (cls.dispatchLine? ctor) := by
  have guards : (("nargin == " ++ ctor.args.length.repr) ::
      ((ctor.args.map Argument.matlabClass).zipIdx 1).map fun entry =>
        "isa(" ++ proxyParameter entry.2 ++ ",'" ++ entry.1 ++ "')") = ctor.guards := by
    rw [Constructor.guards, List.zipIdx_map, List.map_map]
    rfl
  rw [dispatchLine, mapM_ok matlabClass_eq, constructorName_eq, Class.dispatchLine?, ← guards]
  cases cls.constructorName? ctor <;> rfl

theorem proxy_eq : proxy cls = orNoLetter cls.proxy? := by
  rw [proxy, mapM_orNoLetter (dispatchLine_eq cls), map_orNoLetter]
  rfl

theorem constructorStub_eq : constructorStub cls ctor = orNoLetter (cls.constructorStub? ctor) := by
  rw [constructorStub, constructorName_eq, map_orNoLetter]
  rfl

theorem constructorFile_eq : constructorFile libraryNamespace cls ctor =
    orNoLetter (cls.constructorFile? libraryNamespace ctor) := by
  rw [constructorFile, constructorName_eq, map_orNoLetter]
  rfl

theorem staticMethodFile_eq (method : StaticMethod) : staticMethodFile libraryNamespace cls method =
    .ok (cls.staticMethodFile libraryNamespace method) := by
  rw [staticMethodFile, returnStatements_eq]
  rfl

theorem methodFile_eq (method : Method) : methodFile libraryNamespace cls method =
    .ok (cls.methodFile libraryNamespace method) := by
  rw [methodFile, returnStatements_eq]
  rfl

theorem compileCommands_eq :
    compileCommands mexFlags cls = orNoLetter (cls.compileCommands? mexFlags) := by
  rw [compileCommands, constructorNames_eq, map_orNoLetter]
  rfl

theorem rules_eq : rules cls = orNoLetter cls.rules? := by
  rw [rules, constructorNames_eq, map_orNoLetter, Class.rules?, Class.targets?, Option.map_map]
  rfl

end

end Careful

/-! ## What has no letter -/

theorem mapM_eq_none {α β : Type} {f : α → Option β} {xs : List α} {x : α} (member : x ∈ xs)
    (fails : f x = none) : xs.mapM f = none := by
  induction xs with
  | nil => cases member
  | cons first rest ih =>
      rw [List.mapM_cons]
      rcases List.mem_cons.mp member with rfl | inRest
      · rw [fails]
        rfl
      · rw [ih inRest]
        cases f first <;> rfl

theorem signature?_eq_none {args : List Argument} (nameless : ∃ arg ∈ args, arg.type = "") :
    signature? args = none := by
  obtain ⟨arg, member, empty⟩ := nameless
  have noLetter : arg.type.toList.head? = none := by rw [empty]; rfl
  rw [signature?, mapM_eq_none member noLetter]
  rfl

namespace Class

variable {cls : Class} {ctor : Constructor}

theorem constructorName?_eq_none (nameless : ∃ arg ∈ ctor.args, arg.type = "") :
    cls.constructorName? ctor = none := by
  rw [constructorName?, signature?_eq_none nameless]
  rfl

theorem exists_constructorName?_eq_none (h : ¬cls.NamesConstructorTypes) :
    ∃ ctor ∈ cls.constructors, cls.constructorName? ctor = none := by
  simp only [NamesConstructorTypes, Classical.not_forall, Classical.not_not] at h
  obtain ⟨ctor, member, arg, inArgs, empty⟩ := h
  exact ⟨ctor, member, constructorName?_eq_none ⟨arg, inArgs, empty⟩⟩

theorem constructorNames?_eq_none (h : ¬cls.NamesConstructorTypes) :
    cls.constructorNames? = none := by
  obtain ⟨ctor, member, noName⟩ := exists_constructorName?_eq_none h
  exact mapM_eq_none member noName

theorem proxy?_eq_none (h : ¬cls.NamesConstructorTypes) : cls.proxy? = none := by
  obtain ⟨ctor, member, noName⟩ := exists_constructorName?_eq_none h
  have noLine : cls.dispatchLine? ctor = none := by rw [dispatchLine?, noName]; rfl
  rw [proxy?, mapM_eq_none member noLine]
  rfl

end Class

/-! ## All renderings of a class -/

/-- What can be rendered of a class. -/
inductive Rendering where
  | proxy
  | compileCommands
  | rules
  | constructorName (ctor : Constructor)
  | constructorStub (ctor : Constructor)
  | constructorFile (ctor : Constructor)
  | staticMethodName (method : StaticMethod)
  | staticMethodStub (method : StaticMethod)
  | staticMethodFile (method : StaticMethod)
  | methodStub (method : Method)
  | methodFile (method : Method)
  deriving DecidableEq, Repr

namespace Rendering

/-- What is rendered of a class as a whole. -/
def ofWhole : List Rendering := [.proxy, .compileCommands, .rules]

def ofConstructor (ctor : Constructor) : List Rendering :=
  [.constructorName ctor, .constructorStub ctor, .constructorFile ctor]

def ofStaticMethod (method : StaticMethod) : List Rendering :=
  [.staticMethodName method, .staticMethodStub method, .staticMethodFile method]

def ofMethod (method : Method) : List Rendering := [.methodStub method, .methodFile method]

def ofClass (cls : Class) : List Rendering :=
  ofWhole ++ cls.constructors.flatMap ofConstructor ++
    cls.staticMethods.flatMap ofStaticMethod ++ cls.methods.flatMap ofMethod

variable (libraryNamespace mexFlags : String) (cls : Class)

/-- What the toolbox is made from. -/
def text? : Rendering → Option String
  | .proxy => cls.proxy?
  | .compileCommands => cls.compileCommands? mexFlags
  | .rules => cls.rules?
  | .constructorName ctor => cls.constructorName? ctor
  | .constructorStub ctor => cls.constructorStub? ctor
  | .constructorFile ctor => cls.constructorFile? libraryNamespace ctor
  | .staticMethodName method => some (cls.staticMethodName method)
  | .staticMethodStub method => some (cls.staticMethodStub method)
  | .staticMethodFile method => some (cls.staticMethodFile libraryNamespace method)
  | .methodStub method => some method.stub
  | .methodFile method => some (cls.methodFile libraryNamespace method)

/-- What the careful renderers give. -/
def careful : Rendering → Except RenderFault String
  | .proxy => Careful.proxy cls
  | .compileCommands => Careful.compileCommands mexFlags cls
  | .rules => Careful.rules cls
  | .constructorName ctor => Careful.constructorName cls ctor
  | .constructorStub ctor => Careful.constructorStub cls ctor
  | .constructorFile ctor => Careful.constructorFile libraryNamespace cls ctor
  | .staticMethodName method => .ok (cls.staticMethodName method)
  | .staticMethodStub method => .ok (cls.staticMethodStub method)
  | .staticMethodFile method => Careful.staticMethodFile libraryNamespace cls method
  | .methodStub method => .ok method.stub
  | .methodFile method => Careful.methodFile libraryNamespace cls method

theorem careful_eq (rendering : Rendering) :
    rendering.careful libraryNamespace mexFlags cls =
      orNoLetter (rendering.text? libraryNamespace mexFlags cls) := by
  cases rendering with
  | proxy => exact Careful.proxy_eq cls
  | compileCommands => exact Careful.compileCommands_eq mexFlags cls
  | rules => exact Careful.rules_eq cls
  | constructorName ctor => exact Careful.constructorName_eq cls ctor
  | constructorStub ctor => exact Careful.constructorStub_eq cls ctor
  | constructorFile ctor => exact Careful.constructorFile_eq libraryNamespace cls ctor
  | staticMethodFile method => exact Careful.staticMethodFile_eq libraryNamespace cls method
  | methodFile method => exact Careful.methodFile_eq libraryNamespace cls method
  | staticMethodName _ | staticMethodStub _ | methodStub _ => rfl

end Rendering

/-- Which renderings of a class fail and how, whatever the class holds. -/
structure Class.RendersExactly (cls : Class) (libraryNamespace mexFlags : String) : Prop where
  /-- No table and no pair ever fails, and a missing letter shows as a missing text. -/
  agrees : ∀ rendering : Rendering, rendering.careful libraryNamespace mexFlags cls =
    orNoLetter (rendering.text? libraryNamespace mexFlags cls)
  renders_iff : (∀ rendering ∈ Rendering.ofClass cls,
    ∃ text, rendering.careful libraryNamespace mexFlags cls = .ok text) ↔ cls.NamesConstructorTypes
  whole : ¬cls.NamesConstructorTypes → ∀ rendering ∈ Rendering.ofWhole,
    rendering.careful libraryNamespace mexFlags cls = .error .noLetter
  nameless : ∀ ctor : Constructor, (∃ arg ∈ ctor.args, arg.type = "") →
    ∀ rendering ∈ Rendering.ofConstructor ctor,
      rendering.careful libraryNamespace mexFlags cls = .error .noLetter
  named : ∀ ctor : Constructor, (∀ arg ∈ ctor.args, arg.type ≠ "") →
    ∀ rendering ∈ Rendering.ofConstructor ctor,
      ∃ text, rendering.careful libraryNamespace mexFlags cls = .ok text
  staticMethod : ∀ method : StaticMethod, ∀ rendering ∈ Rendering.ofStaticMethod method,
    ∃ text, rendering.careful libraryNamespace mexFlags cls = .ok text
  method : ∀ method : Method, ∀ rendering ∈ Rendering.ofMethod method,
    ∃ text, rendering.careful libraryNamespace mexFlags cls = .ok text

namespace Rendering

variable {libraryNamespace mexFlags : String} {cls : Class} {ctor : Constructor}

/-! ### Renderings that fail and renderings that do not -/

theorem careful_whole_of_nameless (h : ¬cls.NamesConstructorTypes) {rendering : Rendering}
    (member : rendering ∈ ofWhole) :
    rendering.careful libraryNamespace mexFlags cls = .error .noLetter := by
  have noNames := Class.constructorNames?_eq_none h
  have noText : rendering.text? libraryNamespace mexFlags cls = none := by
    simp only [ofWhole, List.mem_cons, List.not_mem_nil, or_false] at member
    rcases member with rfl | rfl | rfl
    · exact Class.proxy?_eq_none h
    · simp [text?, Class.compileCommands?, noNames]
    · simp [text?, Class.rules?, Class.targets?, noNames]
  rw [careful_eq, noText]
  rfl

theorem careful_constructor_of_nameless (h : ∃ arg ∈ ctor.args, arg.type = "")
    {rendering : Rendering} (member : rendering ∈ ofConstructor ctor) :
    rendering.careful libraryNamespace mexFlags cls = .error .noLetter := by
  have noName : cls.constructorName? ctor = none := Class.constructorName?_eq_none h
  have noText : rendering.text? libraryNamespace mexFlags cls = none := by
    simp only [ofConstructor, List.mem_cons, List.not_mem_nil, or_false] at member
    rcases member with rfl | rfl | rfl <;>
      simp [text?, Class.constructorStub?, Class.constructorFile?, noName]
  rw [careful_eq, noText]
  rfl

theorem exists_careful_whole (h : cls.NamesConstructorTypes) {rendering : Rendering}
    (member : rendering ∈ ofWhole) :
    ∃ text, rendering.careful libraryNamespace mexFlags cls = .ok text := by
  obtain ⟨text, rendered⟩ : ∃ text, rendering.text? libraryNamespace mexFlags cls = some text := by
    simp only [ofWhole, List.mem_cons, List.not_mem_nil, or_false] at member
    rcases member with rfl | rfl | rfl
    · exact h.exists_proxy?
    · exact h.exists_compileCommands? mexFlags
    · exact h.exists_rules?
  exact ⟨text, by rw [careful_eq, rendered]; rfl⟩

theorem exists_careful_constructor (h : ∀ arg ∈ ctor.args, arg.type ≠ "") {rendering : Rendering}
    (member : rendering ∈ ofConstructor ctor) :
    ∃ text, rendering.careful libraryNamespace mexFlags cls = .ok text := by
  obtain ⟨letters, signed⟩ := exists_signature? h
  obtain ⟨text, rendered⟩ : ∃ text, rendering.text? libraryNamespace mexFlags cls = some text := by
    simp only [ofConstructor, List.mem_cons, List.not_mem_nil, or_false] at member
    rcases member with rfl | rfl | rfl <;>
      simp [text?, Class.constructorStub?, Class.constructorFile?, Class.constructorName?, signed]
  exact ⟨text, by rw [careful_eq, rendered]; rfl⟩

theorem exists_careful_staticMethod {method : StaticMethod} {rendering : Rendering}
    (member : rendering ∈ ofStaticMethod method) :
    ∃ text, rendering.careful libraryNamespace mexFlags cls = .ok text := by
  simp only [ofStaticMethod, List.mem_cons, List.not_mem_nil, or_false] at member
  rcases member with rfl | rfl | rfl <;> exact ⟨_, careful_eq libraryNamespace mexFlags cls _⟩

theorem exists_careful_method {method : Method} {rendering : Rendering}
    (member : rendering ∈ ofMethod method) :
    ∃ text, rendering.careful libraryNamespace mexFlags cls = .ok text := by
  simp only [ofMethod, List.mem_cons, List.not_mem_nil, or_false] at member
  rcases member with rfl | rfl <;> exact ⟨_, careful_eq libraryNamespace mexFlags cls _⟩

end Rendering

theorem Class.rendersExactly (cls : Class) (libraryNamespace mexFlags : String) :
    cls.RendersExactly libraryNamespace mexFlags where
  agrees := Rendering.careful_eq libraryNamespace mexFlags cls
  renders_iff := by
    constructor
    · intro all
      refine Decidable.byContradiction fun nameless => ?_
      have member : Rendering.proxy ∈ Rendering.ofClass cls := by
        simp [Rendering.ofClass, Rendering.ofWhole]
      obtain ⟨text, rendered⟩ := all .proxy member
      have inWhole : Rendering.proxy ∈ Rendering.ofWhole := List.mem_cons_self
      rw [Rendering.careful_whole_of_nameless nameless inWhole] at rendered
      cases rendered
    · intro names rendering member
      simp only [Rendering.ofClass, List.mem_append, List.mem_flatMap] at member
      rcases member with ((whole | ⟨ctor, inClass, ofCtor⟩) | ⟨method, -, ofMethod⟩) |
        ⟨method, -, ofMethod⟩
      · exact Rendering.exists_careful_whole names whole
      · exact Rendering.exists_careful_constructor (names ctor inClass) ofCtor
      · exact Rendering.exists_careful_staticMethod ofMethod
      · exact Rendering.exists_careful_method ofMethod
  whole nameless _ member := Rendering.careful_whole_of_nameless nameless member
  nameless _ nameless _ member := Rendering.careful_constructor_of_nameless nameless member
  named _ named _ member := Rendering.exists_careful_constructor named member
  staticMethod _ _ member := Rendering.exists_careful_staticMethod member
  method _ _ member := Rendering.exists_careful_method member

end MexGlue
