import MexGlue.Proofs.Toolbox.Steps

/-!
# The layout of a toolbox

What a toolbox consists of: the directories of its classes, the files that are written as a whole,
and the contents of its make script and its Makefile. The parts of a layout are put behind each other
in the order in which they come about, and of two files with one place the later one counts. A run
has left a layout if all of it is there and nothing else on the disk is changed.
-/

namespace MexGlue

/-- A file that is written as a whole, by its place in the toolbox. -/
structure Artifact where
  place : Location
  text : String
  deriving DecidableEq, Repr

structure Layout where
  /-- The directories right below the toolbox. -/
  directories : List String := []
  /-- The files written as a whole, in the order of writing. -/
  artifacts : List Artifact := []
  script : String := ""
  makefile : String := ""
  deriving DecidableEq, Repr

namespace Layout

def append (first second : Layout) : Layout where
  directories := first.directories ++ second.directories
  artifacts := first.artifacts ++ second.artifacts
  script := first.script ++ second.script
  makefile := first.makefile ++ second.makefile

@[simp] theorem empty_append (layout : Layout) : append {} layout = layout := by
  simp [append]

@[simp] theorem append_empty (layout : Layout) : layout.append {} = layout := by
  simp [append]

theorem append_assoc (first second third : Layout) :
    (first.append second).append third = first.append (second.append third) := by
  simp [append, List.append_assoc, String.append_assoc]

/-- All parts behind each other, if there is each of them. -/
def concat? : List (Option Layout) → Option Layout
  | [] => some {}
  | part :: parts => part.bind fun layout => (concat? parts).map layout.append

@[simp] theorem concat?_singleton (part : Option Layout) : concat? [part] = part := by
  cases part <;> simp [concat?]

theorem concat?_append (first second : List (Option Layout)) : concat? (first ++ second) =
    (concat? first).bind fun layout => (concat? second).map layout.append := by
  induction first with
  | nil => cases found : concat? second <;> simp [concat?, found]
  | cons part parts ih =>
      rw [List.cons_append, concat?, concat?, ih]
      cases part with
      | none => rfl
      | some layout =>
          cases concat? parts with
          | none => rfl
          | some others => cases concat? second <;> simp [append_assoc]

/-- The stub and the C++ file of a function, in some directory of the toolbox. -/
def ofFunction (inside : Location) (name stub cppFile : String) : Layout where
  artifacts := [⟨inside ++ [name ++ ".m"], stub⟩, ⟨inside ++ [name ++ ".cpp"], cppFile⟩]

end Layout

namespace Class

/-- The directory of a class and the proxy in it. -/
def proxyLayout? (cls : Class) : Option Layout :=
  cls.proxy?.map fun proxy =>
    { directories := [cls.directory]
      artifacts := [⟨[cls.directory, cls.matlabName ++ ".m"], proxy⟩] }

def constructorLayout? (libraryNamespace : String) (cls : Class) (ctor : Constructor) :
    Option Layout := do
  let name ← cls.constructorName? ctor
  let stub ← cls.constructorStub? ctor
  let cppFile ← cls.constructorFile? libraryNamespace ctor
  return .ofFunction [] name stub cppFile

def staticMethodLayout (libraryNamespace : String) (cls : Class) (method : StaticMethod) : Layout :=
  .ofFunction [] (cls.staticMethodName method) (cls.staticMethodStub method)
    (cls.staticMethodFile libraryNamespace method)

/-- The files of a method, which are beside the proxy. -/
def methodLayout (libraryNamespace : String) (cls : Class) (method : Method) : Layout :=
  .ofFunction [cls.directory] method.name method.stub (cls.methodFile libraryNamespace method)

/-- A class's sections of the make script and the Makefile. -/
def sectionLayout? (mexFlags : String) (cls : Class) : Option Layout := do
  let commands ← cls.compileCommands? mexFlags
  let rules ← cls.rules?
  return {
    script := MakeScript.sectionTitle cls ++ MakeScript.returnLine ++ commands
    makefile := Makefile.sectionTitle cls ++ rules }

def layout? (options : ToolboxOptions) (cls : Class) : Option Layout :=
  Layout.concat?
    ([cls.proxyLayout?] ++
      cls.constructors.map (cls.constructorLayout? options.libraryNamespace) ++
      cls.staticMethods.map
        (fun method => some (cls.staticMethodLayout options.libraryNamespace method)) ++
      cls.methods.map (fun method => some (cls.methodLayout options.libraryNamespace method)) ++
      [cls.sectionLayout? options.mexFlags])

end Class

namespace Toolbox

/-- The starts of the make script and of the Makefile, which names all classes. -/
def openingLayout (toolbox : Toolbox) : Layout where
  script := MakeScript.header
  makefile :=
    Makefile.header toolbox.options.mexExtension toolbox.options.makefileFlags
      toolbox.interface.classes

/-- The ends of the make script and of the Makefile. -/
def closingLayout (toolbox : Toolbox) : Layout where
  script := MakeScript.trailer
  makefile := Makefile.cleanRule toolbox.interface.classes

/-- A whole toolbox. -/
def layout? (toolbox : Toolbox) : Option Layout :=
  Layout.concat?
    ([some toolbox.openingLayout] ++
      toolbox.interface.classes.map (Class.layout? toolbox.options) ++
      [some toolbox.closingLayout])

/-- A toolbox that ends with the proxy of the class with this number. -/
def layoutUntil? (toolbox : Toolbox) (number : Nat) (cls : Class) : Option Layout :=
  Layout.concat?
    ([some toolbox.openingLayout] ++
      (toolbox.interface.classes.take number).map (Class.layout? toolbox.options) ++
      [cls.proxyLayout?])

/-- Whether no file that is written as a whole has the place of the make script or the Makefile,
which could not hold two texts at once. -/
def WritesApart (toolbox : Toolbox) : Prop :=
  ∀ step ∈ toolbox.plan, ∀ write ∈ step.writes,
    write.1 ≠ toolbox.scriptPath.location ∧ write.1 ≠ toolbox.makefilePath.location

instance (toolbox : Toolbox) : Decidable toolbox.WritesApart :=
  inferInstanceAs (Decidable (∀ step ∈ toolbox.plan, ∀ write ∈ step.writes,
    write.1 ≠ toolbox.scriptPath.location ∧ write.1 ≠ toolbox.makefilePath.location))

/-- Whether a run from one disk to another has left exactly this layout. -/
structure HasLeft (toolbox : Toolbox) (layout : Layout) (before after : Disk) : Prop where
  /-- The toolbox directory and all directories on the way to it. -/
  parents : ∀ location ∈ toolbox.directory.trail, after.find? location = some .directory
  directories : ∀ name ∈ layout.directories,
    after.find? (toolbox.directory.location ++ [name]) = some .directory
  script : after.find? toolbox.scriptPath.location = some (.file layout.script.toUTF8)
  makefile : after.find? toolbox.makefilePath.location = some (.file layout.makefile.toUTF8)
  /-- A file holds what was written last to its place, and nothing of what was there before. -/
  artifacts : ∀ earlier artifact later, layout.artifacts = earlier ++ artifact :: later →
    (∀ other ∈ later, other.place ≠ artifact.place) →
    after.find? (toolbox.directory.location ++ artifact.place) =
      some (.file artifact.text.toUTF8)
  unchanged : ∀ location, location ∉ toolbox.directory.trail →
    (∀ name ∈ layout.directories, location ≠ toolbox.directory.location ++ [name]) →
    location ≠ toolbox.scriptPath.location → location ≠ toolbox.makefilePath.location →
    (∀ artifact ∈ layout.artifacts, location ≠ toolbox.directory.location ++ artifact.place) →
    after.find? location = before.find? location

end Toolbox

end MexGlue
