import MexGlue.Storage.Path

/-!
# Disks

A disk is seen from its root directory, which always exists and is its own parent. Every other
place holds nothing, a directory, a file, or a device that can be opened but has no room. Nothing is
ever removed, so all that an operation does is to put nodes in places.

An operation can fail because a directory is missing or is something else, because a directory
stands where a file should be, or because a name or a whole path is too long. Making directories
keeps those that were made before it failed.
-/

namespace MexGlue

/-- A place on a disk: the names on the way to it from the root. -/
abbrev Location := List String

/-- How the contents of two files are compared: byte by byte. -/
local instance contentDecidableEq : DecidableEq ByteArray := fun a b =>
  decidable_of_iff (a.data = b.data) ByteArray.ext_iff.symm

inductive Node where
  | directory
  | file (content : ByteArray)
  /-- Opening it works and writing to it does not. It counts as what cannot be read, though reading it
  does not fail but never ends. -/
  | fullDevice
  deriving DecidableEq

/-- The nodes of a disk apart from its root, in the order in which they came. -/
structure Disk where
  nodes : List (Location × Node) := []
  deriving DecidableEq

namespace Disk

/-- The longest name of a node, in bytes. -/
def nameLimit : Nat := 255

/-- The first length of a path that is too long, in bytes. -/
def pathLimit : Nat := 4096

def nameFits (name : String) : Bool := decide (name.utf8ByteSize ≤ nameLimit)

def pathFits (path : Path) : Bool := decide (path.text.utf8ByteSize < pathLimit)

def find? (disk : Disk) (location : Location) : Option Node :=
  if location = [] then some .directory else disk.nodes.lookup location

/-- The nodes with one of them put in its place, or added behind them. -/
def putNode (location : Location) (node : Node) :
    List (Location × Node) → List (Location × Node)
  | [] => [(location, node)]
  | entry :: rest =>
      if entry.1 = location then (location, node) :: rest
      else entry :: putNode location node rest

def put (disk : Disk) (location : Location) (node : Node) : Disk :=
  ⟨putNode location node disk.nodes⟩

def isDirectory (disk : Disk) (location : Location) : Bool :=
  disk.find? location == some .directory

/-- Where a walk along existing directories ends. -/
def walk? (disk : Disk) (here : Location) : List String → Option Location
  | [] => some here
  | name :: rest =>
      if name = Path.up then disk.walk? here.dropLast rest
      else if disk.isDirectory (here ++ [name]) then disk.walk? (here ++ [name]) rest
      else none

/-- The place of the file that a path names, whether it exists or not. -/
def place? (disk : Disk) (path : Path) : Option Location :=
  match path.components.getLast? with
  | none => none
  | some name =>
      if name = Path.up || !nameFits name || !pathFits path then none
      else (disk.walk? [] path.components.dropLast).map (· ++ [name])

def read? (disk : Disk) (path : Path) : Option ByteArray :=
  match (disk.place? path).bind disk.find? with
  | some (.file content) => some content
  | _ => none

/-- Makes the directories of a walk that do not exist, as far as that works, and tells whether all
of them exist now. -/
def makeAlong (disk : Disk) (here : Location) : List String → Disk × Bool
  | [] => (disk, true)
  | name :: rest =>
      if name = Path.up then disk.makeAlong here.dropLast rest
      else
        match disk.find? (here ++ [name]) with
        | some .directory => disk.makeAlong (here ++ [name]) rest
        | some _ => (disk, false)
        | none =>
            if nameFits name then
              (disk.put (here ++ [name]) .directory).makeAlong (here ++ [name]) rest
            else (disk, false)

def makeDirectories (disk : Disk) (path : Path) : Disk × Bool :=
  if pathFits path then disk.makeAlong [] path.components else (disk, false)

theorem lookup_putNode (location other : Location) (node : Node)
    (nodes : List (Location × Node)) :
    (putNode location node nodes).lookup other =
      if other = location then some node else nodes.lookup other := by
  induction nodes with
  | nil =>
      by_cases same : other = location
      · simp [putNode, same]
      · simp [putNode, List.lookup_cons, same, beq_false_of_ne same]
  | cons entry nodes ih =>
      obtain ⟨place, old⟩ := entry
      by_cases h : place = location
      · by_cases same : other = location
        · simp [putNode, h, same]
        · simp [putNode, List.lookup_cons, h, same, beq_false_of_ne same]
      · by_cases same : other = place
        · simp [putNode, h, same]
        · simp [putNode, List.lookup_cons, h, beq_false_of_ne same, ih]

/-- A node is found where it was put, and all else is as it was. -/
theorem find?_put (disk : Disk) {location : Location} (node : Node) (other : Location)
    (below : location ≠ []) :
    (disk.put location node).find? other =
      if other = location then some node else disk.find? other := by
  by_cases root : other = []
  · simp [find?, root, Ne.symm below]
  · simp [find?, root, put, lookup_putNode]

end Disk

end MexGlue
