import MexGlue.Interface.Load
import MexGlue.Proofs.Text.LineEnds
import MexGlue.Proofs.Text.Utf8

/-!
# Loading an interface file

A file that can be opened is decoded, its line ends are made uniform, and the text is read. Only
decoding fails as opening does. Since bytes encode one text at most and uniform line ends forget how
they were spelled, files that spell one text load alike.
-/

namespace MexGlue.Interface

variable {content : ByteArray} {characters : List Char}

theorem decode?_of_encodes (encodes : Utf8.Encodes content.data.toList characters) :
    decode? content = some (String.ofList (Text.normalizeLineEnds characters)) := by
  have decoded : String.fromUTF8? content = some (String.ofList characters) :=
    Utf8.fromUTF8?_eq_some_iff.mpr (by rwa [String.toList_ofList])
  rw [decode?, decoded, Option.map_some, String.toList_ofList]

theorem decode?_eq_none_iff :
    decode? content = none ↔ ¬∃ characters, Utf8.Encodes content.data.toList characters := by
  constructor
  · rintro none ⟨characters, encodes⟩
    rw [decode?_of_encodes encodes] at none
    cases none
  · intro undecodable
    rw [decode?, Option.map_eq_none_iff, Option.eq_none_iff_forall_ne_some]
    intro string decoded
    exact undecodable ⟨_, Utf8.fromUTF8?_eq_some_iff.mp decoded⟩

-- Three bytes in the form of a character hold a surrogate.
example : decode? ⟨#[0xED, 0xA0, 0x80]⟩ = none := by decide +kernel

section

variable {directory : Path} {name : String} {verbose : Bool} {disk : Disk}

theorem load_of_decode?_eq_none (opened : disk.read? (file directory name) = some content)
    (undecodable : decode? content = none) :
    load directory name verbose disk = .error (.cannotOpen (file directory name)) := by
  simp only [load, ofFile, opened, Option.bind_some, undecodable]

theorem load_of_encodes (opened : disk.read? (file directory name) = some content)
    (encodes : Utf8.Encodes content.data.toList characters) :
    load directory name verbose disk =
      (ofText name verbose (String.ofList (Text.normalizeLineEnds characters))).mapError .parse := by
  simp only [load, ofFile, opened, Option.bind_some, decode?_of_encodes encodes]
  cases ofText name verbose (String.ofList (Text.normalizeLineEnds characters)) <;> rfl

end

/-- What loading an interface makes of the bytes in its file. -/
structure LoadsBytes (directory : Path) (name : String) (verbose : Bool) (disk : Disk)
    (bytes : List UInt8) : Prop where
  /-- Bytes that encode no text, and only these, make the file count as one that cannot be opened. -/
  cannotOpen_iff : load directory name verbose disk =
      .error (.cannotOpen (file directory name)) ↔
    ¬∃ characters, Utf8.Encodes bytes characters
  unique : ∀ {characters characters' : List Char}, Utf8.Encodes bytes characters →
    Utf8.Encodes bytes characters' → characters = characters'
  parses : ∀ {characters : List Char}, Utf8.Encodes bytes characters →
    load directory name verbose disk =
      (ofText name verbose (String.ofList (Text.normalizeLineEnds characters))).mapError .parse
  /-- What is parsed is the one text that the file spells. -/
  spells_iff : ∀ {characters text : List Char}, Utf8.Encodes bytes characters →
    (Text.Spells characters text ↔ Text.normalizeLineEnds characters = text)
  /-- Files that spell the line ends of one text in their own ways, in any directories and on any
  disks, load alike. -/
  alike : ∀ {characters text : List Char}, Utf8.Encodes bytes characters →
    Text.Spells characters text →
    ∀ {directory' : Path} {disk' : Disk} {content' : ByteArray} {characters' : List Char},
      disk'.read? (file directory' name) = some content' →
      Utf8.Encodes content'.data.toList characters' → Text.Spells characters' text →
      load directory' name verbose disk' = load directory name verbose disk

theorem load_loadsBytes {directory : Path} {name : String} {disk : Disk} {content : ByteArray}
    (opened : disk.read? (file directory name) = some content) (verbose : Bool) :
    LoadsBytes directory name verbose disk content.data.toList where
  cannotOpen_iff := by
    rw [← decode?_eq_none_iff]
    constructor
    · intro failed
      by_contra decodes
      rw [decode?_eq_none_iff, not_not] at decodes
      obtain ⟨characters, encodes⟩ := decodes
      rw [load_of_encodes opened encodes] at failed
      cases read : ofText name verbose (String.ofList (Text.normalizeLineEnds characters)) with
      | error failure => rw [read] at failed; cases failed
      | ok interface => rw [read] at failed; cases failed
    · exact load_of_decode?_eq_none opened
  unique := Utf8.Encodes.unique
  parses := load_of_encodes opened
  spells_iff _ := Text.normalizeLineEnds_eq_iff.symm
  alike := by
    intro characters text encodes spells _ _ _ characters' opened' encodes' spells'
    rw [load_of_encodes opened encodes, load_of_encodes opened' encodes',
      Text.normalizeLineEnds_eq_iff.mpr spells, Text.normalizeLineEnds_eq_iff.mpr spells']

/-- A file whose only line ends with a carriage return and a line feed loads like one whose line
ends with a carriage return. -/
theorem load_loadsBytes_returns :
    let file := "class A { };\r".toUTF8
    let file' := "class A { };\r\n".toUTF8
    let disk : Disk := ⟨[(["in"], .directory), (["in", "m.h"], .file file)]⟩
    let disk' : Disk := ⟨[(["m.h"], .file file')]⟩
    disk.read? (Interface.file (.ofText "in") "m") = some file ∧
      load (.ofText "") "m" false disk' = load (.ofText "in") "m" false disk := by
  intro file file' disk disk'
  have opened : disk.read? (Interface.file (.ofText "in") "m") = some file := by decide +kernel
  have opened' : disk'.read? (Interface.file (.ofText "") "m") = some file' := by decide +kernel
  have loads := load_loadsBytes opened false
  have encodes := Utf8.encodes_toUTF8 "class A { };\r"
  have encodes' := Utf8.encodes_toUTF8 "class A { };\r\n"
  have spells := (loads.spells_iff encodes).mpr rfl
  have spells' := Text.spells_normalizeLineEnds "class A { };\r\n".toList
  have same : Text.normalizeLineEnds "class A { };\r\n".toList =
      Text.normalizeLineEnds "class A { };\r".toList := by decide +kernel
  exact ⟨opened, loads.alike encodes spells opened' encodes' (same ▸ spells')⟩

end MexGlue.Interface
