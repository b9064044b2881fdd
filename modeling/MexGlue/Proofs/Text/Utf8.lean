import Mathlib.Data.List.Forall2

/-!
# UTF-8

A character is encoded in one to four bytes. A table gives the ranges of these bytes row by row. It
leaves out the longer encodings of what a shorter row encodes, the surrogates, and what lies behind
the last character. A sequence of bytes encodes a text if it can be cut into rows, and then it
encodes no other text. What the library decodes is exactly what the table allows.
-/

namespace MexGlue.Utf8

/-- The least and the greatest value of a byte. -/
abbrev ByteRange := Nat × Nat

/-- Bytes behind the first one. -/
def tail : ByteRange := (0x80, 0xBF)

/-- The ranges of the bytes of one character. -/
def rows : List (List ByteRange) :=
  [[(0x00, 0x7F)],
    [(0xC2, 0xDF), tail],
    [(0xE0, 0xE0), (0xA0, 0xBF), tail],
    [(0xE1, 0xEC), tail, tail],
    [(0xED, 0xED), (0x80, 0x9F), tail],
    [(0xEE, 0xEF), tail, tail],
    [(0xF0, 0xF0), (0x90, 0xBF), tail, tail],
    [(0xF1, 0xF3), tail, tail, tail],
    [(0xF4, 0xF4), (0x80, 0x8F), tail, tail]]

def InRange (range : ByteRange) (byte : UInt8) : Prop :=
  range.1 ≤ byte.toNat ∧ byte.toNat ≤ range.2

/-- Whether these are the bytes of one character. -/
def IsCharacter (bytes : List UInt8) : Prop := ∃ row ∈ rows, List.Forall₂ InRange row bytes

/-- What the first byte of a character has beyond its share of the number, with so many bytes
behind it. -/
def marker : Nat → Nat
  | 0 => 0
  | 1 => 0xC0
  | 2 => 0xE0
  | _ => 0xF0

/-- The number that the bytes of a character hold, with six bits in each byte behind the first. -/
def codePoint : List UInt8 → Nat
  | [] => 0
  | first :: behind =>
      behind.foldl (fun number byte => number * 64 + (byte.toNat - 0x80))
        (first.toNat - marker behind.length)

/-- The bytes that encode a text. -/
inductive Encodes : List UInt8 → List Char → Prop where
  | nil : Encodes [] []
  | cons {bytes rest : List UInt8} {c : Char} {text : List Char} (isCharacter : IsCharacter bytes)
      (holds : codePoint bytes = c.toNat) (behind : Encodes rest text) :
      Encodes (bytes ++ rest) (c :: text)

/-! ## One character -/

section

variable {a b c d : UInt8}

theorem codePoint_one : codePoint [a] = a.toNat := rfl

theorem codePoint_two : codePoint [a, b] = (a.toNat - 0xC0) * 64 + (b.toNat - 0x80) := rfl

theorem codePoint_three :
    codePoint [a, b, c] =
      ((a.toNat - 0xE0) * 64 + (b.toNat - 0x80)) * 64 + (c.toNat - 0x80) := rfl

theorem codePoint_four :
    codePoint [a, b, c, d] =
      (((a.toNat - 0xF0) * 64 + (b.toNat - 0x80)) * 64 + (c.toNat - 0x80)) * 64 +
        (d.toNat - 0x80) := rfl

theorem isCharacter_one : IsCharacter [a] ↔ a.toNat ≤ 0x7F := by
  simp [IsCharacter, rows, InRange]

theorem isCharacter_two :
    IsCharacter [a, b] ↔ InRange (0xC2, 0xDF) a ∧ InRange tail b := by
  simp [IsCharacter, rows]

theorem isCharacter_three :
    IsCharacter [a, b, c] ↔
      (InRange (0xE0, 0xE0) a ∧ InRange (0xA0, 0xBF) b ∧ InRange tail c) ∨
      (InRange (0xE1, 0xEC) a ∧ InRange tail b ∧ InRange tail c) ∨
      (InRange (0xED, 0xED) a ∧ InRange (0x80, 0x9F) b ∧ InRange tail c) ∨
      (InRange (0xEE, 0xEF) a ∧ InRange tail b ∧ InRange tail c) := by
  simp [IsCharacter, rows]

theorem isCharacter_four :
    IsCharacter [a, b, c, d] ↔
      (InRange (0xF0, 0xF0) a ∧ InRange (0x90, 0xBF) b ∧ InRange tail c ∧ InRange tail d) ∨
      (InRange (0xF1, 0xF3) a ∧ InRange tail b ∧ InRange tail c ∧ InRange tail d) ∨
      (InRange (0xF4, 0xF4) a ∧ InRange (0x80, 0x8F) b ∧ InRange tail c ∧ InRange tail d) := by
  simp [IsCharacter, rows]

end

theorem isCharacter_utf8EncodeChar (c : Char) :
    IsCharacter (String.utf8EncodeChar c) ∧ codePoint (String.utf8EncodeChar c) = c.toNat := by
  have valid : c.val.toNat < 0xD800 ∨ (0xDFFF < c.val.toNat ∧ c.val.toNat < 0x110000) := c.valid
  have number : c.toNat = c.val.toNat := rfl
  rw [number, String.utf8EncodeChar]
  generalize c.val.toNat = v at valid
  by_cases one : v ≤ 127
  · simp only [if_pos one, isCharacter_one, codePoint_one, UInt8.toNat_ofNat']
    omega
  by_cases two : v ≤ 2047
  · simp only [if_neg one, if_pos two, isCharacter_two, InRange, tail, codePoint_two,
      UInt8.toNat_ofNat']
    omega
  by_cases three : v ≤ 65535
  · simp only [if_neg one, if_neg two, if_pos three, isCharacter_three, InRange, tail,
      codePoint_three, UInt8.toNat_ofNat']
    omega
  · simp only [if_neg one, if_neg two, if_neg three, isCharacter_four, InRange, tail,
      codePoint_four, UInt8.toNat_ofNat']
    omega

/-- A character has one to four bytes. -/
theorem IsCharacter.exists_bytes {bytes : List UInt8} (h : IsCharacter bytes) :
    (∃ a, bytes = [a]) ∨ (∃ a b, bytes = [a, b]) ∨ (∃ a b c, bytes = [a, b, c]) ∨
      ∃ a b c d, bytes = [a, b, c, d] := by
  match bytes, h with
  | [a], _ => exact .inl ⟨a, rfl⟩
  | [a, b], _ => exact .inr (.inl ⟨a, b, rfl⟩)
  | [a, b, c], _ => exact .inr (.inr (.inl ⟨a, b, c, rfl⟩))
  | [a, b, c, d], _ => exact .inr (.inr (.inr ⟨a, b, c, d, rfl⟩))
  | [], h => simp [IsCharacter, rows] at h
  | _ :: _ :: _ :: _ :: _ :: _, h => simp [IsCharacter, rows] at h

/-- A byte of the first row is a character of its own. -/
theorem IsCharacter.eq_of_mem {bytes : List UInt8} {byte : UInt8} (h : IsCharacter bytes)
    (member : byte ∈ bytes) (small : byte.toNat ≤ 0x7F) : bytes = [byte] := by
  have other : ∀ row ∈ rows, row = [(0x00, 0x7F)] ∨ ∀ range ∈ row, 0x80 ≤ range.1 := by decide
  obtain ⟨row, inRows, all⟩ := h
  obtain ⟨i, inBytes, rfl⟩ := List.getElem_of_mem member
  have inRow : i < row.length := by rwa [all.length_eq]
  have least : (row.get ⟨i, inRow⟩).1 ≤ bytes[i].toNat := (all.get inRow inBytes).1
  rcases other row inRows with rfl | large
  · obtain ⟨a, rfl⟩ := List.length_eq_one_iff.mp all.length_eq.symm
    rw [List.mem_singleton.mp member]
  · have larger := large _ (List.get_mem row ⟨i, inRow⟩)
    omega

/-- The bytes of a character are told by its number. -/
theorem IsCharacter.eq_utf8EncodeChar {bytes : List UInt8} {c : Char} (h : IsCharacter bytes)
    (holds : codePoint bytes = c.toNat) : bytes = String.utf8EncodeChar c := by
  have number : c.toNat = c.val.toNat := rfl
  rw [number] at holds
  rw [String.utf8EncodeChar]
  generalize c.val.toNat = v at holds
  obtain ⟨a, rfl⟩ | ⟨a, b, rfl⟩ | ⟨a, b, c, rfl⟩ | ⟨a, b, c, d, rfl⟩ := h.exists_bytes
  · simp only [isCharacter_one] at h
    simp only [codePoint_one] at holds
    have one : v ≤ 127 := by omega
    simp only [if_pos one, List.cons.injEq, ← UInt8.toNat_inj, UInt8.toNat_ofNat', and_true]
    omega
  · simp only [isCharacter_two, InRange, tail] at h
    simp only [codePoint_two] at holds
    have one : ¬v ≤ 127 := by omega
    have two : v ≤ 2047 := by omega
    simp only [if_neg one, if_pos two, List.cons.injEq, ← UInt8.toNat_inj, UInt8.toNat_ofNat',
      and_true]
    omega
  · simp only [isCharacter_three, InRange, tail] at h
    simp only [codePoint_three] at holds
    have two : ¬v ≤ 2047 := by omega
    have one : ¬v ≤ 127 := by omega
    have three : v ≤ 65535 := by omega
    simp only [if_neg one, if_neg two, if_pos three, List.cons.injEq, ← UInt8.toNat_inj,
      UInt8.toNat_ofNat', and_true]
    omega
  · simp only [isCharacter_four, InRange, tail] at h
    simp only [codePoint_four] at holds
    have three : ¬v ≤ 65535 := by omega
    have two : ¬v ≤ 2047 := by omega
    have one : ¬v ≤ 127 := by omega
    simp only [if_neg one, if_neg two, if_neg three, List.cons.injEq, ← UInt8.toNat_inj,
      UInt8.toNat_ofNat', and_true]
    omega

/-! ## Whole texts -/

variable {bytes : List UInt8} {text text' : List Char}

theorem encodes_iff : Encodes bytes text ↔ bytes = text.flatMap String.utf8EncodeChar := by
  constructor
  · intro h
    induction h with
    | nil => rfl
    | cons isCharacter holds behind ih =>
        rw [List.flatMap_cons, isCharacter.eq_utf8EncodeChar holds, ih]
  · rintro rfl
    induction text with
    | nil => exact .nil
    | cons c text ih =>
        obtain ⟨isCharacter, holds⟩ := isCharacter_utf8EncodeChar c
        exact .cons isCharacter holds ih

theorem encodes_data_iff {content : ByteArray} :
    Encodes content.data.toList text ↔ content = text.utf8Encode := by
  rw [encodes_iff, List.utf8Encode]
  constructor
  · intro same
    rw [← same]
    exact ByteArray.ext (by simp)
  · rintro rfl
    simp

theorem encodes_toUTF8 (string : String) : Encodes string.toUTF8.data.toList string.toList := by
  rw [encodes_data_iff, ← String.toByteArray_ofList, String.ofList_toList]
  rfl

theorem Encodes.unique (h : Encodes bytes text) (h' : Encodes bytes text') : text = text' := by
  have same : text.utf8Encode = text'.utf8Encode := by
    rw [List.utf8Encode, List.utf8Encode, ← encodes_iff.mp h, ← encodes_iff.mp h']
  rw [← String.toByteArray_ofList, ← String.toByteArray_ofList, String.toByteArray_inj] at same
  exact String.ofList_injective same

/-- Wherever a byte of the first row stands, a text can be cut at its character. -/
theorem Encodes.exists_cut {front back : List UInt8} {byte : UInt8}
    (h : Encodes (front ++ byte :: back) text) (small : byte.toNat ≤ 0x7F) :
    ∃ before c after, text = before ++ c :: after ∧ Encodes front before ∧ Encodes back after ∧
      c.toNat = byte.toNat := by
  generalize cut : front ++ byte :: back = bytes at h
  induction h generalizing front with
  | nil => simp at cut
  | @cons first rest c text isCharacter holds behind ih =>
      rcases List.append_eq_append_iff.mp cut with ⟨shared, isFirst, isBack⟩ | ⟨inner, rfl, isRest⟩
      · cases shared with
        | nil =>
            -- The character ends right in front of the byte.
            obtain ⟨before, d, after, rfl, front', back', number⟩ := @ih [] isBack
            refine ⟨c :: before, d, after, rfl, ?_, back', number⟩
            rw [List.append_nil] at isFirst
            simpa [isFirst] using Encodes.cons isCharacter holds front'
        | cons other shared =>
            obtain ⟨rfl, rfl⟩ := List.cons.inj isBack
            have alone := isCharacter.eq_of_mem (isFirst ▸ by simp) small
            obtain ⟨rfl, rfl⟩ : front = [] ∧ shared = [] := by
              have sizes := congrArg List.length (isFirst.symm.trans alone)
              simp only [List.length_append, List.length_cons, List.length_nil] at sizes
              exact ⟨List.eq_nil_of_length_eq_zero (by omega),
                List.eq_nil_of_length_eq_zero (by omega)⟩
            refine ⟨[], c, text, rfl, .nil, behind, ?_⟩
            rw [← holds, alone, codePoint_one]
      · obtain ⟨before, d, after, rfl, front', back', number⟩ := ih isRest.symm
        exact ⟨c :: before, d, after, rfl, .cons isCharacter holds front', back', number⟩

theorem fromUTF8?_eq_some_iff {content : ByteArray} {string : String} :
    String.fromUTF8? content = some string ↔ Encodes content.data.toList string.toList := by
  rw [encodes_data_iff, ← String.toByteArray_ofList, String.ofList_toList]
  unfold String.fromUTF8?
  split
  · rename_i valid
    rw [Option.some_inj, ← String.toByteArray_inj]
    rfl
  · rename_i invalid
    refine iff_of_false (Option.some_ne_none string).symm fun same => invalid ?_
    rw [same]
    exact string.isValidUTF8

end MexGlue.Utf8
