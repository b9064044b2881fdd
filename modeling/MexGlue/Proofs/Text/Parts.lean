import Mathlib.Data.List.Infix
import MexGlue.Text.Blank
import MexGlue.Text.Lines

/-!
# Cutting a text at a mark

A generated text is read again by cutting it at a mark: into lines at its line feeds, into words at
its blanks, into what is quoted and what is not at its quotes. A text is cut at every mark in it,
whatever stands around, so what was put together part by part is read part by part if no part holds
the mark.
-/

namespace MexGlue.Text

/-- The parts of a text between the places where a mark stands. -/
def parts (mark : Char) (text : String) : List String :=
  (text.toList.splitOn mark).map String.ofList

section Parts

variable {mark : Char} {joint : String}

theorem parts_of_not_mem {text : String} (h : mark ∉ text.toList) : parts mark text = [text] := by
  rw [parts, List.splitOn_eq_singleton h, List.map_singleton, String.ofList_toList]

theorem parts_ne_nil (mark : Char) (text : String) : parts mark text ≠ [] := by
  rw [parts, ne_eq, List.map_eq_nil_iff]
  exact List.splitOn_ne_nil mark text.toList

theorem parts_append (spelled : joint.toList = [mark]) (first second : String) :
    parts mark (first ++ joint ++ second) = parts mark first ++ parts mark second := by
  have cut : (first.toList ++ mark :: second.toList).splitOn mark =
      first.toList.splitOn mark ++ second.toList.splitOn mark :=
    List.splitOnP_append_cons first.toList second.toList (beq_self_eq_true mark)
  rw [parts, String.toList_append, String.toList_append, spelled, List.append_assoc,
    List.singleton_append, cut, List.map_append]
  rfl

theorem parts_append_of_not_mem (spelled : joint.toList = [mark]) {first : String}
    (free : mark ∉ first.toList) (second : String) :
    parts mark (first ++ joint ++ second) = first :: parts mark second := by
  rw [parts_append spelled, parts_of_not_mem free, List.singleton_append]

theorem mem_intercalate_of_mem {α : Type} {delimiter part : List α} {parts : List (List α)}
    (member : part ∈ parts) {c : α} (inPart : c ∈ part) : c ∈ delimiter.intercalate parts := by
  induction parts with
  | nil => cases member
  | cons first parts ih =>
      rcases List.mem_cons.mp member with rfl | behind
      · cases parts with
        | nil => rwa [List.intercalate_singleton]
        | cons next parts =>
            rw [List.intercalate_cons_cons, List.append_assoc]
            exact List.mem_append_left _ inPart
      · rw [List.intercalate_cons_of_ne_nil (List.ne_nil_of_mem behind)]
        exact List.mem_append_right _ (ih behind)

/-- What is joined by a mark has the parts of all that was joined, behind each other. -/
theorem parts_intercalate_eq_flatMap (spelled : joint.toList = [mark]) {written : List String}
    (nonempty : written ≠ []) :
    parts mark (joint.intercalate written) = written.flatMap (parts mark) := by
  induction written with
  | nil => contradiction
  | cons part written ih =>
      cases written with
      | nil => rw [String.intercalate_singleton, List.flatMap_singleton]
      | cons next written =>
          rw [String.intercalate_cons_cons, parts_append spelled, ih (List.cons_ne_nil _ _),
            List.flatMap_cons (x := part)]

theorem parts_intercalate (spelled : joint.toList = [mark]) {written : List String}
    (free : ∀ part ∈ written, mark ∉ part.toList) (nonempty : written ≠ []) :
    parts mark (joint.intercalate written) = written := by
  have single : ∀ part ∈ written, parts mark part = [part] := fun part member =>
    parts_of_not_mem (free part member)
  rw [parts_intercalate_eq_flatMap spelled nonempty, List.flatMap_congr single,
    List.flatMap_singleton']

theorem intercalate_splitOn_toList (mark : Char) (text : String) :
    [mark].intercalate (text.toList.splitOn mark) = text.toList :=
  List.intercalate_splitOn mark

/-- A text is all that its parts say. -/
theorem eq_of_parts_eq {text other : String} (same : parts mark text = parts mark other) :
    text = other := by
  have cut : text.toList.splitOn mark = other.toList.splitOn mark :=
    List.map_injective_iff.mpr (fun _ _ => String.ofList_injective) same
  rw [← String.toList_inj, ← intercalate_splitOn_toList mark text, cut,
    intercalate_splitOn_toList]

/-- A part of a text holds no other characters than the text. -/
theorem mem_of_mem_parts {text part : String} (member : part ∈ parts mark text) {c : Char}
    (inPart : c ∈ part.toList) : c ∈ text.toList := by
  obtain ⟨letters, cut, rfl⟩ := List.mem_map.mp member
  rw [String.toList_ofList] at inPart
  rw [← intercalate_splitOn_toList mark text]
  exact mem_intercalate_of_mem cut inPart

end Parts

/-! ## Lines -/

/-- The lines of a text, with what stands behind the last line feed. -/
def lines (text : String) : List String := parts '\n' text

theorem lines_unlines_cons_append {line : String} (free : '\n' ∉ line.toList)
    (written : List String) (rest : String) :
    lines (unlines (line :: written) ++ rest) = line :: lines (unlines written ++ rest) := by
  rw [unlines_cons, String.append_assoc, lines, parts_append_of_not_mem rfl free, lines]

/-- Lines are read as they were put together, and so is what stands behind them. -/
theorem lines_unlines_append {written : List String}
    (free : ∀ line ∈ written, '\n' ∉ line.toList) (rest : String) :
    lines (unlines written ++ rest) = written ++ lines rest := by
  induction written with
  | nil => simp
  | cons line written ih =>
      obtain ⟨here, behind⟩ := List.forall_mem_cons.mp free
      rw [lines_unlines_cons_append here, ih behind, List.cons_append]

/-- Whatever lines stand in front, what stands behind them is read as it is alone. -/
theorem exists_lines_unlines_append (written : List String) (rest : String) :
    ∃ front, lines (unlines written ++ rest) = front ++ lines rest := by
  induction written with
  | nil => exact ⟨[], by simp⟩
  | cons line written ih =>
      obtain ⟨front, same⟩ := ih
      refine ⟨lines line ++ front, ?_⟩
      rw [unlines_cons, String.append_assoc, lines, parts_append rfl, ← lines, ← lines, same,
        List.append_assoc]

theorem unlines_flatMap {α : Type} (items : List α) (written : α → List String) :
    unlines (items.flatMap written) = String.join (items.map fun item => unlines (written item)) := by
  induction items with
  | nil => rfl
  | cons item items ih =>
      rw [List.flatMap_cons, unlines_append, ih, List.map_cons, String.join_cons]

/-- Whether a text is put together from these lines, each with its line feed. -/
structure HasLines (text : String) (written : List String) : Prop where
  text_eq : text = unlines written
  free : ∀ line ∈ written, '\n' ∉ line.toList

theorem HasLines.append {text text' : String} {written written' : List String}
    (h : HasLines text written) (h' : HasLines text' written') :
    HasLines (text ++ text') (written ++ written') where
  text_eq := by rw [h.text_eq, h'.text_eq, unlines_append]
  free := List.forall_mem_append.mpr ⟨h.free, h'.free⟩

theorem hasLines_join {α : Type} {items : List α} {text : α → String} {written : α → List String}
    (h : ∀ item ∈ items, HasLines (text item) (written item)) :
    HasLines (String.join (items.map text)) (items.flatMap written) := by
  induction items with
  | nil => exact ⟨rfl, nofun⟩
  | cons item items ih =>
      obtain ⟨first, later⟩ := List.forall_mem_cons.mp h
      rw [List.map_cons, String.join_cons, List.flatMap_cons]
      exact first.append (ih later)

/-- Nothing stands behind the last line feed. -/
theorem HasLines.lines {text : String} {written : List String} (h : HasLines text written) :
    lines text = written ++ [""] := by
  rw [h.text_eq, ← String.append_empty (s := unlines written), lines_unlines_append h.free]
  rfl

/-! ## Words -/

/-- The words of a text, parted by blanks. -/
def words (text : String) : List String := (parts ' ' text).filter (· ≠ "")

theorem words_append (first second : String) :
    words (first ++ " " ++ second) = words first ++ words second := by
  rw [words, parts_append rfl, List.filter_append]
  rfl

theorem mem_of_mem_words {text word : String} (member : word ∈ words text) {c : Char}
    (inWord : c ∈ word.toList) : c ∈ text.toList :=
  mem_of_mem_parts (List.mem_filter.mp member).1 inWord

/-- Whether a text is one word. -/
structure IsUnbroken (text : String) : Prop where
  nonempty : text ≠ ""
  noBlank : ' ' ∉ text.toList

theorem IsUnbroken.words {text : String} (h : IsUnbroken text) : words text = [text] := by
  simp [Text.words, parts_of_not_mem h.noBlank, h.nonempty]

/-- The mark of a pointer does not break a text. -/
theorem IsUnbroken.pointer {text : String} (h : IsUnbroken text) : IsUnbroken (text ++ "*") := by
  refine ⟨fun empty => absurd (String.append_eq_empty_iff.mp empty).2 (by decide), ?_⟩
  simp [h.noBlank]

theorem IsUnbroken.words_append {text : String} (h : IsUnbroken text) (rest : String) :
    Text.words (text ++ " " ++ rest) = text :: Text.words rest := by
  rw [Text.words_append, h.words, List.singleton_append]

@[simp] theorem words_empty : words "" = [] := rfl

theorem words_blank_append (text : String) : words (" " ++ text) = words text := by
  simpa using words_append "" text

theorem words_intercalate {written : List String} (h : ∀ word ∈ written, IsUnbroken word) :
    words (" ".intercalate written) = written := by
  by_cases empty : written = []
  · rw [empty]
    rfl
  · rw [words, parts_intercalate rfl (fun word member => (h word member).noBlank) empty]
    exact List.filter_eq_self.mpr fun word member => decide_eq_true (h word member).nonempty

theorem not_mem_intercalate {c : Char} {delimiter : String} {written : List String}
    (joint : c ∉ delimiter.toList) (free : ∀ part ∈ written, c ∉ part.toList) :
    c ∉ (delimiter.intercalate written).toList := by
  induction written with
  | nil => simp
  | cons part written ih =>
      obtain ⟨here, behind⟩ := List.forall_mem_cons.mp free
      cases written with
      | nil => rwa [String.intercalate_singleton]
      | cons next written =>
          rw [String.intercalate_cons_cons, String.toList_append, String.toList_append,
            List.mem_append, List.mem_append, not_or, not_or]
          exact ⟨⟨here, joint⟩, ih behind⟩

/-! ## Trimming -/

theorem not_mem_trimEnd {c : Char} {text : String} (free : c ∉ text.toList) :
    c ∉ (trimEnd text).toList := by
  rw [trimEnd, String.toList_ofList, List.mem_reverse]
  intro member
  exact free (List.mem_reverse.mp ((List.dropWhile_suffix _).subset member))

/-- A text that does not end in a blank is not trimmed. -/
theorem trimEnd_of_getLast? {text : String}
    (h : ∀ c ∈ text.toList.getLast?, isBlank c = false) : trimEnd text = text := by
  rw [trimEnd]
  cases reversed : text.toList.reverse with
  | nil =>
      rw [List.reverse_eq_nil_iff, String.toList_eq_nil_iff] at reversed
      rw [reversed]
      rfl
  | cons c rest =>
      have last : text.toList.getLast? = some c := by
        rw [← List.head?_reverse, reversed, List.head?_cons]
      rw [List.dropWhile_cons_of_neg (by simp [h c last]), ← reversed, List.reverse_reverse,
        String.ofList_toList]

/-! ## Quotes -/

/-- Texts in quotes, each with what stands in front of it since the quote before. -/
def pairUp : List String → List (String × String)
  | front :: inside :: rest => (front, inside) :: pairUp rest
  | _ => []

def quoted (quote : Char) (text : String) : List (String × String) := pairUp (parts quote text)

section Quoted

variable {quote : Char} {joint : String}

theorem quoted_of_not_mem {text : String} (h : quote ∉ text.toList) : quoted quote text = [] := by
  rw [quoted, parts_of_not_mem h]
  rfl

theorem quoted_append (spelled : joint.toList = [quote]) {front inside : String}
    (frontFree : quote ∉ front.toList) (insideFree : quote ∉ inside.toList) (rest : String) :
    quoted quote (front ++ joint ++ inside ++ joint ++ rest) =
      (front, inside) :: quoted quote rest := by
  have assoc : front ++ joint ++ inside ++ joint ++ rest =
      front ++ joint ++ (inside ++ joint ++ rest) := by
    simp only [String.append_assoc]
  rw [assoc, quoted, parts_append_of_not_mem spelled frontFree,
    parts_append_of_not_mem spelled insideFree]
  rfl

end Quoted

/-- Whether a text holds another one as it is. -/
def mentions (pattern text : String) : Bool := decide (pattern.toList <:+: text.toList)

theorem mentions_append (front pattern behind : String) :
    mentions pattern (front ++ pattern ++ behind) = true :=
  decide_eq_true ⟨front.toList, behind.toList, by simp⟩

end MexGlue.Text
