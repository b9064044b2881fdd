import MexGlue.Glue.Makefile
import MexGlue.Proofs.Text.Parts

/-!
# Reading a Makefile

A line that starts with a tab is a command. Any other line is told by the first mark in it: behind a
colon stand the prerequisites of a target, and all else is a setting. A rule's recipe is the commands
behind it, up to the next rule or setting; empty lines and comments do not end it. So lines that
start with no command of an earlier rule are read the same wherever they stand.
-/

namespace MexGlue.Makefile

/-- A rule of a Makefile, with what has to be there before its commands are run. -/
structure Rule where
  target : String
  prerequisites : List String := []
  recipe : List String := []
  deriving DecidableEq, Repr

/-- What a line of a Makefile is. -/
inductive Line where
  | head (target : String) (prerequisites : List String)
  | command (text : String)
  /-- An empty line or a comment. -/
  | gap
  | setting
  deriving DecidableEq, Repr

/-- Whether a character tells what a line is that is no command. -/
def isMark (c : Char) : Bool := c == ':' || c == '=' || c == '#'

def Line.ofText (text : String) : Line :=
  match text.toList with
  | [] => .gap
  | '#' :: _ => .gap
  | '\t' :: rest => .command (String.ofList rest)
  | chars =>
      match chars.dropWhile (!isMark ·) with
      | ':' :: behind =>
          .head (String.ofList (chars.takeWhile (!isMark ·))) (Text.words (String.ofList behind))
      | _ => .setting

/-- The commands in front of the next rule or setting. -/
def recipeAhead : List Line → List String
  | .command text :: rest => text :: recipeAhead rest
  | .gap :: rest => recipeAhead rest
  | _ => []

def rulesOf : List Line → List Rule
  | [] => []
  | .head target prerequisites :: rest =>
      ⟨target, prerequisites, recipeAhead rest⟩ :: rulesOf rest
  | _ :: rest => rulesOf rest

/-- The rules of a Makefile, in their order. -/
def readRules (text : String) : List Rule := rulesOf ((Text.lines text).map Line.ofText)

/-! ## Single lines -/

/-- Whether a text can stand for a file in a rule. -/
structure IsPlain (text : String) : Prop where
  nonempty : text ≠ ""
  plain : ∀ c ∈ text.toList, isMark c = false ∧ Text.isBlank c = false

section Lines

variable {target : String}

theorem plain_of_all {text : String}
    (h : (text.toList.all fun c => !isMark c && !Text.isBlank c) = true) :
    ∀ c ∈ text.toList, isMark c = false ∧ Text.isBlank c = false := by
  simpa using h

theorem IsPlain.append {first second : String} (h : IsPlain first)
    (plain : ∀ c ∈ second.toList, isMark c = false ∧ Text.isBlank c = false) :
    IsPlain (first ++ second) where
  nonempty empty := h.nonempty (String.append_eq_empty_iff.mp empty).1
  plain := by
    rw [String.toList_append]
    exact List.forall_mem_append.mpr ⟨h.plain, plain⟩

theorem IsPlain.not_mem_of_isBlank (h : IsPlain target) {c : Char}
    (blank : Text.isBlank c = true) : c ∉ target.toList := fun member => by
  rw [(h.plain c member).2] at blank
  cases blank

theorem IsPlain.isUnbroken (h : IsPlain target) : Text.IsUnbroken target where
  nonempty := h.nonempty
  noBlank := h.not_mem_of_isBlank rfl

@[simp] theorem Line.ofText_empty : ofText "" = .gap := rfl

@[simp] theorem Line.ofText_command (text : String) :
    ofText ("\t" ++ text) = .command text := by
  have line : ("\t" ++ text).toList = '\t' :: text.toList := by simp
  rw [ofText, line]
  simp

@[simp] theorem Line.ofText_comment (text : String) : ofText ("# " ++ text) = .gap := by
  have line : ("# " ++ text).toList = '#' :: ' ' :: text.toList := by simp
  rw [ofText, line]
  rfl

/-- A line that starts a rule, whatever stands behind the colon. -/
theorem Line.ofText_head (h : IsPlain target) (behind : String) :
    ofText (target ++ ":" ++ behind) = .head target (Text.words behind) := by
  obtain ⟨first, rest, spelled⟩ :=
    List.exists_cons_of_ne_nil (mt String.toList_eq_nil_iff.mp h.nonempty)
  have front : ∀ c ∈ first :: rest, (!isMark c) = true := fun c member => by
    rw [(h.plain c (spelled ▸ member)).1, Bool.not_false]
  have start := h.plain first (by simp [spelled])
  have notComment : first ≠ '#' := fun same => absurd start.1 (by rw [same]; decide)
  have notTab : first ≠ '\t' := fun same => absurd start.2 (by rw [same]; decide)
  have line : (target ++ ":" ++ behind).toList = (first :: rest) ++ ':' :: behind.toList := by
    simp [spelled]
  have dropped : ((first :: rest) ++ ':' :: behind.toList).dropWhile (!isMark ·) =
      ':' :: behind.toList := by
    rw [List.dropWhile_append_of_pos front]
    rfl
  have taken : ((first :: rest) ++ ':' :: behind.toList).takeWhile (!isMark ·) =
      first :: rest := by
    rw [List.takeWhile_append_of_pos front]
    exact List.append_nil _
  rw [ofText, line]
  split
  · contradiction
  · rename_i same
    exact absurd (List.cons.inj same).1 notComment
  · rename_i same
    exact absurd (List.cons.inj same).1 notTab
  · rw [dropped, taken, ← spelled]
    simp only [String.ofList_toList]

/-- A line that starts a rule and was trimmed, which only shows if nothing is named behind. -/
theorem Line.ofText_trimmedHead (h : IsPlain target) {names : List String}
    (plain : ∀ name ∈ names, IsPlain name) :
    ofText (Text.trimEnd (target ++ ": " ++ " ".intercalate names)) = .head target names := by
  have line : target ++ ": " ++ " ".intercalate names =
      target ++ ":" ++ (" " ++ " ".intercalate names) := by
    simp [← String.toList_inj]
  rcases List.eq_nil_or_concat names with rfl | ⟨front, last, split⟩
  · have trimmed : Text.trimEnd (target ++ ": " ++ " ".intercalate []) = target ++ ":" ++ "" := by
      simp [Text.trimEnd, Text.isBlank, Text.blankRanges]
    rw [trimmed, ofText_head h]
    rfl
  · rw [List.concat_eq_append] at split
    subst split
    have atEnd : IsPlain last := plain last (by simp)
    have ends : ∃ shown, target ++ ": " ++ " ".intercalate (front ++ [last]) = shown ++ last := by
      by_cases single : front = []
      · exact ⟨target ++ ": ", by simp [single]⟩
      · rw [String.intercalate_append_of_ne_nil single (List.cons_ne_nil last [])]
        exact ⟨target ++ ": " ++ (" ".intercalate front ++ " "), by simp [String.append_assoc]⟩
    obtain ⟨shown, same⟩ := ends
    have notTrimmed : ∀ c ∈ (shown ++ last).toList.getLast?, Text.isBlank c = false := by
      intro c member
      have inLast : c ∈ last.toList := by
        cases ending : last.toList.getLast? with
        | none =>
            rw [List.getLast?_eq_none_iff, String.toList_eq_nil_iff] at ending
            exact absurd ending atEnd.nonempty
        | some d =>
            rw [String.toList_append, List.getLast?_append, ending, Option.some_or] at member
            exact Option.some.inj member ▸ List.mem_of_getLast? ending
      exact (atEnd.plain c inLast).2
    rw [same, Text.trimEnd_of_getLast? notTrimmed, ← same, line, ofText_head h,
      Text.words_blank_append,
      Text.words_intercalate fun name member => (plain name member).isUnbroken]

end Lines

/-! ## Lines behind each other -/

/-- Whether lines give these rules and no command to a rule in front, wherever they stand. -/
structure Reads (written : List Line) (rules : List Rule) : Prop where
  apart : ∀ rest, recipeAhead rest = [] → recipeAhead (written ++ rest) = []
  rules : ∀ rest, recipeAhead rest = [] → rulesOf (written ++ rest) = rules ++ rulesOf rest

theorem reads_nil : Reads [] [] := ⟨fun _ h => h, fun _ _ => rfl⟩

theorem reads_gap : Reads [.gap] [] := ⟨fun _ h => h, fun _ _ => rfl⟩

theorem reads_setting : Reads [.setting] [] := ⟨fun _ _ => rfl, fun _ _ => rfl⟩

section Reads

variable {written written' : List Line} {rules rules' : List Rule}

theorem Reads.append (h : Reads written rules) (h' : Reads written' rules') :
    Reads (written ++ written') (rules ++ rules') where
  apart rest fresh := by
    rw [List.append_assoc]
    exact h.apart _ (h'.apart rest fresh)
  rules rest fresh := by
    rw [List.append_assoc, List.append_assoc, h.rules _ (h'.apart rest fresh),
      h'.rules rest fresh]

theorem recipeAhead_commands (recipe : List String) {rest : List Line}
    (fresh : recipeAhead rest = []) : recipeAhead (recipe.map Line.command ++ rest) = recipe := by
  induction recipe with
  | nil => exact fresh
  | cons text recipe ih => exact congrArg (text :: ·) ih

theorem rulesOf_commands (recipe : List String) (rest : List Line) :
    rulesOf (recipe.map Line.command ++ rest) = rulesOf rest := by
  induction recipe with
  | nil => rfl
  | cons text recipe ih => exact ih

theorem reads_rule (target : String) (prerequisites recipe : List String) :
    Reads (.head target prerequisites :: recipe.map .command)
      [⟨target, prerequisites, recipe⟩] where
  apart _ _ := rfl
  rules rest fresh := by
    rw [List.cons_append, rulesOf, recipeAhead_commands recipe fresh, rulesOf_commands]
    rfl

end Reads

/-! ## Texts behind each other -/

/-- Whether a text consists of lines that give these rules. -/
def Gives (text : String) (rules : List Rule) : Prop :=
  ∃ lines, Text.HasLines text lines ∧ Reads (lines.map Line.ofText) rules

section Gives

variable {text text' : String} {rules rules' : List Rule}

theorem Gives.append (h : Gives text rules) (h' : Gives text' rules') :
    Gives (text ++ text') (rules ++ rules') := by
  obtain ⟨lines, written, reads⟩ := h
  obtain ⟨lines', written', reads'⟩ := h'
  refine ⟨lines ++ lines', written.append written', ?_⟩
  rw [List.map_append]
  exact reads.append reads'

theorem gives_join {α : Type} {items : List α} {text : α → String} {rules : α → List Rule}
    (h : ∀ item ∈ items, Gives (text item) (rules item)) :
    Gives (String.join (items.map text)) (items.flatMap rules) := by
  induction items with
  | nil => exact ⟨[], ⟨rfl, nofun⟩, reads_nil⟩
  | cons item items ih =>
      obtain ⟨first, later⟩ := List.forall_mem_cons.mp h
      rw [List.map_cons, String.join_cons, List.flatMap_cons]
      exact first.append (ih later)

theorem Gives.readRules (h : Gives text rules) : readRules text = rules := by
  obtain ⟨lines, written, reads⟩ := h
  rw [Makefile.readRules, written.lines, List.map_append, reads.rules _ rfl]
  exact List.append_nil rules

end Gives

end MexGlue.Makefile
