import Mathlib.Data.List.Basic
import MexGlue.Command.Run

/-!
# Refused command lines

A refusal comes from the words that it is about. Only an option in front of the mark asks for help,
and the words that nothing takes stand on the command line in the order in which they are told. The
usage shows every option and every argument.
-/

namespace MexGlue

/-! ## Words -/

namespace Word

variable {text : String} {texts : List String} {words : List Word}

/-- A command line begins with the mark or with a word that is read by itself. -/
theorem list_cons_eq_ok (listed : list (text :: texts) = .ok words) :
    (text = markText ∧ words = .mark :: texts.map .behindMark) ∨
      (text ≠ markText ∧ ∃ word rest, ofText text = .ok word ∧ list texts = .ok rest ∧
        words = word :: rest) := by
  by_cases isMark : text = markText
  · rw [list, if_pos isMark] at listed
    exact .inl ⟨isMark, (Except.ok.inj listed).symm⟩
  · rw [list, if_neg isMark] at listed
    cases read : ofText text with
    | error word => rw [read] at listed; cases listed
    | ok word =>
        cases behind : list texts with
        | error word => rw [read, behind] at listed; cases listed
        | ok rest =>
            rw [read, behind] at listed
            exact .inr ⟨isMark, word, rest, rfl, rfl, (Except.ok.inj listed).symm⟩

/-- The options of a command line are those in front of the mark. -/
theorem option_mem_iff {use : OptionUse} (listed : list texts = .ok words) :
    .option use ∈ words ↔
      ∃ text ∈ texts.takeWhile (· != markText), ofText text = .ok (.option use) := by
  induction texts generalizing words with
  | nil =>
      cases listed
      simp
  | cons text texts ih =>
      rcases list_cons_eq_ok listed with ⟨isMark, rfl⟩ | ⟨notMark, word, rest, read, behind, rfl⟩
      · simp [isMark]
      · rw [List.takeWhile_cons_of_pos (by simpa using notMark), List.mem_cons, ih behind,
          List.exists_mem_cons_iff, read, Except.ok.injEq, eq_comm]

/-- The text of a word that may be told as left over. -/
def text? : Word → Option String
  | .plain text => some text
  | .mark => some markText
  | .behindMark text => some text
  | .unknown text => some text
  | .option _ => none
  | .misused _ => none

theorem text?_of_ofText {word : Word} (read : ofText text = .ok word) :
    word.text? = none ∨ word.text? = some text := by
  have stray (body : List Char) : (ofStray text body).text? = some text := by
    unfold ofStray
    split <;> rfl
  have used (use : Except IgnoredValue OptionUse) : (ofUse use).text? = none := by
    cases use <;> rfl
  unfold ofText at read
  split at read
  · split at read
    · rw [← Except.ok.inj read]; exact .inr (stray _)
    · rw [← Except.ok.inj read]; exact .inl (used _)
    · cases read
  · split at read
    · rw [← Except.ok.inj read]; exact .inl (used _)
    · rw [← Except.ok.inj read]; exact .inr (stray _)
  · rw [← Except.ok.inj read]; exact .inr rfl

theorem filterMap_text?_sublist (listed : list texts = .ok words) :
    (words.filterMap text?).Sublist texts := by
  induction texts generalizing words with
  | nil =>
      cases listed
      exact .refl _
  | cons text texts ih =>
      rcases list_cons_eq_ok listed with ⟨rfl, rfl⟩ | ⟨-, word, rest, read, behind, rfl⟩
      · have told : (texts.map Word.behindMark).filterMap text? = texts := by
          rw [List.filterMap_map]
          exact List.filterMap_some
        have mark : text? .mark = some markText := rfl
        rw [List.filterMap_cons_some mark, told]
      · rcases text?_of_ofText read with silent | told
        · rw [List.filterMap_cons_none silent]
          exact (ih behind).cons text
        · rw [List.filterMap_cons_some told]
          exact (ih behind).cons_cons text

end Word

/-! ## Single steps -/

namespace CommandReader

variable {reader next : CommandReader} {word : Word} {words : List Word}

theorem setValue_cases {flags : List Flag} {option : ValueOption} {value : String}
    (read : reader.setValue flags option value = .ok next) :
    ∃ switches, next = { reader with switches := switches, awaiting := none } := by
  unfold setValue at read
  split at read
  · cases read
  · exact ⟨_, (Except.ok.inj read).symm⟩

/-- The use of an option changes no more than what is set and what is waited for. -/
theorem use_cases (reader : CommandReader) {use : OptionUse} (ready : reader.awaiting = none)
    (read : reader.use use = .ok next) :
    (∃ switches, next = { reader with switches := switches }) ∨
      ∃ flags option, use = .value flags option none ∧
        next = { reader with awaiting := some (flags, option) } := by
  cases use with
  | flags flags =>
      unfold CommandReader.use setFlags at read
      simp only at read
      split at read
      · cases read
      · exact .inl ⟨_, (Except.ok.inj read).symm⟩
  | value flags option given =>
      cases given with
      | none => exact .inr ⟨flags, option, rfl, (Except.ok.inj read).symm⟩
      | some value =>
          obtain ⟨switches, rfl⟩ := setValue_cases read
          exact .inl ⟨switches, by rw [← ready]⟩

/-- What a step does: it gives an option its value, takes a word into the open run, uses an option
or leaves a word over. -/
theorem step_cases (read : reader.step word = .ok next) :
    (∃ switches, next = { reader with switches := switches, awaiting := none }) ∨
      (∃ part, word.text? = some part.text ∧ reader.awaiting = none ∧
        next = { reader with run := reader.run ++ [part] }) ∨
      (∃ use, word = .option use ∧ reader.awaiting = none ∧ reader.closeRun.use use = .ok next) ∨
      ∃ text, word = .unknown text ∧ reader.awaiting = none ∧
        next = { reader.closeRun with extras := reader.closeRun.extras ++ [text] } := by
  unfold step at read
  split at read
  · split at read
    · exact .inl (setValue_cases read)
    · cases read
  · rename_i ready
    split at read
    · exact .inr (.inl ⟨.word _, rfl, ready, (Except.ok.inj read).symm⟩)
    · exact .inr (.inl ⟨.mark, rfl, ready, (Except.ok.inj read).symm⟩)
    · exact .inr (.inl ⟨.word _, rfl, ready, (Except.ok.inj read).symm⟩)
    · exact .inr (.inr (.inl ⟨_, rfl, ready, read⟩))
    · cases read
    · exact .inr (.inr (.inr ⟨_, rfl, ready, (Except.ok.inj read).symm⟩))

end CommandReader

/-! ## Help -/

/-- The flags that an option word asks for. -/
def OptionUse.asked : OptionUse → List Flag
  | .flags asked => asked
  | .value asked _ _ => asked

theorem Switches.refusal_of_setFlags {switches : Switches} {flags : List Flag} {refusal : Refusal}
    (stopped : switches.setFlags flags = .error refusal) : refusal = .help ∧ .help ∈ flags := by
  unfold setFlags at stopped
  split at stopped
  · exact ⟨(Except.error.inj stopped).symm, ‹_›⟩
  · cases stopped

namespace CommandReader

variable {reader next : CommandReader} {word : Word} {words : List Word} {refusal : Refusal}

theorem refusal_of_setValue {flags : List Flag} {option : ValueOption} {value : String}
    (stopped : reader.setValue flags option value = .error refusal) :
    refusal = .help ∧ .help ∈ flags := by
  unfold setValue at stopped
  split at stopped
  · rename_i refused
    exact Except.error.inj stopped ▸ Switches.refusal_of_setFlags refused
  · cases stopped

theorem refusal_of_use {use : OptionUse} (stopped : reader.use use = .error refusal) :
    refusal = .help ∧ .help ∈ use.asked := by
  cases use with
  | flags flags =>
      unfold CommandReader.use setFlags at stopped
      simp only at stopped
      split at stopped
      · rename_i refused
        exact Except.error.inj stopped ▸ Switches.refusal_of_setFlags refused
      · cases stopped
  | value flags option given =>
      cases given with
      | none => cases stopped
      | some value => exact refusal_of_setValue stopped

/-- Whether help is asked for in front of an option that waits for its value. -/
def AwaitsHelp (reader : CommandReader) : Prop :=
  ∃ flags option, reader.awaiting = some (flags, option) ∧ .help ∈ flags

/-- A step stops for help that is asked for, or at an option without its value or with one too
many. -/
theorem refusal_of_step (stopped : reader.step word = .error refusal) :
    (refusal = .help ∧ (reader.AwaitsHelp ∨ ∃ use, word = .option use ∧ .help ∈ use.asked)) ∨
      (∃ option, refusal = .usage (.valueMissing option)) ∨
      ∃ ignored, refusal = .usage (.valueIgnored ignored) := by
  unfold step at stopped
  split at stopped
  · rename_i flags option awaiting
    split at stopped
    · obtain ⟨isHelp, asks⟩ := refusal_of_setValue stopped
      exact .inl ⟨isHelp, .inl ⟨flags, option, awaiting, asks⟩⟩
    · exact .inr (.inl ⟨option, (Except.error.inj stopped).symm⟩)
  · split at stopped
    · cases stopped
    · cases stopped
    · cases stopped
    · obtain ⟨isHelp, asks⟩ := refusal_of_use stopped
      exact .inl ⟨isHelp, .inr ⟨_, rfl, asks⟩⟩
    · exact .inr (.inr ⟨_, (Except.error.inj stopped).symm⟩)
    · cases stopped

/-- An option that waits for its value is the last word. -/
theorem awaiting_of_step (read : reader.step word = .ok next) {flags : List Flag}
    {option : ValueOption} (awaits : next.awaiting = some (flags, option)) :
    word = .option (.value flags option none) := by
  rcases step_cases read with ⟨_, rfl⟩ | ⟨_, -, ready, rfl⟩ | ⟨use, rfl, ready, used⟩ |
    ⟨_, rfl, ready, rfl⟩
  · cases awaits
  · cases ready.symm.trans awaits
  · rcases use_cases reader.closeRun ready used with ⟨_, rfl⟩ | ⟨flags, option, rfl, rfl⟩
    · cases ready.symm.trans awaits
    · cases awaits
      rfl
  · cases ready.symm.trans awaits

/-- So does a run of steps, and help is asked for by a word of it or in front of it. -/
theorem refusal_of_steps (stopped : reader.steps words = .error refusal) :
    (refusal = .help ∧ (reader.AwaitsHelp ∨ ∃ use, .option use ∈ words ∧ .help ∈ use.asked)) ∨
      (∃ option, refusal = .usage (.valueMissing option)) ∨
      ∃ ignored, refusal = .usage (.valueIgnored ignored) := by
  induction words generalizing reader with
  | nil => cases stopped
  | cons word words ih =>
      rw [steps] at stopped
      cases read : reader.step word with
      | error refusal =>
          rw [read] at stopped
          cases stopped
          refine (refusal_of_step read).imp_left fun ⟨isHelp, asked⟩ => ⟨isHelp, ?_⟩
          refine asked.imp_right fun ⟨use, isOption, asks⟩ => ⟨use, ?_, asks⟩
          exact isOption ▸ List.mem_cons_self ..
      | ok next =>
          rw [read] at stopped
          refine (ih stopped).imp_left fun ⟨isHelp, asked⟩ => ⟨isHelp, .inr ?_⟩
          rcases asked with ⟨flags, option, awaits, asks⟩ | ⟨use, member, asks⟩
          · have last := awaiting_of_step read awaits
            exact ⟨.value flags option none, last ▸ List.mem_cons_self .., asks⟩
          · exact ⟨use, List.mem_cons_of_mem _ member, asks⟩

theorem finish_ne_help (reader : CommandReader) : reader.finish ≠ .error .help := by
  unfold finish
  intro stopped
  simp only at stopped
  split at stopped <;> try cases stopped
  split at stopped <;> try cases stopped
  split at stopped <;> cases stopped

end CommandReader

/-- Help is given only if an option in front of the mark asks for it. -/
theorem Request.exists_help_of_ofWords {texts : List String}
    (stopped : ofWords texts = .error .help) :
    ∃ text ∈ texts.takeWhile (· != markText), ∃ use, Word.ofText text = .ok (.option use) ∧
      .help ∈ use.asked := by
  unfold ofWords at stopped
  cases listed : Word.list texts with
  | error word => rw [listed] at stopped; cases stopped
  | ok words =>
      rw [listed] at stopped
      simp only at stopped
      split at stopped
      · rename_i refusal read
        cases stopped
        rcases CommandReader.refusal_of_steps read with
          ⟨-, ⟨_, _, awaits, _⟩ | ⟨use, member, asks⟩⟩ | ⟨_, isHelp⟩ | ⟨_, isHelp⟩
        · cases awaits
        · obtain ⟨text, inFront, read⟩ := (Word.option_mem_iff listed).mp member
          exact ⟨text, inFront, use, read, asks⟩
        · cases isHelp
        · cases isHelp
      · exact absurd stopped (CommandReader.finish_ne_help _)

/-! ## Words left over -/

theorem RunWord.suffix_of_first? {run rest : List RunWord} {given : Given}
    (taken : first? run = some (given, rest)) : rest <:+ run := by
  unfold first? at taken
  split at taken
  · cases taken
    exact ⟨[_, _], rfl⟩
  · cases taken
    exact ⟨[_, _], rfl⟩
  · cases taken
    exact ⟨[_], rfl⟩
  · cases taken

namespace Positionals

theorem suffix_fillBehind (directory : Given) (run : List RunWord) :
    (fillBehind directory run).2 <:+ run := by
  unfold fillBehind
  split
  · exact List.suffix_refl run
  · rename_i behind taken
    split
    · exact RunWord.suffix_of_first? taken
    · rename_i taken'
      exact (RunWord.suffix_of_first? taken').trans (RunWord.suffix_of_first? taken)

/-- What is left of a run is its end. -/
theorem suffix_fill (positionals : Positionals) (run : List RunWord) :
    (positionals.fill run).2 <:+ run := by
  unfold fill
  split
  · split
    · exact List.suffix_refl run
    · rename_i taken
      exact (suffix_fillBehind _ _).trans (RunWord.suffix_of_first? taken)
  · exact suffix_fillBehind _ run
  · exact List.suffix_refl run

end Positionals

namespace CommandReader

variable {reader next : CommandReader} {word : Word} {words : List Word}

/-- The words that are left over, or still may be. -/
def held (reader : CommandReader) : List String := reader.extras ++ reader.run.map RunWord.text

theorem held_closeRun (reader : CommandReader) : reader.closeRun.held.Sublist reader.held := by
  have left : (reader.positionals.fill reader.run).2.Sublist reader.run :=
    (Positionals.suffix_fill _ _).sublist
  simpa [held, closeRun] using (left.map RunWord.text).append_left reader.extras

theorem held_of_step (read : reader.step word = .ok next) :
    next.held.Sublist (reader.held ++ word.text?.toList) := by
  rcases step_cases read with ⟨_, rfl⟩ | ⟨part, told, -, rfl⟩ | ⟨use, rfl, ready, used⟩ |
    ⟨text, rfl, -, rfl⟩
  · exact List.sublist_append_left reader.held _
  · simp [held, told]
  · have kept : next.held = reader.closeRun.held := by
      rcases use_cases reader.closeRun ready used with ⟨_, rfl⟩ | ⟨_, _, -, rfl⟩ <;> rfl
    rw [kept]
    exact reader.held_closeRun.trans (List.sublist_append_left _ _)
  · have both := reader.held_closeRun.append_right [text]
    simpa [held, closeRun, Word.text?] using both

theorem held_of_steps (read : reader.steps words = .ok next) :
    next.held.Sublist (reader.held ++ words.filterMap Word.text?) := by
  induction words generalizing reader with
  | nil =>
      cases read
      simp
  | cons word words ih =>
      rw [steps] at read
      cases one : reader.step word with
      | error refusal => rw [one] at read; cases read
      | ok middle =>
          rw [one] at read
          have behind := (ih read).trans ((held_of_step one).append_right _)
          have told : (word :: words).filterMap Word.text? =
              word.text?.toList ++ words.filterMap Word.text? := by
            cases word <;> rfl
          rw [told, ← List.append_assoc]
          exact behind

/-- What is left over in the end was held, and is not nothing. -/
theorem held_of_finish {texts : List String}
    (refused : reader.finish = .error (.usage (.unrecognized texts))) :
    texts ≠ [] ∧ texts.Sublist reader.held := by
  unfold finish at refused
  simp only at refused
  split at refused <;> try cases refused
  split at refused
  · rename_i extras
    cases refused
    exact ⟨extras, (List.sublist_append_left _ _).trans reader.held_closeRun⟩
  · split at refused <;> cases refused

end CommandReader

/-- The words that are told as left over stand on the command line in this order. -/
theorem Request.sublist_of_ofWords {texts extras : List String}
    (refused : ofWords texts = .error (.usage (.unrecognized extras))) :
    extras ≠ [] ∧ extras.Sublist texts := by
  unfold ofWords at refused
  cases listed : Word.list texts with
  | error word => rw [listed] at refused; cases refused
  | ok words =>
      rw [listed] at refused
      simp only at refused
      split at refused
      · rename_i refusal read
        cases refused
        rcases CommandReader.refusal_of_steps read with ⟨other, -⟩ | ⟨_, other⟩ | ⟨_, other⟩
        all_goals cases other
      · rename_i reader read
        obtain ⟨some, held⟩ := CommandReader.held_of_finish refused
        exact ⟨some, held.trans ((CommandReader.held_of_steps read).trans
          (Word.filterMap_text?_sublist listed))⟩

/-! ## The usage -/

namespace Usage

variable {columns : Nat} {program line text : String} {parts : List String}

theorem toList_indented (columns : Nat) (text : String) :
    (indented columns text).toList = List.replicate columns ' ' ++ text.toList := by
  simp [indented, blanks]

/-- What the open line holds, and every part behind it, stands on one of the lines. -/
theorem exists_line_of_wrap (shown : text.toList <:+: line.toList ∨ text ∈ parts) :
    ∃ full ∈ wrap columns line parts, text.toList <:+: full.toList := by
  induction parts generalizing line with
  | nil =>
      rcases shown with inside | member
      · exact ⟨line, List.mem_singleton_self line, inside⟩
      · cases member
  | cons part parts ih =>
      rw [wrap]
      split
      · refine ih ?_
        rw [List.mem_cons] at shown
        rw [String.toList_append, String.toList_append]
        rcases shown with inside | rfl | later
        · refine .inl (inside.trans ?_)
          exact ((List.prefix_append _ _).trans (List.prefix_append _ _)).isInfix
        · exact .inl (List.suffix_append _ _).isInfix
        · exact .inr later
      · rw [List.exists_mem_cons_iff]
        rw [List.mem_cons] at shown
        rcases shown with inside | rfl | later
        · exact .inl inside
        · refine .inr (ih (.inl ?_))
          rw [toList_indented]
          exact (List.suffix_append _ _).isInfix
        · exact .inr (ih (.inr later))

/-- No line is longer than the width, if each part has its place on a line of its own. -/
theorem length_le_of_mem_wrap (fits : line.length ≤ width)
    (partsFit : ∀ part ∈ parts, columns + part.length ≤ width) :
    ∀ full ∈ wrap columns line parts, full.length ≤ width := by
  induction parts generalizing line with
  | nil => exact List.forall_mem_singleton.mpr fits
  | cons part parts ih =>
      obtain ⟨first, later⟩ := List.forall_mem_cons.mp partsFit
      rw [wrap]
      split
      · exact ih ‹_› later
      · refine List.forall_mem_cons.mpr ⟨fits, ih ?_ later⟩
        simpa [indented, blanks] using first

theorem exists_line_of_block (member : text ∈ parts) :
    ∃ full ∈ block columns parts, text.toList <:+: full.toList := by
  cases parts with
  | nil => cases member
  | cons part parts =>
      refine exists_line_of_wrap ((List.mem_cons.mp member).imp_left ?_)
      rintro rfl
      rw [toList_indented]
      exact (List.suffix_append _ _).isInfix

/-- The usage shows each option and each argument. -/
theorem exists_line_of_part (program : String) (member : text ∈ optionParts ++ argumentParts) :
    ∃ line ∈ lines program, text.toList <:+: line.toList := by
  unfold lines
  simp only
  rcases List.mem_append.mp member with option | argument
  · split
    · obtain ⟨line, found, shown⟩ := exists_line_of_wrap (.inr option)
      exact ⟨line, List.mem_append_left _ found, shown⟩
    · obtain ⟨line, found, shown⟩ := exists_line_of_block option
      exact ⟨line, List.mem_cons_of_mem _ (List.mem_append_left _ found), shown⟩
  · split
    · obtain ⟨line, found, shown⟩ := exists_line_of_block argument
      exact ⟨line, List.mem_append_right _ found, shown⟩
    · obtain ⟨line, found, shown⟩ := exists_line_of_block argument
      exact ⟨line, List.mem_cons_of_mem _ (List.mem_append_right _ found), shown⟩

theorem length_le_of_mem_block (partsFit : ∀ part ∈ parts, columns + part.length ≤ width) :
    ∀ full ∈ block columns parts, full.length ≤ width := by
  cases parts with
  | nil => exact List.forall_mem_nil _
  | cons part parts =>
      obtain ⟨first, later⟩ := List.forall_mem_cons.mp partsFit
      exact length_le_of_mem_wrap (by simpa [indented, blanks] using first) later

/-- The usage of a program with a short name stays within the columns. -/
theorem length_le_of_mem_lines (short : program.length ≤ 47) :
    ∀ line ∈ lines program, line.length ≤ width := by
  have start : ("usage: " ++ program).length = 7 + program.length := String.length_append ..
  have optionsFit : ∀ part ∈ optionParts, part.length ≤ 23 := by decide +kernel
  have argumentsFit : ∀ part ∈ argumentParts, part.length ≤ 23 := by decide +kernel
  unfold lines width
  simp only [start]
  rw [if_pos (by omega), List.forall_mem_append]
  constructor
  · refine length_le_of_mem_wrap (by rw [start, width]; omega) fun part member => ?_
    have fits := optionsFit part member
    rw [width]
    omega
  · refine length_le_of_mem_block fun part member => ?_
    have fits := argumentsFit part member
    rw [width]
    omega

end Usage

end MexGlue
