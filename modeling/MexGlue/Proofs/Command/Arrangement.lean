import MexGlue.Proofs.Command.Endings

/-!
# Options among the positional arguments

An option closes the open run of positional arguments, and then sets what it sets, wherever it
stands. The interface directory may be parted from the rest by options, since one word opens the
request and the others settle it in any run behind. The toolbox may not be parted from the module,
whose run leaves it out for good. So options may stand anywhere but between these two, and there
they make the toolbox a word left over.
-/

namespace MexGlue

/-- Whether a text can only be a positional argument or a value. -/
def IsPositional (text : String) : Prop := text.toList.head? ≠ some '-'

instance (text : String) : Decidable (IsPositional text) :=
  inferInstanceAs (Decidable (text.toList.head? ≠ some '-'))

/-- The words of one option in front of the mark, with its value if it needs one. None of them asks
for help. -/
inductive IsOption : List String → Prop where
  | flags {text : String} {asked : List Flag}
      (reads : Word.ofText text = .ok (.option (.flags asked)))
      (noHelp : Flag.help ∉ asked) : IsOption [text]
  | joined {text value : String} {asked : List Flag} {option : ValueOption}
      (reads : Word.ofText text = .ok (.option (.value asked option (some value))))
      (noHelp : Flag.help ∉ asked) : IsOption [text]
  | parted {text value : String} {asked : List Flag} {option : ValueOption}
      (reads : Word.ofText text = .ok (.option (.value asked option none)))
      (noHelp : Flag.help ∉ asked) (plain : Word.ofText value = .ok (.plain value)) :
      IsOption [text, value]

namespace OptionName

theorem meanings_longName (name : OptionName) : meanings name.longName = [name] := by
  rcases name with flag | option
  · cases flag <;> decide
  · cases option <;> decide

theorem equals_notMem_longName (name : OptionName) : '=' ∉ name.longName := by
  rcases name with flag | option
  · cases flag <;> decide
  · cases option <;> decide

/-- A value behind a long spelling and an equals sign is told from both. -/
theorem ofText_longText_equals (name : OptionName) (value : String) :
    Word.ofText (name.longText ++ "=" ++ value) =
      .ok (.ofUse (OptionUse.ofLong name (some value.toList))) := by
  have spelled : (name.longText ++ "=" ++ value).toList =
      '-' :: '-' :: (name.longName ++ '=' :: value.toList) := by
    simp [longText]
  have noEquals : ∀ char ∈ name.longName, (char != '=') = true := by
    intro char member
    exact bne_iff_ne.mpr fun same => name.equals_notMem_longName (same ▸ member)
  rw [Word.ofText, spelled]
  simp only [List.takeWhile_append_of_pos noEquals, Word.valuePart,
    List.dropWhile_append_of_pos noEquals]
  simp [meanings_longName]

/-- The use of an option that is written alone. -/
def alone : OptionName → OptionUse
  | .flag asked => .flags [asked]
  | .value option => .value [] option none

/-- All spellings that messages show are understood. -/
theorem ofText_of_mem_spellings (name : OptionName) :
    ∀ text ∈ name.spellings, Word.ofText text = .ok (.option name.alone) := by
  rcases name with flag | option
  · cases flag <;> decide +kernel
  · cases option <;> decide +kernel

end OptionName

/-! ## Documented spellings -/

namespace IsOption

variable {text value : String}

theorem of_flag {flag : Flag} (noHelp : flag ≠ .help)
    (spelled : text ∈ (OptionName.flag flag).spellings) : IsOption [text] := by
  refine flags (OptionName.ofText_of_mem_spellings _ text spelled) ?_
  exact fun member => noHelp (List.mem_singleton.mp member).symm

theorem of_value {option : ValueOption} (spelled : text ∈ (OptionName.value option).spellings)
    (plain : Word.ofText value = .ok (.plain value)) : IsOption [text, value] :=
  parted (OptionName.ofText_of_mem_spellings _ text spelled) List.not_mem_nil plain

theorem long_joined (option : ValueOption) (value : String) :
    IsOption [(OptionName.value option).longText ++ "=" ++ value] := by
  refine @joined _ value [] option ?_ List.not_mem_nil
  rw [OptionName.ofText_longText_equals]
  simp [OptionUse.ofLong, Word.ofUse]

/-- All that follows the letter is the value, but for an equals sign right behind it. -/
theorem short_joined (given : value ≠ "") : IsOption ["-n" ++ value] := by
  have spelled : ("-n" ++ value).toList = '-' :: 'n' :: value.toList := by simp
  have chars : value.toList ≠ [] := by simpa using given
  obtain ⟨given, use⟩ : ∃ given, OptionUse.ofShort (.value .libraryNamespace) value.toList =
      .ok (.value [] .libraryNamespace (some given)) := by
    unfold OptionUse.ofShort
    split <;> simp_all
  refine @joined _ given [] .libraryNamespace ?_ List.not_mem_nil
  rw [Word.ofText, spelled]
  exact congrArg (fun use => Except.ok (Word.ofUse use)) use

end IsOption

/-- The command lines that put options anywhere among blocks of positional arguments, each of the
two in the given order. -/
inductive Arranged : List (List String) → List (List String) → List String → Prop where
  | nil : Arranged [] [] []
  | block {block : List String} {blocks options : List (List String)} {texts : List String}
      (behind : Arranged blocks options texts) : Arranged (block :: blocks) options (block ++ texts)
  | option {option : List String} {blocks options : List (List String)} {texts : List String}
      (behind : Arranged blocks options texts) :
      Arranged blocks (option :: options) (option ++ texts)

namespace Arranged

variable {block texts : List String} {blocks options : List (List String)}

theorem eq_flatten (h : Arranged [] options texts) : texts = options.flatten := by
  generalize none : ([] : List (List String)) = blocks at h
  induction h with
  | nil => rfl
  | block behind => cases none
  | option behind ih => rw [List.flatten_cons, ih none]

/-- Some of the options stand in front of the first block. -/
theorem exists_split (h : Arranged (block :: blocks) options texts) :
    ∃ before later behind, options = before ++ later ∧
      texts = before.flatten ++ (block ++ behind) ∧ Arranged blocks later behind := by
  generalize all : block :: blocks = whole at h
  induction h with
  | nil => cases all
  | @block _ _ later behind h =>
      cases all
      exact ⟨[], later, behind, rfl, rfl, h⟩
  | @option option _ _ _ _ ih =>
      obtain ⟨before, later, behind, rfl, rfl, rest⟩ := ih all
      refine ⟨option :: before, later, behind, rfl, ?_, rest⟩
      rw [List.flatten_cons, List.append_assoc]

theorem of_split {before later : List (List String)} {behind : List String}
    (h : Arranged blocks later behind) :
    Arranged (block :: blocks) (before ++ later) (before.flatten ++ (block ++ behind)) := by
  induction before with
  | nil => exact .block h
  | cons option before ih =>
      rw [List.flatten_cons, List.append_assoc]
      exact .option ih

end Arranged

/-! ## Single words -/

namespace Word

variable {text : String} {word : Word}

theorem ofText_of_isPositional (h : IsPositional text) : ofText text = .ok (.plain text) := by
  unfold ofText
  split
  · rename_i body spelled
    exact absurd (by rw [spelled]; rfl) h
  · rename_i letter tail spelled
    exact absurd (by rw [spelled]; rfl) h
  · rfl

/-- A word in front of the mark is read by itself. -/
theorem list_cons (h : ofText text = .ok word) (behind : List String) :
    list (text :: behind) = (list behind).map (word :: ·) := by
  have notMark : text ≠ markText := by
    intro same
    have ambiguous : ofText markText = .error ⟨markText, OptionName.all⟩ := by decide +kernel
    rw [same, ambiguous] at h
    cases h
  rw [list, if_neg notMark, h]
  rfl

end Word

/-! ## Single runs -/

theorem IsPositional.ne_markText {text : String} (h : IsPositional text) : text ≠ markText := by
  rintro rfl
  exact absurd h (by decide)

theorem RunWord.first?_words {text : String} (isPositional : IsPositional text)
    (texts : List String) :
    first? (.word text :: texts.map .word) = some (some text, texts.map .word) := by
  cases texts with
  | nil => simp [first?, isPositional.ne_markText]
  | cons next texts => simp [first?, isPositional.ne_markText]

/-- The interface directory counts the same in a run of its own as in front of others. -/
theorem Positionals.fill_missing_words {directory : String} (isDirectory : IsPositional directory)
    (block : List String) :
    missing.fill (.word directory :: block.map .word) =
      fillBehind (some directory) (block.map .word) := by
  rw [fill, RunWord.first?_words isDirectory]

/-! ## Reading a part of a command line -/

/-- What the words of an option set. -/
def Switches.after (switches : Switches) (texts : List String) : Switches :=
  match (Word.list texts).map (CommandReader.steps { switches := switches }) with
  | .ok (.ok reader) => reader.switches
  | _ => switches

theorem Switches.setFlags_of_noHelp {asked : List Flag} (noHelp : Flag.help ∉ asked)
    (switches : Switches) :
    switches.setFlags asked = .ok (asked.foldl Switches.setFlag switches) :=
  if_neg noHelp

namespace CommandReader

/-- Whether the reader takes these texts and is then the other one, whatever stands behind them. -/
def Reads (reader : CommandReader) (texts : List String) (next : CommandReader) : Prop :=
  ∃ words, (∀ behind, Word.list (texts ++ behind) = (Word.list behind).map (words ++ ·)) ∧
    reader.steps words = .ok next

variable {reader middle next : CommandReader} {texts front back : List String}

theorem Reads.refl (reader : CommandReader) : reader.Reads [] reader := by
  refine ⟨[], fun behind => ?_, rfl⟩
  cases classified : Word.list behind <;> simp [Except.map, classified]

theorem Reads.trans (h : reader.Reads front middle) (h' : middle.Reads back next) :
    reader.Reads (front ++ back) next := by
  obtain ⟨first, classified, read⟩ := h
  obtain ⟨second, classified', read'⟩ := h'
  refine ⟨first ++ second, fun behind => ?_, ?_⟩
  · rw [List.append_assoc, classified, classified']
    cases Word.list behind <;> simp [Except.map]
  · rw [steps_append, read]
    exact read'

theorem Reads.single {text : String} {word : Word} (classified : Word.ofText text = .ok word)
    (taken : reader.step word = .ok next) : reader.Reads [text] next :=
  ⟨[word], Word.list_cons classified, by rw [steps, taken]; rfl⟩

/-- The words of the texts alone. -/
theorem Reads.exists_list (h : reader.Reads texts next) :
    ∃ words, Word.list texts = .ok words ∧ reader.steps words = .ok next := by
  obtain ⟨words, classified, read⟩ := h
  refine ⟨words, ?_, read⟩
  simpa [Word.list, Except.map] using classified []

theorem Reads.ofWords (h : Reads {} texts reader) : Request.ofWords texts = reader.finish := by
  obtain ⟨words, listed, read⟩ := h.exists_list
  rw [Request.ofWords, listed]
  simp only [read]

theorem reads_positionals (ready : reader.awaiting = none)
    (plain : ∀ text ∈ texts, IsPositional text) :
    reader.Reads texts { reader with run := reader.run ++ texts.map .word } := by
  induction texts generalizing reader with
  | nil => simpa using Reads.refl reader
  | cons text texts ih =>
      obtain ⟨first, later⟩ := List.forall_mem_cons.mp plain
      have taken : reader.step (.plain text) =
          .ok { reader with run := reader.run ++ [.word text] } := by
        rw [step, ready]
      have one := Reads.single (Word.ofText_of_isPositional first) taken
      have both := one.trans (ih ready later)
      simpa using both

/-! ### Options -/

theorem closeRun_of_run_eq_nil (reader : CommandReader) (closed : reader.run = []) :
    reader.closeRun = reader := by
  obtain ⟨switches, positionals, run, awaiting, extras⟩ := reader
  subst closed
  cases positionals <;>
    simp [closeRun, Positionals.fill, Positionals.fillBehind, RunWord.first?]

theorem after_of_reads {switches : Switches} (h : Reads { switches := switches } texts next) :
    switches.after texts = next.switches := by
  obtain ⟨words, listed, read⟩ := h.exists_list
  rw [Switches.after, listed]
  simp only [Except.map, read]

theorem setFlags_of_noHelp (reader : CommandReader) {asked : List Flag}
    (noHelp : Flag.help ∉ asked) :
    reader.setFlags asked =
      .ok { reader with switches := asked.foldl Switches.setFlag reader.switches } := by
  rw [setFlags, Switches.setFlags_of_noHelp noHelp]

theorem setValue_of_noHelp (reader : CommandReader) {asked : List Flag}
    (noHelp : Flag.help ∉ asked) (option : ValueOption) (value : String) :
    reader.setValue asked option value =
      .ok { reader with
        switches := (asked.foldl Switches.setFlag reader.switches).setValue
          (givenValue value) option
        awaiting := none } := by
  rw [setValue, Switches.setFlags_of_noHelp noHelp]

end CommandReader

/-- An option closes the open run and changes what is set, in a way of its own. -/
theorem IsOption.exists_change {texts : List String} (h : IsOption texts) :
    ∃ change : Switches → Switches, ∀ reader : CommandReader, reader.awaiting = none →
      reader.Reads texts { reader.closeRun with switches := change reader.switches } := by
  cases h with
  | @flags text asked classified noHelp =>
      refine ⟨fun switches => asked.foldl Switches.setFlag switches, fun reader ready => ?_⟩
      obtain ⟨switches, positionals, run, awaiting, extras⟩ := reader
      cases ready
      exact .single classified (CommandReader.setFlags_of_noHelp _ noHelp)
  | @joined text value asked option classified noHelp =>
      refine ⟨fun switches => (asked.foldl Switches.setFlag switches).setValue
        (CommandReader.givenValue value) option, fun reader ready => ?_⟩
      obtain ⟨switches, positionals, run, awaiting, extras⟩ := reader
      cases ready
      exact .single classified (CommandReader.setValue_of_noHelp _ noHelp option value)
  | @parted text value asked option classified noHelp plain =>
      refine ⟨fun switches => (asked.foldl Switches.setFlag switches).setValue
        (CommandReader.givenValue value) option, fun reader ready => ?_⟩
      obtain ⟨switches, positionals, run, awaiting, extras⟩ := reader
      cases ready
      let reader : CommandReader := ⟨switches, positionals, run, none, extras⟩
      let waiting : CommandReader := { reader.closeRun with awaiting := some (asked, option) }
      have opened : reader.Reads [text] waiting := .single classified rfl
      have given : waiting.Reads [value] _ :=
        .single plain (CommandReader.setValue_of_noHelp _ noHelp option value)
      exact opened.trans given

theorem IsOption.reads {texts : List String} (h : IsOption texts) {reader : CommandReader}
    (ready : reader.awaiting = none) :
    reader.Reads texts { reader.closeRun with switches := reader.switches.after texts } := by
  obtain ⟨change, reads⟩ := h.exists_change
  have same : reader.switches.after texts = change reader.switches :=
    CommandReader.after_of_reads (reads { switches := reader.switches } rfl)
  rw [same]
  exact reads reader ready

namespace CommandReader

variable {reader next : CommandReader} {options : List (List String)}

/-- The reader after some options. None of them leaves the run open. -/
def afterOptions (reader : CommandReader) : List (List String) → CommandReader
  | [] => reader
  | option :: options =>
      { reader.closeRun with
        switches := (option :: options).foldl Switches.after reader.switches }

theorem afterOptions_cons (reader : CommandReader) (option : List String)
    (options : List (List String)) :
    reader.afterOptions (option :: options) =
      { reader.closeRun with switches := reader.switches.after option }.afterOptions options := by
  cases options with
  | nil => rfl
  | cons next options =>
      simp only [afterOptions]
      rw [closeRun_of_run_eq_nil { reader.closeRun with switches := reader.switches.after option }
        rfl]
      rfl

theorem reads_options (ready : reader.awaiting = none)
    (areOptions : ∀ texts ∈ options, IsOption texts) :
    reader.Reads options.flatten (reader.afterOptions options) := by
  induction options generalizing reader with
  | nil => exact .refl reader
  | cons option options ih =>
      obtain ⟨first, later⟩ := List.forall_mem_cons.mp areOptions
      rw [List.flatten_cons, afterOptions_cons]
      exact (first.reads ready).trans (ih ready later)

theorem closeRun_afterOptions (reader : CommandReader) (options : List (List String)) :
    (reader.afterOptions options).closeRun =
      { reader.closeRun with switches := options.foldl Switches.after reader.switches } := by
  cases options with
  | nil => rfl
  | cons option options => exact closeRun_of_run_eq_nil _ rfl

theorem awaiting_afterOptions (ready : reader.awaiting = none) :
    (reader.afterOptions options).awaiting = none := by
  cases options with
  | nil => exact ready
  | cons option options => exact ready

theorem finish_congr (h : reader.closeRun = next.closeRun) : reader.finish = next.finish := by
  rw [finish, finish, h]

theorem finish_of_extras {switches : Switches} {directory moduleName toolbox : Given}
    {extras : List String} (some : extras ≠ [])
    (closed : reader.closeRun =
      { switches := switches, positionals := .complete directory moduleName toolbox
        extras := extras }) :
    reader.finish = .error (.usage (.unrecognized extras)) := by
  unfold finish
  simp only [closed]
  rw [if_pos some]

end CommandReader

/-! ## Whole command lines -/

/-- What a reader knows when a request is complete but for the rest of its run. -/
def CommandReader.settled (directory : String) (block : List String)
    (options : List (List String)) : CommandReader :=
  let filled := Positionals.fillBehind (some directory) (block.map .word)
  { switches := options.foldl Switches.after {}, positionals := filled.1
    extras := filled.2.map RunWord.text }

section

variable {directory moduleName toolbox : String} {block argv : List String}
  {options before between behind : List (List String)}

theorem CommandReader.exists_reads_leading (isDirectory : IsPositional directory)
    (plain : ∀ text ∈ block, IsPositional text)
    (areOptions : ∀ texts ∈ before ++ between, IsOption texts) :
    ∃ reader, Reads {} (before.flatten ++ ([directory] ++ (between.flatten ++ block))) reader ∧
      reader.awaiting = none ∧ reader.closeRun = settled directory block (before ++ between) := by
  obtain ⟨inFront, inside⟩ := List.forall_mem_append.mp areOptions
  let start : CommandReader := { switches := before.foldl Switches.after {} }
  let opened : CommandReader := { start with run := [.word directory] }
  have opening : Reads {} before.flatten start := by
    have all : Reads {} before.flatten (afterOptions {} before) := reads_options rfl inFront
    have same : afterOptions {} before = start := by
      cases before <;> rfl
    rwa [same] at all
  have given : start.Reads [directory] opened :=
    reads_positionals rfl (List.forall_mem_singleton.mpr isDirectory)
  have parting : opened.Reads between.flatten (opened.afterOptions between) :=
    reads_options rfl inside
  have awaiting : (opened.afterOptions between).awaiting = none := awaiting_afterOptions rfl
  refine ⟨_, opening.trans (given.trans (parting.trans (reads_positionals awaiting plain))),
    awaiting, ?_⟩
  rw [settled, List.foldl_append]
  cases between with
  | nil =>
      have filled : Positionals.missing.fill ([.word directory] ++ block.map .word) =
          Positionals.fillBehind (some directory) (block.map .word) :=
        Positionals.fill_missing_words isDirectory block
      simp only [afterOptions, closeRun, opened, start, filled]
      rfl
  | cons option between =>
      have filled : Positionals.missing.fill [.word directory] = (.started (some directory), []) :=
        Positionals.fill_missing_words isDirectory []
      simp only [afterOptions, closeRun, opened, start, filled]
      rfl

/-- Options anywhere but within the last block leave the request the same. -/
theorem Request.ofWords_arranged (h : Arranged [[directory], block] options argv)
    (isDirectory : IsPositional directory) (plain : ∀ text ∈ block, IsPositional text)
    (areOptions : ∀ texts ∈ options, IsOption texts) :
    ofWords argv = (CommandReader.settled directory block options).finish := by
  obtain ⟨before, later, rest, rfl, rfl, inside⟩ := h.exists_split
  obtain ⟨between, behind, last, rfl, rfl, trailing⟩ := inside.exists_split
  rw [← List.append_assoc] at areOptions
  obtain ⟨inFront, atEnd⟩ := List.forall_mem_append.mp areOptions
  obtain ⟨reader, leading, awaiting, closed⟩ :=
    CommandReader.exists_reads_leading isDirectory plain inFront
  have request := (leading.trans (CommandReader.reads_options awaiting atEnd)).ofWords
  simp only [List.append_assoc] at request
  rw [trailing.eq_flatten, request]
  refine CommandReader.finish_congr ?_
  have switches : reader.switches = (before ++ between).foldl Switches.after {} :=
    congrArg CommandReader.switches closed
  rw [CommandReader.closeRun_afterOptions, closed, switches, ← List.foldl_append,
    CommandReader.closeRun_of_run_eq_nil _ rfl, List.append_assoc]
  rfl

/-- An option in front of the toolbox makes it a word left over. -/
theorem Request.ofWords_arranged_parted
    (h : Arranged [[directory], [moduleName], [toolbox]] options argv)
    (parted : ¬Arranged [[directory], [moduleName, toolbox]] options argv)
    (isDirectory : IsPositional directory) (isModule : IsPositional moduleName)
    (isToolbox : IsPositional toolbox) (areOptions : ∀ texts ∈ options, IsOption texts) :
    ofWords argv = .error (.usage (.unrecognized [toolbox])) := by
  obtain ⟨before, later, rest, rfl, rfl, inside⟩ := h.exists_split
  obtain ⟨between, later, rest, rfl, rfl, behindModule⟩ := inside.exists_split
  obtain ⟨parting, behind, last, rfl, rfl, trailing⟩ := behindModule.exists_split
  cases parting with
  | nil => exact absurd (.of_split (.of_split trailing)) parted
  | cons option parting =>
      rw [← List.append_assoc] at areOptions
      obtain ⟨inFront, others⟩ := List.forall_mem_append.mp areOptions
      obtain ⟨arePartings, atEnd⟩ := List.forall_mem_append.mp others
      obtain ⟨reader, leading, awaiting, closed⟩ :=
        CommandReader.exists_reads_leading isDirectory (List.forall_mem_singleton.mpr isModule)
          inFront
      have settling := leading.trans (CommandReader.reads_options awaiting arePartings)
      have toolboxes := settling.trans (CommandReader.reads_positionals
        (CommandReader.awaiting_afterOptions awaiting) (List.forall_mem_singleton.mpr isToolbox))
      have request := (toolboxes.trans (CommandReader.reads_options
        (CommandReader.awaiting_afterOptions awaiting) atEnd)).ofWords
      simp only [List.append_assoc] at request
      rw [trailing.eq_flatten, request]
      have complete : RunWord.first? [.word moduleName] = some (some moduleName, []) :=
        RunWord.first?_words isModule []
      apply CommandReader.finish_of_extras (List.cons_ne_nil _ _)
      rw [CommandReader.closeRun_afterOptions]
      simp only [CommandReader.afterOptions]
      rw [closed]
      simp only [CommandReader.settled, Positionals.fillBehind, List.map_cons, List.map_nil,
        complete]
      rfl

end

/-! ## Runs -/

/-- What becomes of options that stand among two or three positional arguments. Where they stand
does not matter as long as none of them parts the toolbox from the module. Where one does, the
command line is refused and nothing is done. -/
structure OptionsMove (directory moduleName : String) (options : List (List String))
    (disk : Disk) : Prop where
  two : ∀ {argv argv' : List String}, Arranged [[directory], [moduleName]] options argv →
    Arranged [[directory], [moduleName]] options argv' →
    runCommand argv disk = runCommand argv' disk
  three : ∀ {toolbox : String} {argv argv' : List String}, IsPositional toolbox →
    Arranged [[directory], [moduleName, toolbox]] options argv →
    Arranged [[directory], [moduleName, toolbox]] options argv' →
    runCommand argv disk = runCommand argv' disk
  parted : ∀ {toolbox : String} {argv : List String}, IsPositional toolbox →
    Arranged [[directory], [moduleName], [toolbox]] options argv →
    ¬Arranged [[directory], [moduleName, toolbox]] options argv →
    runCommand argv disk = ⟨.refused (.usage (.unrecognized [toolbox])), disk, []⟩

theorem runCommand_congr_of_arranged {directory : String} {block argv argv' : List String}
    {options : List (List String)} (h : Arranged [[directory], block] options argv)
    (h' : Arranged [[directory], block] options argv') (isDirectory : IsPositional directory)
    (plain : ∀ text ∈ block, IsPositional text)
    (areOptions : ∀ texts ∈ options, IsOption texts) (disk : Disk) :
    runCommand argv disk = runCommand argv' disk := by
  have request := Request.ofWords_arranged h isDirectory plain areOptions
  have request' := Request.ofWords_arranged h' isDirectory plain areOptions
  rw [runCommand, runCommand, request, request']

theorem runCommand_optionsMove {directory moduleName : String} {options : List (List String)}
    (isDirectory : IsPositional directory) (isModule : IsPositional moduleName)
    (areOptions : ∀ texts ∈ options, IsOption texts) (disk : Disk) :
    OptionsMove directory moduleName options disk where
  two := by
    intro argv argv' h h'
    have plain := List.forall_mem_singleton.mpr isModule
    exact runCommand_congr_of_arranged h h' isDirectory plain areOptions disk
  three := by
    intro toolbox argv argv' isToolbox h h'
    have plain : ∀ text ∈ [moduleName, toolbox], IsPositional text :=
      List.forall_mem_cons.mpr ⟨isModule, List.forall_mem_singleton.mpr isToolbox⟩
    exact runCommand_congr_of_arranged h h' isDirectory plain areOptions disk
  parted := by
    intro toolbox argv isToolbox h parted
    have refused :=
      Request.ofWords_arranged_parted h parted isDirectory isModule isToolbox areOptions
    exact runCommand_of_error refused disk

/-- A check may be asked for behind the directory, and not between the module and the toolbox. -/
theorem runCommand_optionsMove_check :
    IsPositional "in" ∧ IsPositional "m" ∧ IsPositional "out" ∧
    IsOption ["--check"] ∧ IsOption ["-n", "x"] ∧
    runCommand ["in", "--check", "m", "out", "-n", "x"] ⟨[(["in"], .directory)]⟩ =
      runCommand ["--check", "-n", "x", "in", "m", "out"] ⟨[(["in"], .directory)]⟩ ∧
    runCommand ["in", "m", "--check", "out", "-n", "x"] ⟨[(["in"], .directory)]⟩ =
      ⟨.refused (.usage (.unrecognized ["out"])), ⟨[(["in"], .directory)]⟩, []⟩ := by
  have check : IsOption ["--check"] := @IsOption.of_flag _ .check (by decide) (by decide +kernel)
  have namespaced : IsOption ["-n", "x"] :=
    @IsOption.of_value _ _ .libraryNamespace (by decide +kernel) (by decide +kernel)
  have areOptions : ∀ texts ∈ [["--check"], ["-n", "x"]], IsOption texts :=
    List.forall_mem_cons.mpr ⟨check, List.forall_mem_singleton.mpr namespaced⟩
  have isDirectory : IsPositional "in" := by decide
  have isModule : IsPositional "m" := by decide
  have isToolbox : IsPositional "out" := by decide
  have moves := runCommand_optionsMove isDirectory isModule areOptions ⟨[(["in"], .directory)]⟩
  have inside : Arranged [["in"], ["m", "out"]] [["--check"], ["-n", "x"]]
      ["in", "--check", "m", "out", "-n", "x"] := .block (.option (.block (.option .nil)))
  have inFront : Arranged [["in"], ["m", "out"]] [["--check"], ["-n", "x"]]
      ["--check", "-n", "x", "in", "m", "out"] := .option (.option (.block (.block .nil)))
  have parting : Arranged [["in"], ["m"], ["out"]] [["--check"], ["-n", "x"]]
      ["in", "m", "--check", "out", "-n", "x"] :=
    .block (.block (.option (.block (.option .nil))))
  have notTogether : ¬Arranged [["in"], ["m", "out"]] [["--check"], ["-n", "x"]]
      ["in", "m", "--check", "out", "-n", "x"] := by
    intro together
    have plain : ∀ text ∈ ["m", "out"], IsPositional text := by decide
    have request :=
      Request.ofWords_arranged together isDirectory plain areOptions
    exact absurd request (by decide +kernel)
  exact ⟨isDirectory, isModule, isToolbox, areOptions _ (List.mem_cons_self ..),
    areOptions _ (by decide), moves.three isToolbox inside inFront,
    moves.parted isToolbox parting notTogether⟩

/-- The place of an option is not always without effect: the same words make a check that succeeds
or are refused. -/
theorem exitCode_not_unique_of_arranged : ¬∀ (directory moduleName toolbox : String)
    (options : List (List String)) (argv argv' : List String) (disk : Disk),
    IsPositional directory → IsPositional moduleName → IsPositional toolbox →
    (∀ texts ∈ options, IsOption texts) →
    Arranged [[directory], [moduleName], [toolbox]] options argv →
    Arranged [[directory], [moduleName], [toolbox]] options argv' →
    (runCommand argv disk).ending.exitCode = (runCommand argv' disk).ending.exitCode := by
  intro all
  have check : IsOption ["--check"] := @IsOption.of_flag _ .check (by decide) (by decide +kernel)
  have areOptions : ∀ texts ∈ [["--check"]], IsOption texts :=
    List.forall_mem_singleton.mpr check
  have same := all "in" "m" "out" [["--check"]] ["in", "m", "out", "--check"]
    ["in", "m", "--check", "out"]
    ⟨[(["in"], .directory), (["in", "m.h"], .file "class A { };".toUTF8)]⟩
    (by decide) (by decide) (by decide) areOptions
    (.block (.block (.block (.option .nil)))) (.block (.block (.option (.block .nil))))
  exact absurd same (by decide +kernel)

end MexGlue
