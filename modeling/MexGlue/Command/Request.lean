import MexGlue.Command.Word
import MexGlue.Toolbox.Options

/-!
# Requests

A command line asks for a toolbox of one module, or for a check of its interface. Plain words are
counted run by run, a run being what stands between two options: a run gives as many of the three
positional arguments as it has words, and a run that gives the module also settles the toolbox
directory, which is then left out unless the same run gives it. So the toolbox may not be parted
from the module by an option.
-/

namespace MexGlue

inductive Refusal where
  | help
  /-- The words make no request. -/
  | usage (problem : UsageProblem)
  deriving DecidableEq, Repr

structure Request where
  /-- The directory of the interface file. -/
  directory : String
  moduleName : String
  /-- The toolbox directory, which may be missing where the interface is only checked. -/
  toolbox : String := ""
  options : ToolboxOptions := {}
  checkOnly : Bool := false
  verbose : Bool := false
  deriving DecidableEq, Repr

/-- What a word gives, or none where the word is dropped. -/
abbrev Given := Option String

/-- What a run is made of. -/
inductive RunWord where
  | mark
  | word (text : String)
  deriving DecidableEq, Repr

def RunWord.text : RunWord → String
  | .mark => markText
  | .word text => text

/-- What the first word of a run gives, together with the mark if they stand side by side, and the
rest of the run. A word that reads like the mark is dropped if the mark is not with it. -/
def RunWord.first? : List RunWord → Option (Given × List RunWord)
  | .mark :: .word text :: rest => some (some text, rest)
  | .word text :: .mark :: rest => some (some text, rest)
  | .word text :: rest => some (if text = markText then none else some text, rest)
  | _ => none

/-- The positional arguments that the runs so far have given. -/
inductive Positionals where
  | missing
  | started (directory : Given)
  | complete (directory moduleName toolbox : Given)
  deriving DecidableEq, Repr

namespace Positionals

/-- The positional arguments after a run that stands behind the directory, and what is left of the
run. -/
def fillBehind (directory : Given) (run : List RunWord) : Positionals × List RunWord :=
  match RunWord.first? run with
  | none => (.started directory, run)
  | some (moduleName, behind) =>
      match RunWord.first? behind with
      | none => (.complete directory moduleName none, behind)
      | some (toolbox, rest) => (.complete directory moduleName toolbox, rest)

/-- The positional arguments after one more run, and what is left of it. -/
def fill (positionals : Positionals) (run : List RunWord) : Positionals × List RunWord :=
  match positionals with
  | .missing =>
      match RunWord.first? run with
      | none => (.missing, run)
      | some (directory, behind) => fillBehind directory behind
  | .started directory => fillBehind directory run
  | .complete directory moduleName toolbox => (.complete directory moduleName toolbox, run)

end Positionals

/-- A dropped word where one is needed shows as an empty list. -/
def Given.needed (given : Given) : String := given.getD "[]"

/-- A dropped word where none is needed is as good as none. -/
def Given.optional (given : Given) : String := given.getD ""

/-- What options have set. -/
structure Switches where
  options : ToolboxOptions := {}
  checkOnly : Bool := false
  verbose : Bool := false
  deriving DecidableEq, Repr

namespace Switches

def setFlag (switches : Switches) : Flag → Switches
  | .help => switches
  | .check => { switches with checkOnly := true }
  | .verbose => { switches with verbose := true }

/-- Sets an option. Flags that were dropped are written to the Makefile, which always names them,
and not to the make script. -/
def setValue (switches : Switches) (given : Given) : ValueOption → Switches
  | .libraryNamespace =>
      { switches with options := { switches.options with libraryNamespace := given.optional } }
  | .mexExtension =>
      { switches with options := { switches.options with mexExtension := given.needed } }
  | .mexFlags =>
      { switches with
        options :=
          { switches.options with mexFlags := given.optional, makefileFlags := given.needed } }

/-- Sets flags, unless help is among them. -/
def setFlags (switches : Switches) (flags : List Flag) : Except Refusal Switches :=
  if Flag.help ∈ flags then .error .help else .ok (flags.foldl setFlag switches)

end Switches

/-- How far a command line has been read. -/
structure CommandReader where
  switches : Switches := {}
  positionals : Positionals := .missing
  run : List RunWord := []
  /-- An option that waits for its value, with the flags in front of it. -/
  awaiting : Option (List Flag × ValueOption) := none
  /-- The words that were left over. -/
  extras : List String := []
  deriving DecidableEq, Repr

namespace CommandReader

/-- The reader after the end of the open run. -/
def closeRun (reader : CommandReader) : CommandReader :=
  let (positionals, left) := reader.positionals.fill reader.run
  { reader with
    positionals := positionals, run := [], extras := reader.extras ++ left.map RunWord.text }

def setFlags (reader : CommandReader) (flags : List Flag) : Except Refusal CommandReader :=
  match reader.switches.setFlags flags with
  | .error refusal => .error refusal
  | .ok switches => .ok { reader with switches := switches }

/-- What an option's value gives. One that reads like the mark is dropped. -/
def givenValue (value : String) : Given := if value = markText then none else some value

/-- Sets an option, after the flags in front of it. -/
def setValue (reader : CommandReader) (flags : List Flag) (option : ValueOption)
    (value : String) : Except Refusal CommandReader :=
  match reader.switches.setFlags flags with
  | .error refusal => .error refusal
  | .ok switches =>
      .ok { reader with
        switches := switches.setValue (givenValue value) option, awaiting := none }

def use (reader : CommandReader) : OptionUse → Except Refusal CommandReader
  | .flags flags => reader.setFlags flags
  | .value flags option (some value) => reader.setValue flags option value
  | .value flags option none => .ok { reader with awaiting := some (flags, option) }

/-- The reader after one more word. -/
def step (reader : CommandReader) (word : Word) : Except Refusal CommandReader :=
  match reader.awaiting with
  | some (flags, option) =>
      match word with
      | .plain text => reader.setValue flags option text
      | _ => .error (.usage (.valueMissing option))
  | none =>
      match word with
      | .plain text => .ok { reader with run := reader.run ++ [.word text] }
      | .mark => .ok { reader with run := reader.run ++ [.mark] }
      | .behindMark text => .ok { reader with run := reader.run ++ [.word text] }
      | .option asked => reader.closeRun.use asked
      | .misused ignored => .error (.usage (.valueIgnored ignored))
      | .unknown text =>
          .ok { reader.closeRun with extras := reader.closeRun.extras ++ [text] }

def steps (reader : CommandReader) : List Word → Except Refusal CommandReader
  | [] => .ok reader
  | word :: words =>
      match reader.step word with
      | .error refusal => .error refusal
      | .ok next => next.steps words

/-- The request, if nothing is missing and no words are left over. What is missing is told first. -/
def finish (reader : CommandReader) : Except Refusal Request :=
  let closed := reader.closeRun
  match closed.awaiting, closed.positionals with
  | some (_, option), _ => .error (.usage (.valueMissing option))
  | none, .missing =>
      .error (.usage (.argumentsMissing [Usage.directoryName, Usage.moduleName]))
  | none, .started _ => .error (.usage (.argumentsMissing [Usage.moduleName]))
  | none, .complete directory moduleName toolbox =>
      if closed.extras ≠ [] then .error (.usage (.unrecognized closed.extras))
      else if toolbox.optional = "" ∧ closed.switches.checkOnly = false then
        .error (.usage .toolboxMissing)
      else
        .ok
          { directory := directory.needed, moduleName := moduleName.needed
            toolbox := toolbox.optional, options := closed.switches.options
            checkOnly := closed.switches.checkOnly, verbose := closed.switches.verbose }

end CommandReader

def Request.ofWords (texts : List String) : Except Refusal Request :=
  match Word.list texts with
  | .error word => .error (.usage (.ambiguous word))
  | .ok words =>
      match CommandReader.steps {} words with
      | .error refusal => .error refusal
      | .ok reader => reader.finish

end MexGlue
