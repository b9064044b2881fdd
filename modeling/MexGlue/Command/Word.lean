import MexGlue.Command.Usage
import MexGlue.Text.DecimalDigit

/-!
# Words of a command line

Each word is classified before any of them is acted on. A word with a leading hyphen is an option
if it is spelled like one: a long option in full or shortened as long as no other long option
starts the same way, or a hyphen and the letters of short options run together. Other such words are
plain only if they look like a negative number or hold a space. Behind the first bare `--`, the
mark, every word is plain.
-/

namespace MexGlue

/-- What an option word asks for: flags, and possibly an option behind them whose value is given in
the same word or still to come. -/
inductive OptionUse where
  | flags (asked : List Flag)
  | value (asked : List Flag) (option : ValueOption) (given : Option String)
  deriving DecidableEq, Repr

namespace OptionUse

def withFlag (flag : Flag) : OptionUse → OptionUse
  | .flags asked => .flags (flag :: asked)
  | .value asked option given => .value (flag :: asked) option given

def ofLong (name : OptionName) (given : Option (List Char)) : Except IgnoredValue OptionUse :=
  match name, given with
  | .flag flag, none => .ok (.flags [flag])
  | .flag flag, some text => .error ⟨flag, String.ofList text⟩
  | .value option, given => .ok (.value [] option (given.map String.ofList))

/-- The use of the letters run together behind a flag. All that follows the letter of an option with
a value is its value, and every other letter must be a flag's. -/
def behindFlag (flag : Flag) : List Char → Except IgnoredValue OptionUse
  | [] => .ok (.flags [flag])
  | letter :: tail =>
      match OptionName.ofLetter? letter with
      | none => .error ⟨flag, String.ofList (letter :: tail)⟩
      | some (.value option) =>
          .ok (.value [flag] option (if tail = [] then none else some (String.ofList tail)))
      | some (.flag next) => (behindFlag next tail).map (withFlag flag)

/-- The use of a word of letters, whose first one is an option's. An equals sign behind that one is
no part of what follows, which must not be missing behind a flag. -/
def ofShort (name : OptionName) (tail : List Char) : Except IgnoredValue OptionUse :=
  match name, tail with
  | .value option, [] => .ok (.value [] option none)
  | .value option, '=' :: text => .ok (.value [] option (some (String.ofList text)))
  | .value option, text => .ok (.value [] option (some (String.ofList text)))
  | .flag flag, ['='] => .error ⟨flag, ""⟩
  | .flag flag, '=' :: rest => behindFlag flag rest
  | .flag flag, rest => behindFlag flag rest

end OptionUse

/-- Whether what follows a hyphen makes a negative number with it: digits, with a point in front of
the last run of them or without one. A line feed at the end does not count. -/
def isNumber (body : List Char) : Bool :=
  let digits := if body.getLast? = some '\n' then body.dropLast else body
  let isRun := fun run : List Char => run != [] && run.all Text.isDecimalDigit
  isRun digits ||
    match digits.dropWhile Text.isDecimalDigit with
    | '.' :: fraction => isRun fraction
    | _ => false

/-- The mark behind which every word is plain. -/
def markText : String := "--"

inductive Word where
  | plain (text : String)
  | mark
  | behindMark (text : String)
  | option (use : OptionUse)
  /-- An option that is wrongly written. -/
  | misused (ignored : IgnoredValue)
  /-- A word like an option that is none. -/
  | unknown (text : String)
  deriving DecidableEq, Repr

namespace Word

def ofStray (text : String) (body : List Char) : Word :=
  if isNumber body || body.contains ' ' then .plain text else .unknown text

/-- The value behind the first equals sign, if there is one. -/
def valuePart (body : List Char) : Option (List Char) :=
  match body.dropWhile (· != '=') with
  | [] => none
  | _ :: value => some value

def ofUse : Except IgnoredValue OptionUse → Word
  | .error ignored => .misused ignored
  | .ok use => .option use

/-- A word in front of the mark, unless it can mean several options. -/
def ofText (text : String) : Except Ambiguity Word :=
  match text.toList with
  | '-' :: '-' :: body =>
      match OptionName.meanings (body.takeWhile (· != '=')) with
      | [] => .ok (ofStray text ('-' :: body))
      | [name] => .ok (ofUse (OptionUse.ofLong name (valuePart body)))
      | names => .error ⟨text, names⟩
  | '-' :: letter :: tail =>
      match OptionName.ofLetter? letter with
      | some name => .ok (ofUse (OptionUse.ofShort name tail))
      | none => .ok (ofStray text (letter :: tail))
  | _ => .ok (.plain text)

/-- All words of a command line, unless one can mean several options. -/
def list : List String → Except Ambiguity (List Word)
  | [] => .ok []
  | text :: texts =>
      if text = markText then .ok (.mark :: texts.map .behindMark)
      else (ofText text).bind fun word => (list texts).map (word :: ·)

end Word

end MexGlue
