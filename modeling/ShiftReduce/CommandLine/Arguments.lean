/-
This file reads the arguments of the command line.
-/

namespace ShiftReduce.CommandLine

/-- A field is an option that takes a value. -/
inductive Field
  | grammar
  | sentence
  | input
deriving DecidableEq

namespace Field

def letter : Field → Char
  | .grammar => 'g'
  | .sentence => 's'
  | .input => 'i'

def word : Field → List Char
  | .grammar => "grammar".toList
  | .sentence => "sentence".toList
  | .input => "input".toList

/-- A path names a file, so it cannot be empty. -/
def accepts (value : String) : Field → Bool
  | .sentence => true
  | .grammar | .input => !value.isEmpty

end Field

/-- One word holds debug flags and at most one field, whose value may stand in the next word. -/
structure OptionWord where
  debugFlags : Nat
  field : Option (Field × Option String)

namespace OptionWord

/-- In a word with one dash every letter is an option until one takes the rest as its value. -/
def ofLetters (fields : List Field) : List Char → Option OptionWord
  | [] => some ⟨0, none⟩
  | 'd' :: rest =>
      (ofLetters fields rest).map fun word => { word with debugFlags := word.debugFlags + 1 }
  | letter :: rest =>
      (fields.find? fun field => field.letter == letter).map fun field =>
        match rest with
        | [] => ⟨0, some (field, none)⟩
        | '=' :: value => ⟨0, some (field, some (String.ofList value))⟩
        | value => ⟨0, some (field, some (String.ofList value))⟩

/-- In a word with two dashes an equals sign stands before the value. -/
def ofName (fields : List Field) (name : List Char) : Option OptionWord :=
  if name = "debug".toList then some ⟨1, none⟩
  else
    (fields.find? fun field => field.word == name.takeWhile (· != '=')).map fun field =>
      match name.dropWhile (· != '=') with
      | [] => ⟨0, some (field, none)⟩
      | _ :: value => ⟨0, some (field, some (String.ofList value))⟩

/-- A word that is no option is refused, since no argument stands for itself. -/
def ofWord (fields : List Field) (word : String) : Option OptionWord :=
  match word.toList with
  | '-' :: '-' :: name => ofName fields name
  | '-' :: letter :: letters => ofLetters fields (letter :: letters)
  | _ => none

end OptionWord

structure Settings where
  debugFlags : Nat
  values : List (Field × String)

/-- A word of its own is a value unless it looks like an option. -/
def isValue (word : String) : Bool :=
  match word.toList with
  | '-' :: _ :: _ => false
  | _ => true

/-- Two dashes end the options, and nothing may stand behind them. -/
def Settings.ofWords (fields : List Field) : List String → Option Settings
  | [] => some ⟨0, []⟩
  | ["--"] => some ⟨0, []⟩
  | word :: rest =>
      match OptionWord.ofWord fields word with
      | none => none
      | some ⟨flags, none⟩ =>
          (ofWords fields rest).map fun settings =>
            { settings with debugFlags := flags + settings.debugFlags }
      | some ⟨flags, some (field, some value)⟩ =>
          (ofWords fields rest).map fun settings =>
            ⟨flags + settings.debugFlags, (field, value) :: settings.values⟩
      | some ⟨flags, some (field, none)⟩ =>
          match rest with
          | [] => none
          | value :: rest =>
              if isValue value then
                (ofWords fields rest).map fun settings =>
                  ⟨flags + settings.debugFlags, (field, value) :: settings.values⟩
              else none

/-- No option may be repeated, and every value has to be one that its field accepts. -/
def Settings.isConsistent (settings : Settings) : Bool :=
  settings.debugFlags ≤ 1 && decide (settings.values.map Prod.fst).Nodup &&
    settings.values.all fun setting => setting.1.accepts setting.2

def Settings.value? (settings : Settings) (field : Field) : Option String :=
  settings.values.lookup field

/-- The sentence of a parse is given as it is or in a file. -/
inductive Source
  | text (sentence : String)
  | file (path : String)
deriving DecidableEq

inductive Command
  | table (grammar : String)
  | parse (grammar : String) (source : Option Source)
  | sample
deriving DecidableEq

namespace Command

def settings? (fields : List Field) (words : List String) : Option Settings :=
  (Settings.ofWords fields words).filter Settings.isConsistent

def table? (words : List String) : Option Command :=
  (settings? [.grammar] words).bind fun settings =>
    (settings.value? .grammar).map table

/-- A sentence and a file of a sentence exclude each other. -/
def parse? (words : List String) : Option Command :=
  (settings? [.grammar, .sentence, .input] words).bind fun settings =>
    (settings.value? .grammar).bind fun grammar =>
      match settings.value? .sentence, settings.value? .input with
      | some _, some _ => none
      | some sentence, none => some (parse grammar (some (.text sentence)))
      | none, some path => some (parse grammar (some (.file path)))
      | none, none => some (parse grammar none)

def sample? (words : List String) : Option Command :=
  (settings? [] words).map fun _ => sample

/-- Debug flags may stand before the name of the command, but not twice. -/
def ofWords (debugFlags : Nat) : List String → Option Command
  | [] => none
  | "table" :: words => table? words
  | "parse" :: words => parse? words
  | "example" :: words => sample? words
  | word :: words =>
      (OptionWord.ofWord [] word).bind fun option =>
        if debugFlags + option.debugFlags ≤ 1 then ofWords (debugFlags + option.debugFlags) words
        else none

/-- Arguments that name no command are a usage error. -/
def ofArguments (arguments : List String) : Option Command :=
  ofWords 0 arguments

/-- These files are read when the command runs. -/
def paths : Command → List String
  | .table grammar => [grammar]
  | .parse grammar (some (.file path)) => [grammar, path]
  | .parse grammar _ => [grammar]
  | .sample => []

end Command

end ShiftReduce.CommandLine
