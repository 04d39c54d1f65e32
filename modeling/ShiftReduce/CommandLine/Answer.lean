/-
This file answers the commands of the command line.
-/

import ShiftReduce.CommandLine.Arguments
import ShiftReduce.Listing
import ShiftReduce.Session

namespace ShiftReduce.CommandLine

inductive ReadError
  | notFound
  | isDirectory
  | notText
deriving DecidableEq

def ReadError.message : ReadError → String
  | .notFound => "No such file or directory (os error 2)"
  | .isDirectory => "Is a directory (os error 21)"
  | .notText => "stream did not contain valid UTF-8"

/-- The files that a command may read are given as a function of their paths. -/
abbrev Files := String → Except ReadError ByteArray

def readText (files : Files) (path : String) : Except ReadError String :=
  match files path with
  | .error error => .error error
  | .ok bytes =>
      match String.fromUTF8? bytes with
      | none => .error .notText
      | some text => .ok text

/-- What was printed before a failure stays printed. -/
structure Answer where
  exitCode : Nat
  output : String
  errors : String
deriving DecidableEq

namespace Answer

/-- The arguments were not understood. -/
def usage : Answer :=
  ⟨2, "", "usage: (table | parse | example) [-g GRAMMAR] [-s SENTENCE | -i INPUT]\n"⟩

def success (output : List String) : Answer := ⟨0, Listing.text output, ""⟩

def failure (output : List String) (message : String) : Answer :=
  ⟨1, Listing.text output, "Error: " ++ message ++ "\n"⟩

def failureBecause (message cause : String) : Answer :=
  failure [] (message ++ "\n\nCaused by:\n    " ++ cause)

end Answer

def tables (compiled : CompiledGrammar) : List String :=
  "Grammar:" :: Listing.rules compiled.grammar ++
    "" :: "FIRST/FOLLOW:" :: Listing.lookaheads compiled.grammar ++
    "" :: "LR(0) collection:" :: Listing.collection compiled.grammar compiled.collection ++
    "" :: "Parse table:" :: Listing.table compiled.grammar compiled.table

def steps (compiled : CompiledGrammar) (trace : Trace) : List String :=
  "Parse steps:" :: Listing.trace compiled.grammar trace

/-- The steps are printed even when the sentence is refused. -/
def parse (shown : List String) (compiled : CompiledGrammar) (sentence : String) : Answer :=
  let trace := compiled.run sentence
  let shown := shown ++ steps compiled trace
  match trace.error with
  | some error => .failure shown error.message
  | none =>
      match compiled.tree trace with
      | .error _ => .success shown
      | .ok tree => .success (shown ++ "" :: "Parse tree:" :: Listing.tree compiled.grammar tree)

def load (files : Files) (path : String) : Except Answer CompiledGrammar :=
  match readText files path with
  | .error error =>
      .error (.failureBecause ("can't read grammar " ++ Text.quoted path) error.message)
  | .ok text =>
      match CompiledGrammar.ofText text with
      | .error error =>
          .error (.failureBecause ("can't compile grammar " ++ Text.quoted path) error.message)
      | .ok compiled => .ok compiled

def readSentence (files : Files) : Option Source → Except Answer String
  | some (.text sentence) => .ok sentence
  | some (.file path) =>
      match readText files path with
      | .error error =>
          .error (.failureBecause ("can't read sentence " ++ Text.quoted path) error.message)
      | .ok sentence => .ok sentence
  | none => .error (.failure [] "either --sentence or --input is required")

def sampleGrammar : String := "E E + T\nE T\nT T * F\nT F\nF ( E )\nF id"

def sampleSentence : String := "id * id + id"

/-- The sample shows the tables first and then the parse of the sample sentence. -/
def sample : Answer :=
  match CompiledGrammar.ofText sampleGrammar with
  | .error error => .failure [] error.message
  | .ok compiled =>
      parse (tables compiled ++ ["", "Sentence: " ++ sampleSentence, ""]) compiled sampleSentence

/-- The grammar is loaded before the sentence is looked for. -/
def answer (files : Files) : Command → Answer
  | .table grammar =>
      match load files grammar with
      | .error answer => answer
      | .ok compiled => .success (tables compiled)
  | .parse grammar source =>
      match load files grammar with
      | .error answer => answer
      | .ok compiled =>
          match readSentence files source with
          | .error answer => answer
          | .ok sentence => parse [] compiled sentence
  | .sample => sample

/-- Arguments that name no command are answered without a look at the files. -/
def answerArguments (files : Files) (arguments : List String) : Answer :=
  match Command.ofArguments arguments with
  | none => .usage
  | some command => answer files command

end ShiftReduce.CommandLine
