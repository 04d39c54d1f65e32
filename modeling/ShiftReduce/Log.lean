/-
This file tells what is logged while a grammar is compiled and a sentence is run.
-/

import ShiftReduce.CompiledGrammar

namespace ShiftReduce

inductive LogLevel
  | info
  | debug
  | trace
deriving DecidableEq

structure LogEntry where
  level : LogLevel
  message : String
deriving DecidableEq

namespace LogLevel

/-- A level with more detail has a larger number. -/
def detail : LogLevel → Nat
  | .info => 0
  | .debug => 1
  | .trace => 2

def name : LogLevel → String
  | .info => "INFO"
  | .debug => "DEBUG"
  | .trace => "TRACE"

end LogLevel

/-- Without a level nothing is kept. -/
def LogEntry.keep (level : Option LogLevel) (entries : List LogEntry) : List LogEntry :=
  entries.filter fun entry => level.any fun most => entry.level.detail ≤ most.detail

namespace Grammar

def logCompilation (grammar : Grammar) : LogEntry :=
  ⟨.debug, "compiled " ++ toString grammar.rules.length ++ " rules over " ++
    toString grammar.vocabulary.size ++ " symbols (" ++
    toString grammar.vocabulary.nonterminalCount ++ " nonterminals)"⟩

def stackEntryLog (grammar : Grammar) : StackEntry → String
  | .state number => "<" ++ toString number ++ "> "
  | .symbol symbol => grammar.vocabulary.label symbol ++ " "

/-- Every entry and every symbol is followed by a space. -/
def configurationLog (grammar : Grammar) (step : TraceStep) : String :=
  String.join (step.stack.map grammar.stackEntryLog) ++ " <-  " ++
    String.join (step.input.map fun symbol => grammar.vocabulary.label symbol ++ " ")

/-- A run that is refused before it starts logs nothing. -/
def logStep (grammar : Grammar) (step : TraceStep) : List LogEntry :=
  let configuration : LogEntry := ⟨.trace, grammar.configurationLog step⟩
  match step.move with
  | .shift state => [configuration, ⟨.trace, "Shift " ++ toString state⟩]
  | .reduce rule => [configuration, ⟨.trace, "Reduce " ++ toString rule⟩]
  | .accept => [configuration, ⟨.trace, "Accept"⟩]
  | .refuse (.unexpected _ _) => [configuration]
  | .refuse (.invalidInput _ _) => []
  | .refuse .tableConflict => []

end Grammar

namespace CompiledGrammar

def logCompilation (compiled : CompiledGrammar) : List LogEntry :=
  [compiled.grammar.logCompilation,
    ⟨.debug, "LR(0) collection has " ++ toString compiled.collection.size ++ " states"⟩,
    ⟨.debug, "SLR(1) table: " ++ toString compiled.table.stateCount ++ " states, " ++
      toString compiled.table.conflicts.length ++ " conflict cells"⟩]

def logRun (compiled : CompiledGrammar) (trace : Trace) : List LogEntry :=
  trace.steps.flatMap compiled.grammar.logStep

def logTree (compiled : CompiledGrammar) (trace : Trace) : List LogEntry :=
  match compiled.tree trace with
  | .error error => [⟨.debug, "no parse tree: " ++ error.message⟩]
  | .ok _ => []

end CompiledGrammar

end ShiftReduce
