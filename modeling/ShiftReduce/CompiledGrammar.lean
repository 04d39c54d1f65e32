/-
This file collects everything that is derived from one grammar text.
-/

import ShiftReduce.Grammar.Numbering
import ShiftReduce.Tree.Replay

namespace ShiftReduce

/-- The collection and the table are those of the grammar, and they are computed once. -/
structure CompiledGrammar where
  grammar : Grammar
  collection : Collection
  table : ParseTable
  collection_eq : collection = grammar.collection
  table_eq : table = grammar.parseTable collection

theorem toOption_eq_some_iff {Fault Value : Type} {result : Except Fault Value} {value : Value} :
    result.toOption = some value ↔ result = .ok value := by
  cases result <;> simp [Except.toOption]

namespace CompiledGrammar

def ofGrammar (grammar : Grammar) : CompiledGrammar :=
  let collection := grammar.collection
  ⟨grammar, collection, grammar.parseTable collection, rfl, rfl⟩

/-- A grammar whose table has conflicts is still compiled. -/
def ofText (text : String) : Except GrammarError CompiledGrammar :=
  match Grammar.ofText text with
  | .error error => .error error
  | .ok grammar => .ok (ofGrammar grammar)

/-- What can be evaluated of a compiled text holds of a compiled grammar. -/
theorem exists_of_ofText (text : String) (property : CompiledGrammar → Bool)
    (evaluated : (ofText text).toOption.any property = true) :
    ∃ compiled, ofText text = .ok compiled ∧ property compiled = true := by
  cases compiles : ofText text with
  | error fault =>
      rw [compiles] at evaluated
      cases evaluated
  | ok compiled =>
      rw [compiles] at evaluated
      exact ⟨compiled, rfl, evaluated⟩

def hasConflict (compiled : CompiledGrammar) : Bool :=
  compiled.table.hasConflict

def run (compiled : CompiledGrammar) (sentence : String) : Trace :=
  compiled.grammar.run compiled.table sentence

def tree (compiled : CompiledGrammar) (trace : Trace) : Except TreeError Tree :=
  Tree.ofTrace trace compiled.grammar.rules

end CompiledGrammar

end ShiftReduce
