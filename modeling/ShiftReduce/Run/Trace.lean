/-
This file runs a parse table over a sentence and records every step.
-/

import ShiftReduce.Run.Configuration
import ShiftReduce.Run.Sentence

namespace ShiftReduce

/-- A step shows the stack and the input as they were before its move. -/
structure TraceStep where
  stack : List StackEntry
  input : List Symbol
  move : Move
deriving DecidableEq

inductive RunState
  | running
  | accepted
  | syntaxError
  | invalidInput
  | tableConflict
deriving DecidableEq

def RunError.runState : RunError → RunState
  | .tableConflict => .tableConflict
  | .invalidInput _ _ => .invalidInput
  | .unexpected _ _ => .syntaxError

structure Reduction where
  step : Nat
  rule : Nat
deriving DecidableEq

structure Trace where
  steps : List TraceStep
deriving DecidableEq

namespace Trace

def lastMove (trace : Trace) : Option Move :=
  trace.steps.getLast?.map TraceStep.move

/-- The last move tells how the run ended, and a run without end is still running. -/
def state (trace : Trace) : RunState :=
  match trace.lastMove with
  | some .accept => .accepted
  | some (.refuse error) => error.runState
  | _ => .running

def isAccepted (trace : Trace) : Bool :=
  trace.state == .accepted

theorem isAccepted_iff {trace : Trace} :
    trace.isAccepted = true ↔ trace.lastMove = some .accept := by
  rw [isAccepted, beq_iff_eq, state]
  split
  · next last => exact ⟨fun _ => last, fun _ => rfl⟩
  · next error last =>
      rw [last]
      cases error <;> exact ⟨nofun, nofun⟩
  · next other _ => exact ⟨nofun, fun last => absurd last other⟩

def error (trace : Trace) : Option RunError :=
  match trace.lastMove with
  | some (.refuse error) => some error
  | _ => none

/-- The reductions are listed with the numbers of their steps, in the order of the run. -/
def reductions (trace : Trace) : List Reduction :=
  trace.steps.zipIdx.filterMap fun numbered =>
    match numbered.1.move with
    | .reduce rule => some ⟨numbered.2, rule⟩
    | _ => none

/-- A run that is refused before it starts has one step without stack and input. -/
def refused (error : RunError) : Trace :=
  ⟨[⟨[], [], .refuse error⟩]⟩

end Trace

namespace Grammar

def record (grammar : Grammar) (table : ParseTable) : Nat → Configuration → List TraceStep
  | 0, _ => []
  | fuel + 1, configuration =>
      let move := configuration.move grammar table
      ⟨configuration.entries, configuration.input ++ [grammar.endMarker], move⟩ ::
        match configuration.apply grammar table move with
        | none => []
        | some next => record grammar table fuel next

/--
Behind a shift each height of the stack sees each nonterminal at most once, unless the run never
ends, and the stack is no higher than the number of shifts. So a run that ends makes no more steps
than this, and a run without end is cut off here.
-/
def stepLimit (grammar : Grammar) (terminalCount : Nat) : Nat :=
  terminalCount * (grammar.vocabulary.nonterminalCount * terminalCount + 1) + 1

/-- A table with a conflict refuses every sentence. -/
def run (grammar : Grammar) (table : ParseTable) (sentence : String) : Trace :=
  if table.hasConflict then .refused .tableConflict
  else
    match grammar.terminals sentence with
    | .error error => .refused error
    | .ok terminals =>
        ⟨grammar.record table (grammar.stepLimit terminals.length) (.initial terminals)⟩

end Grammar

end ShiftReduce
