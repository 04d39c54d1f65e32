/-
This file keeps one compiled grammar and the latest trace of it together.
-/

import ShiftReduce.CompiledGrammar

namespace ShiftReduce

/-- A trace stands only beside the grammar that it belongs to. -/
inductive Session
  | empty
  | ready (compiled : CompiledGrammar)
  | traced (compiled : CompiledGrammar) (trace : Trace)

namespace Session

def compiled? : Session → Option CompiledGrammar
  | .empty => none
  | .ready compiled => some compiled
  | .traced compiled _ => some compiled

def trace? : Session → Option Trace
  | .traced _ trace => some trace
  | _ => none

/-- A compilation replaces the whole session, and a failed one leaves it empty. -/
def compile (_ : Session) (text : String) : Except GrammarError CompiledGrammar × Session :=
  match CompiledGrammar.ofText text with
  | .error error => (.error error, .empty)
  | .ok compiled => (.ok compiled, .ready compiled)

/-- Without a grammar there is nothing to run. -/
def run (session : Session) (sentence : String) : Option Trace × Session :=
  match session.compiled? with
  | none => (none, session)
  | some compiled =>
      let trace := compiled.run sentence
      (some trace, .traced compiled trace)

def clear (_ : Session) : Session := .empty

/-- The grammar stays. -/
def clearTrace : Session → Session
  | .traced compiled _ => .ready compiled
  | session => session

/-- There is a tree only for an accepted trace. -/
def tree? : Session → Option Tree
  | .traced compiled trace => (compiled.tree trace).toOption
  | _ => none

end Session

end ShiftReduce
