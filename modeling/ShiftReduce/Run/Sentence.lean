/-
This file turns the words of a sentence into terminals and names the ways in which a sentence can be
refused.
-/

import ShiftReduce.Grammar.Basic
import ShiftReduce.Text.Quoted

namespace ShiftReduce

/-- The position of a token is counted from zero. -/
inductive RunError
  | tableConflict
  | invalidInput (token : String) (position : Nat)
  | unexpected (state : Nat) (lookahead : Symbol)
deriving DecidableEq

def RunError.message : RunError → String
  | .tableConflict => "conflict in parse table"
  | .invalidInput token position =>
      "input string is invalid: " ++ Text.quoted token ++ " at position " ++ toString position ++
        " is not a terminal"
  | .unexpected state lookahead =>
      "syntax error in state " ++ toString state ++ " on symbol " ++ toString lookahead

namespace Grammar

def terminal? (grammar : Grammar) (word : String) : Option Symbol :=
  (grammar.vocabulary.lookup word).filter grammar.vocabulary.isTerminal

/-- The first word that names no terminal decides the error. -/
def terminalsFrom (grammar : Grammar) (position : Nat) :
    List String → Except RunError (List Symbol)
  | [] => .ok []
  | word :: rest =>
      match grammar.terminal? word with
      | none => .error (.invalidInput word position)
      | some symbol =>
          match grammar.terminalsFrom (position + 1) rest with
          | .error fault => .error fault
          | .ok symbols => .ok (symbol :: symbols)

def terminals (grammar : Grammar) (sentence : String) : Except RunError (List Symbol) :=
  grammar.terminalsFrom 0 (Text.wordStrings sentence.toList)

/-- The end marker closes every tokenized sentence. -/
def tokenize (grammar : Grammar) (sentence : String) : Except RunError (List Symbol) :=
  match grammar.terminals sentence with
  | .error fault => .error fault
  | .ok symbols => .ok (symbols ++ [grammar.endMarker])

end Grammar

end ShiftReduce
