/-
This file reads productions from a text that holds one production on each line, and it names the
ways in which the text can be refused.
-/

import ShiftReduce.Text.Quoted
import ShiftReduce.Text.Words
import ShiftReduce.Vocabulary.Basic

namespace ShiftReduce

/-- Lines are counted from one, and blank lines count. -/
inductive GrammarError
  | empty
  | malformedLine (line : Nat) (text : String)
  | reservedSymbol (line : Nat) (symbol : String)
deriving DecidableEq

def GrammarError.message : GrammarError → String
  | .empty => "grammar is empty"
  | .malformedLine line text =>
      "line " ++ toString line ++ ": expected `lhs rhs...`, found " ++ Text.quoted text
  | .reservedSymbol line symbol =>
      "line " ++ toString line ++ ": symbol " ++ Text.quoted symbol ++
        " is reserved for the end marker"

/-- A production is a rule as it is written, before its names are numbered. -/
structure Production where
  head : String
  body : List String
  body_nonempty : body ≠ []
  words_allowed : ∀ word ∈ head :: body, Text.IsWord word ∧ word ≠ endMarkerName

namespace Production

def words (production : Production) : List String :=
  production.head :: production.body

/-- A blank line holds no production. -/
def ofLine (number : Nat) (line : List Char) : Except GrammarError (Option Production) :=
  match found : Text.wordStrings line with
  | [] => .ok none
  | [_] => .error (.malformedLine number (String.ofList (Text.trim line)))
  | head :: next :: others =>
      if reserved : endMarkerName ∈ head :: next :: others then
        .error (.reservedSymbol number endMarkerName)
      else
        .ok (some ⟨head, next :: others, by simp, fun word listed =>
          ⟨Text.isWord_of_mem_wordStrings (found ▸ listed),
            fun same => reserved (same ▸ listed)⟩⟩)

/-- The first faulty line decides the error. -/
def ofLines (number : Nat) : List (List Char) → Except GrammarError (List Production)
  | [] => .ok []
  | line :: rest =>
      match ofLine number line with
      | .error fault => .error fault
      | .ok found =>
          match ofLines (number + 1) rest with
          | .error fault => .error fault
          | .ok productions => .ok (found.toList ++ productions)

def ofText (text : String) : Except GrammarError (List Production) :=
  ofLines 1 (Text.lines text.toList)

end Production

end ShiftReduce
