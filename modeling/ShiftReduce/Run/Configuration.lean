/-
This file defines the configurations of a parser and the moves between them.
-/

import ShiftReduce.Run.Sentence
import ShiftReduce.Table.ParseTable

namespace ShiftReduce

/-- A frame holds a recognized symbol and the state that the parser entered on it. -/
structure Frame where
  symbol : Symbol
  state : Nat
deriving DecidableEq

/--
The last frame comes first, and state 0 lies below all frames. The input holds the terminals that
are left, and the end marker stands behind them.
-/
structure Configuration where
  stack : List Frame
  input : List Symbol
deriving DecidableEq

/-- A stack shows as states and symbols in turn, from state 0 up. -/
inductive StackEntry
  | state (number : Nat)
  | symbol (symbol : Symbol)
deriving DecidableEq

inductive Move
  | shift (state : Nat)
  | reduce (rule : Nat)
  | accept
  | refuse (error : RunError)
deriving DecidableEq

def Move.text : Move → String
  | .shift state => (Action.shift state).text
  | .reduce rule => (Action.reduce rule).text
  | .accept => Action.accept.text
  | .refuse error => "Error: " ++ error.message

def topState : List Frame → Nat
  | [] => 0
  | frame :: _ => frame.state

namespace Configuration

def initial (terminals : List Symbol) : Configuration := ⟨[], terminals⟩

def entries (configuration : Configuration) : List StackEntry :=
  .state 0 :: configuration.stack.reverse.flatMap fun frame =>
    [.symbol frame.symbol, .state frame.state]

def lookahead (grammar : Grammar) (configuration : Configuration) : Symbol :=
  configuration.input.head?.getD grammar.endMarker

/-- The table decides the move by the top state and the first symbol that is left. -/
def move (grammar : Grammar) (table : ParseTable) (configuration : Configuration) : Move :=
  let state := topState configuration.stack
  let lookahead := configuration.lookahead grammar
  match table.action state lookahead with
  | none => .refuse (.unexpected state lookahead)
  | some (.shift next) => .shift next
  | some (.reduce rule) => .reduce rule
  | some .accept => .accept
  | some (.conflict _) => .refuse .tableConflict

/-- A reduction replaces one frame for each symbol of the rule by a frame for its left-hand side. -/
def reduce (table : ParseTable) (rule : Rule) (configuration : Configuration) :
    Option Configuration :=
  let uncovered := configuration.stack.drop rule.rhs.length
  (table.goto (topState uncovered) rule.lhs).map fun next =>
    { configuration with stack := ⟨rule.lhs, next⟩ :: uncovered }

/-- Accepting and refusing end the run. -/
def apply (grammar : Grammar) (table : ParseTable) (configuration : Configuration) :
    Move → Option Configuration
  | .shift next =>
      some ⟨⟨configuration.lookahead grammar, next⟩ :: configuration.stack,
        configuration.input.tail⟩
  | .reduce rule => grammar.rules[rule]?.bind fun rule => configuration.reduce table rule
  | .accept => none
  | .refuse _ => none

end Configuration

end ShiftReduce
