/-
This file lists a grammar with its lookahead sets and item sets, and it lays out a parse table and a
run as a grid and a tree as an outline.
-/

import ShiftReduce.Run.Trace
import ShiftReduce.Tree.Basic

namespace ShiftReduce.Listing

section Grid

/-- A text that is too long is not cut. -/
def padEnd (width : Nat) (text : String) : String :=
  text ++ String.ofList (List.replicate (width - text.length) ' ')

theorem length_padEnd {width : Nat} {text : String} (fits : text.length ≤ width) :
    (padEnd width text).length = width := by
  rw [padEnd, String.length_append, String.length_ofList, List.length_replicate]
  omega

/-- A column is as wide as its longest cell, counted in characters. -/
def columnWidth (rows : List (List String)) (column : Nat) : Nat :=
  ((rows.filterMap fun row => row[column]?).map String.length).foldl max 0

def columnWidths (rows : List (List String)) : List Nat :=
  (List.range ((rows.map List.length).foldl max 0)).map (columnWidth rows)

def gridLine (widths : List Nat) (cells : List String) : String :=
  let line := " | ".intercalate (List.zipWith padEnd widths cells)
  String.ofList (Text.trimEnd line.toList)

/-- The cells of a column begin at the same place in every line, and no line ends in a blank. -/
def grid (rows : List (List String)) : List String :=
  rows.map (gridLine (columnWidths rows))

/-- Every line of a listing is ended by a newline. -/
def text (lines : List String) : String :=
  String.join (lines.map fun line => line ++ "\n")

end Grid

section Grammar

def rules (grammar : Grammar) : List String :=
  grammar.rules.zipIdx.map fun numbered =>
    toString numbered.2 ++ " " ++ grammar.ruleText numbered.1

def terminalSet (grammar : Grammar) (set : OrderedSet Symbol) : String :=
  "\x7b " ++ ", ".intercalate (set.toList.map grammar.vocabulary.label) ++ " \x7d"

/-- Each nonterminal has one line for FIRST and one for FOLLOW. -/
def lookaheads (grammar : Grammar) : List String :=
  grammar.vocabulary.nonterminals.flatMap fun symbol =>
    let name := grammar.vocabulary.label symbol
    ["FIRST(" ++ name ++ ") = " ++ terminalSet grammar (grammar.first symbol),
      "FOLLOW(" ++ name ++ ") = " ++ terminalSet grammar (grammar.follow symbol)]

def dotMark : String := "•"

/-- A dot beyond the end of the rule is not shown. -/
def markDot (dot : Nat) (labels : List String) : List String :=
  if dot ≤ labels.length then labels.take dot ++ dotMark :: labels.drop dot else labels

def item (grammar : Grammar) (rule : Rule) (dot : Nat) : String :=
  " ".intercalate (grammar.vocabulary.label rule.lhs :: "→" ::
    markDot dot (rule.rhs.map grammar.vocabulary.label))

def itemTexts (grammar : Grammar) (items : ItemSet) : List String :=
  items.toList.filterMap fun marked =>
    grammar.rules[marked.rule]?.map fun rule => item grammar rule marked.dot

/-- Only the first item of a state carries the label of the state. -/
def state (grammar : Grammar) (number : Nat) (items : ItemSet) : List String :=
  match itemTexts grammar items with
  | [] => []
  | first :: others =>
      (padEnd 5 ("I" ++ toString number) ++ first) :: others.map fun other => padEnd 5 "" ++ other

/-- An empty line separates the states. -/
def collection (grammar : Grammar) (collection : Collection) : List String :=
  [""].intercalate (collection.states.zipIdx.map fun numbered =>
    state grammar numbered.2 numbered.1)

end Grammar

section Table

/-- The added start symbol has no column, since no rule contains it. -/
def gotoColumns (grammar : Grammar) : List Symbol :=
  grammar.vocabulary.nonterminals.drop 1

def tableHeader (grammar : Grammar) : List String :=
  "State" :: (grammar.vocabulary.terminalsAndEnd ++ gotoColumns grammar).map
    grammar.vocabulary.label

def actionCell : Option Action → String
  | none => ""
  | some action => action.text

def gotoCell : Option Nat → String
  | none => ""
  | some state => toString state

def tableRow (grammar : Grammar) (table : ParseTable) (state : Nat) : List String :=
  toString state ::
    ((grammar.vocabulary.terminalsAndEnd.map fun symbol =>
        actionCell (table.action state symbol)) ++
      (gotoColumns grammar).map fun symbol => gotoCell (table.goto state symbol))

def tableRows (grammar : Grammar) (table : ParseTable) : List (List String) :=
  tableHeader grammar :: (List.range table.stateCount).map (tableRow grammar table)

def conflict (grammar : Grammar) (cell : ConflictCell) : String :=
  "conflict in state " ++ toString cell.state ++ " on " ++ grammar.vocabulary.label cell.symbol ++
    ": " ++ (Action.conflict cell.actions).text

/-- The conflicts come after the grid, behind an empty line. -/
def table (grammar : Grammar) (table : ParseTable) : List String :=
  grid (tableRows grammar table) ++
    if table.hasConflict then "" :: table.conflicts.map (conflict grammar) else []

end Table

section Trace

def stackEntry (grammar : Grammar) : StackEntry → String
  | .state number => toString number
  | .symbol symbol => grammar.vocabulary.label symbol

/-- Only a reduction shows a rule. -/
def appliedRule (grammar : Grammar) : Move → String
  | .reduce index => (grammar.rules[index]?.map grammar.ruleText).getD ""
  | _ => ""

def traceRow (grammar : Grammar) (step : TraceStep) : List String :=
  [" ".intercalate (step.stack.map (stackEntry grammar)),
    " ".intercalate (step.input.map grammar.vocabulary.label),
    step.move.text,
    appliedRule grammar step.move]

def traceRows (grammar : Grammar) (trace : Trace) : List (List String) :=
  ["Stack", "Input", "Action", "Rule"] :: trace.steps.map (traceRow grammar)

def trace (grammar : Grammar) (trace : Trace) : List String :=
  grid (traceRows grammar trace)

end Trace

section Outline

/-- Each level of the tree is indented by two spaces. -/
def outlineLine (grammar : Grammar) (depth : Nat) (symbol : Symbol) : String :=
  String.ofList (List.replicate (2 * depth) ' ') ++ grammar.vocabulary.label symbol

mutual

def outline (grammar : Grammar) (depth : Nat) : Tree → List String
  | .node symbol children =>
      outlineLine grammar depth symbol :: outlines grammar (depth + 1) children

def outlines (grammar : Grammar) (depth : Nat) : List Tree → List String
  | [] => []
  | tree :: trees => outline grammar depth tree ++ outlines grammar depth trees

end

def tree (grammar : Grammar) (tree : Tree) : List String :=
  outline grammar 0 tree

end Outline

end ShiftReduce.Listing
