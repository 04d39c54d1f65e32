/-
This file defines derivation trees.
-/

import ShiftReduce.Grammar.Basic

namespace ShiftReduce

inductive Tree
  | node (symbol : Symbol) (children : List Tree)

namespace Tree

mutual

def decideEq : (first second : Tree) → Decidable (first = second)
  | .node symbol children, .node other others =>
      if same : symbol = other then
        match decideEqList children others with
        | isTrue equal => isTrue (by rw [same, equal])
        | isFalse different => isFalse fun equal => different (node.inj equal).2
      else isFalse fun equal => same (node.inj equal).1

def decideEqList : (first second : List Tree) → Decidable (first = second)
  | [], [] => isTrue rfl
  | tree :: trees, other :: others =>
      match decideEq tree other, decideEqList trees others with
      | isTrue same, isTrue rest => isTrue (by rw [same, rest])
      | isFalse different, _ => isFalse fun same => different (List.cons.inj same).1
      | _, isFalse different => isFalse fun same => different (List.cons.inj same).2
  | [], _ :: _ | _ :: _, [] => isFalse nofun

end

instance : DecidableEq Tree := decideEq

def leaf (symbol : Symbol) : Tree := .node symbol []

def symbol : Tree → Symbol
  | .node symbol _ => symbol

def children : Tree → List Tree
  | .node _ children => children

def isLeaf (tree : Tree) : Bool :=
  tree.children.isEmpty

mutual

/-- A node without children is a leaf, whatever its symbol is. -/
def leaves : Tree → List Symbol
  | .node symbol [] => [symbol]
  | .node _ (child :: children) => leavesOf (child :: children)

def leavesOf : List Tree → List Symbol
  | [] => []
  | tree :: trees => leaves tree ++ leavesOf trees

end

theorem leavesOf_eq_flatMap (trees : List Tree) : leavesOf trees = trees.flatMap leaves := by
  induction trees with
  | nil => rfl
  | cons tree rest inductionHypothesis =>
      rw [leavesOf, inductionHypothesis, List.flatMap_cons]

mutual

/-- The rightmost leaf with the left-hand side as its symbol gets the right-hand side as children. -/
def expand? (rule : Rule) : Tree → Option Tree
  | .node symbol [] =>
      if symbol = rule.lhs then some (.node symbol (rule.rhs.map leaf)) else none
  | .node symbol (child :: children) =>
      (expandOf? rule (child :: children)).map (node symbol)

def expandOf? (rule : Rule) : List Tree → Option (List Tree)
  | [] => none
  | tree :: trees =>
      match expandOf? rule trees with
      | some expanded => some (tree :: expanded)
      | none => (expand? rule tree).map (· :: trees)

end

end Tree

end ShiftReduce
