/-
This file rebuilds the derivation tree of an accepted run from its reductions.
-/

import ShiftReduce.Run.Trace
import ShiftReduce.Tree.Basic

namespace ShiftReduce

inductive TreeError
  | notAccepted
  | noReductions
  | unknownRule (step rule : Nat)
  | unattached (step rule : Nat)
deriving DecidableEq

def TreeError.message : TreeError → String
  | .notAccepted => "trace did not end in accept"
  | .noReductions => "trace contains no reductions"
  | .unknownRule step rule =>
      "reduce at step " ++ toString step ++ " names unknown rule " ++ toString rule
  | .unattached step rule =>
      "reduce by rule " ++ toString rule ++ " at step " ++ toString step ++
        " has no open node to attach to"

namespace Tree

/-- The first reduction makes its left-hand side the root. -/
def attach (rules : List Rule) (tree : Option Tree) (reduction : Reduction) :
    Except TreeError Tree :=
  match rules[reduction.rule]? with
  | none => .error (.unknownRule reduction.step reduction.rule)
  | some rule =>
      match (tree.getD (leaf rule.lhs)).expand? rule with
      | none => .error (.unattached reduction.step reduction.rule)
      | some expanded => .ok expanded

def replay (rules : List Rule) : Option Tree → List Reduction → Except TreeError (Option Tree)
  | tree, [] => .ok tree
  | tree, reduction :: rest =>
      match attach rules tree reduction with
      | .error error => .error error
      | .ok expanded => replay rules (some expanded) rest

/-- The reductions of a run are a rightmost derivation in reverse, so the last one comes first. -/
def ofTrace (trace : Trace) (rules : List Rule) : Except TreeError Tree :=
  if trace.isAccepted then
    match replay rules none trace.reductions.reverse with
    | .error error => .error error
    | .ok none => .error .noReductions
    | .ok (some tree) => .ok tree
  else .error .notAccepted

end Tree

end ShiftReduce
