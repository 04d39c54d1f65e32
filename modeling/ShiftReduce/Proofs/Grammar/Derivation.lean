/-
This file defines the derivations of a grammar as rewriting of symbol strings.
-/

import Mathlib.Logic.Relation
import ShiftReduce.Proofs.Grammar.Symbols

namespace ShiftReduce

/-- Every symbol of a rule is replaced by another one. -/
def Rule.rename (rename : Symbol → Symbol) (rule : Rule) : Rule :=
  ⟨rename rule.lhs, rule.rhs.map rename⟩

/-- A step replaces one occurrence of a left-hand side by the right-hand side of its rule. -/
inductive Rewrites (rules : List Rule) : List Symbol → List Symbol → Prop
  | step (front back : List Symbol) (rule : Rule) (listed : rule ∈ rules) :
      Rewrites rules (front ++ rule.lhs :: back) (front ++ (rule.rhs ++ back))

/-- A derivation makes any number of steps. -/
def Derives (rules : List Rule) : List Symbol → List Symbol → Prop :=
  Relation.ReflTransGen (Rewrites rules)

namespace Derives

variable {rules : List Rule} {before after last : List Symbol}

theorem refl (symbols : List Symbol) : Derives rules symbols symbols :=
  Relation.ReflTransGen.refl

theorem trans (first : Derives rules before after) (second : Derives rules after last) :
    Derives rules before last :=
  Relation.ReflTransGen.trans first second

theorem ofRule {rule : Rule} (listed : rule ∈ rules) : Derives rules [rule.lhs] rule.rhs := by
  have step := Rewrites.step [] [] rule listed
  rw [List.nil_append, List.nil_append, List.append_nil] at step
  exact Relation.ReflTransGen.single step

/-- A derivation may stand between two other strings. -/
theorem inContext (derives : Derives rules before after) (front back : List Symbol) :
    Derives rules (front ++ before ++ back) (front ++ after ++ back) := by
  induction derives with
  | refl => exact refl _
  | tail _ last ih =>
      apply Relation.ReflTransGen.tail ih
      cases last with
      | step inner outer rule listed =>
          have step := Rewrites.step (front ++ inner) (outer ++ back) rule listed
          simpa only [List.append_assoc, List.cons_append] using step

theorem append {moreBefore moreAfter : List Symbol} (first : Derives rules before after)
    (second : Derives rules moreBefore moreAfter) :
    Derives rules (before ++ moreBefore) (after ++ moreAfter) := by
  have left := first.inContext [] moreBefore
  have right := second.inContext after []
  rw [List.nil_append, List.nil_append] at left
  rw [List.append_nil, List.append_nil] at right
  exact left.trans right

/-- Renamed symbols are derived by the renamed rules. -/
theorem map {more : List Rule} (rename : Symbol → Symbol)
    (renamed : ∀ rule ∈ rules, rule.rename rename ∈ more) (derives : Derives rules before after) :
    Derives more (before.map rename) (after.map rename) := by
  induction derives with
  | refl => exact refl _
  | tail _ last ih =>
      apply Relation.ReflTransGen.tail ih
      cases last with
      | step front back rule listed =>
          have step := Rewrites.step (front.map rename) (back.map rename) _ (renamed rule listed)
          simpa [Rule.rename] using step

/-- More rules leave the derivations as they are. -/
theorem mono {more : List Rule} (included : rules ⊆ more) (derives : Derives rules before after) :
    Derives more before after := by
  simpa using derives.map id fun rule listed => by simpa [Rule.rename] using included listed

end Derives

end ShiftReduce
