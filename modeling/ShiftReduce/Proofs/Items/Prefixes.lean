/-
This file shows that a string for which an item is valid begins a sentential form.
-/

import ShiftReduce.Proofs.Grammar.Derivation
import ShiftReduce.Proofs.Items.ValidItems

namespace ShiftReduce.Grammar

variable (grammar : Grammar)

/-- The added start symbol derives some string with the given front. -/
def BeginsForm (front : List Symbol) : Prop :=
  ∃ rest, Derives grammar.rules [0] (front ++ rest)

variable {grammar} {item : Item} {string front after : List Symbol} {callers : List Item}

theorem recognized_of_rule {rule : Rule} (found : grammar.rules[item.rule]? = some rule) :
    grammar.recognized item = rule.rhs.take item.dot := by
  simp [recognized, found]

/-- The callers of a spine have recognized a string that the rule of its last item can follow. -/
theorem derives_of_isSpine (spine : grammar.IsSpine (callers ++ [item])) {rule : Rule}
    (found : grammar.rules[item.rule]? = some rule) : ∃ rest,
      Derives grammar.rules [0] (callers.flatMap grammar.recognized ++ rule.lhs :: rest) := by
  induction callers using List.reverseRecOn generalizing item rule with
  | nil =>
      have added : item.rule = 0 := isSpine_singleton.1 spine
      rw [added, grammar.rules_zero, Option.some.injEq] at found
      subst found
      exact ⟨[], Derives.refl [0]⟩
  | append_singleton callers caller ih =>
      obtain ⟨spine, called, again, reads⟩ := isSpine_concat.1 spine
      obtain rfl := Option.some.inj (again.symm.trans found)
      obtain ⟨calling, listed, inside⟩ := exists_rule_of_nextSymbol reads
      obtain ⟨rest, derives⟩ := ih spine listed
      obtain ⟨bound, here⟩ := List.getElem?_eq_some_iff.1 inside
      have split : calling.rhs = calling.rhs.take caller.dot ++
          called.lhs :: calling.rhs.drop (caller.dot + 1) := by
        rw [← here, List.getElem_cons_drop, List.take_append_drop]
      have replaced := (Derives.ofRule (List.mem_of_getElem? listed)).inContext
        (callers.flatMap grammar.recognized) rest
      rw [split] at replaced
      refine ⟨calling.rhs.drop (caller.dot + 1) ++ rest, ?_⟩
      rw [List.append_cons] at derives
      simpa [recognized_of_rule listed] using derives.trans replaced

/-- What was recognized on the way to an item begins a sentential form. -/
theorem Valid.beginsForm (valid : grammar.Valid string item) : grammar.BeginsForm string := by
  obtain ⟨⟨rule, found, _⟩, callers, spine, rfl⟩ := valid
  obtain ⟨rest, derives⟩ := derives_of_isSpine spine found
  have replaced := (Derives.ofRule (List.mem_of_getElem? found)).inContext
    (callers.flatMap grammar.recognized) rest
  refine ⟨rule.rhs.drop item.dot ++ rest, ?_⟩
  rw [List.append_cons] at derives
  rw [List.flatMap_append, List.flatMap_singleton, recognized_of_rule found, List.append_assoc,
    ← List.append_assoc (rule.rhs.take item.dot), List.take_append_drop, ← List.append_assoc]
  exact derives.trans replaced

/-- A front may go on deriving on its own. -/
theorem BeginsForm.derives (begins : grammar.BeginsForm front)
    (derives : Derives grammar.declaredRules front after) : grammar.BeginsForm after := by
  obtain ⟨rest, form⟩ := begins
  have onward := (derives.mono grammar.declaredRules_subset).append (Derives.refl rest)
  exact ⟨rest, form.trans onward⟩

end ShiftReduce.Grammar
