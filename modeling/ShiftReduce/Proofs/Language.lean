/-
This file shows that the accepted sentences are exactly the derivable ones.
-/

import ShiftReduce.Proofs.Run.Outcome
import ShiftReduce.Proofs.Run.Walk

namespace ShiftReduce.CompiledGrammar

variable {compiled : CompiledGrammar} {sentence : String}
  (conflictFree : compiled.hasConflict = false)

include conflictFree

/--
An accepted run builds one parse of the whole sentence, and its reductions are the rules of the
inner nodes in postorder. No other rule number names such a rule.
-/
theorem exists_tree_of_accepted (accepted : (compiled.run sentence).state = .accepted) :
    ∃ tree : Tree, compiled.grammar.Spells sentence tree.leaves ∧
      tree.IsParse compiled.grammar ∧
      Tree.assemble compiled.grammar.rules [] (compiled.run sentence).steps = [tree] ∧
      tree.postorder.map some = (compiled.run sentence).reductions.map
        (fun reduction => compiled.grammar.rules[reduction.rule]?) ∧
      ∀ reduction ∈ (compiled.run sentence).reductions, ∀ other,
        compiled.grammar.rules[other]? = compiled.grammar.rules[reduction.rule]? →
          other = reduction.rule := by
  have unblocked := table_hasConflict conflictFree
  obtain ⟨terminals, visited, last, spells, passes, accepting⟩ :=
    (accepted_iff conflictFree).1 accepted
  have consistent := Configuration.consistent_initial spells.terminal
  have ending := consistent.reaches unblocked passes.reaches
  have assembled := (Tree.assembled_initial terminals).passes unblocked consistent passes
  obtain ⟨tree, alone, rfl, parse, order⟩ := assembled.accepts unblocked ending accepting
  have trace := run_of_ends conflictFree spells passes (Configuration.next_of_accept accepting)
  have idle : (last.step compiled.grammar).reduced = none := by
    rw [TraceStep.reduced, Configuration.step, accepting]
  have numbers : (compiled.run sentence).reductions.map Reduction.rule =
      (visited.map (Configuration.step compiled.grammar)).filterMap TraceStep.reduced := by
    rw [Trace.map_rule_reductions, trace, List.map_append, List.filterMap_append,
      List.map_singleton, List.filterMap_cons_none idle, List.filterMap_nil, List.append_nil]
  rw [List.nil_append, ← numbers, List.map_map] at order
  refine ⟨tree, spells, parse, ?_, order, ?_⟩
  · rw [trace, assemble_append, alone]
    exact Tree.assembleStep_of_accept accepting
  · intro reduction listed
    have inside := List.mem_map_of_mem (f := Reduction.rule) listed
    rw [numbers] at inside
    exact assembled.single reduction.rule inside

/-- The run over the leaves of a derivation tree accepts and builds this tree. -/
theorem accepted_of_tree {tree : Tree} (parse : tree.IsParse compiled.grammar)
    (spells : compiled.grammar.Spells sentence tree.leaves) :
    (compiled.run sentence).state = .accepted ∧
      Tree.assemble compiled.grammar.rules [] (compiled.run sentence).steps = [tree] := by
  obtain ⟨visited, last, passes, accepting, builds⟩ :=
    accepts_leaves (table_hasConflict conflictFree) parse
  refine ⟨(accepted_iff conflictFree).2 ⟨_, visited, last, spells, passes, accepting⟩, ?_⟩
  rw [run_of_ends conflictFree spells passes (Configuration.next_of_accept accepting), builds]

/--
Without conflicts the driver accepts a sentence exactly when its words name terminals that the
declared start symbol derives.
-/
theorem accepted_iff_derives (sentence : String) : (compiled.run sentence).state = .accepted ↔
    ∃ terminals, compiled.grammar.Spells sentence terminals ∧
      Derives compiled.grammar.declaredRules [compiled.grammar.declaredStart] terminals := by
  constructor
  · intro accepted
    obtain ⟨tree, spells, parse, _⟩ := exists_tree_of_accepted conflictFree accepted
    exact ⟨tree.leaves, spells, parse.root ▸ parse.derivation.derives⟩
  · intro given
    obtain ⟨terminals, spells, derives⟩ := given
    obtain ⟨tree, root, rfl, derivation⟩ := Tree.exists_tree_of_derives derives spells.terminal
    exact (accepted_of_tree conflictFree ⟨derivation, root⟩ spells).1

omit conflictFree

theorem accepted_iff_derives_left_recursion :
    ∃ compiled, ofText "S S a\nS a" = .ok compiled ∧ compiled.hasConflict = false ∧
      ((compiled.run "a a").state = .accepted ↔
        ∃ terminals, compiled.grammar.Spells "a a" terminals ∧
          Derives compiled.grammar.declaredRules [compiled.grammar.declaredStart] terminals) ∧
      (compiled.run "a a").state = .accepted := by
  obtain ⟨compiled, compiles, evaluated⟩ := exists_of_ofText "S S a\nS a"
    (fun compiled => !compiled.hasConflict && (compiled.run "a a").state == .accepted)
    (by decide +kernel)
  simp only [Bool.and_eq_true, Bool.not_eq_true', beq_iff_eq] at evaluated
  obtain ⟨conflictFree, accepted⟩ := evaluated
  exact ⟨compiled, compiles, conflictFree, accepted_iff_derives conflictFree "a a", accepted⟩

end ShiftReduce.CompiledGrammar
