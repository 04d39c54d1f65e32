/-
This file shows that a table without conflicts certifies an unambiguous grammar.
-/

import ShiftReduce.Proofs.Grammar.Labels
import ShiftReduce.Proofs.Tree.Replay

namespace ShiftReduce

namespace Grammar

variable {grammar : Grammar}

/-- A terminal string is written as the names of its symbols with spaces between them. -/
def sentenceOf (grammar : Grammar) (terminals : List Symbol) : String :=
  " ".intercalate (terminals.map grammar.vocabulary.label)

theorem names_label {symbol : Symbol} (terminal : grammar.isTerminal symbol = true) :
    grammar.Names (grammar.vocabulary.label symbol) symbol :=
  ⟨Vocabulary.lookup_label (grammar.hasColumn_of_isTerminal terminal).2, terminal⟩

theorem spells_sentenceOf {terminals : List Symbol}
    (terminal : ∀ symbol ∈ terminals, grammar.isTerminal symbol = true) :
    grammar.Spells (grammar.sentenceOf terminals) terminals := by
  rw [Spells, sentenceOf, Text.wordStrings_intercalate (grammar.isWord_labels terminals),
    List.forall₂_map_left_iff, List.forall₂_same]
  exact fun symbol inside => names_label (terminal symbol inside)

end Grammar

namespace CompiledGrammar

variable {compiled : CompiledGrammar} {tree first second : Tree}

section

variable (conflictFree : compiled.hasConflict = false)

include conflictFree

/-- The run over the leaves of a parse is reconstructed to this parse. -/
theorem tree_of_parse (parse : tree.IsParse compiled.grammar) {sentence : String}
    (spells : compiled.grammar.Spells sentence tree.leaves) :
    compiled.tree (compiled.run sentence) = .ok tree := by
  obtain ⟨accepted, builds⟩ := accepted_of_tree conflictFree parse spells
  exact tree_of_assemble conflictFree accepted builds

theorem tree_of_sentenceOf (parse : tree.IsParse compiled.grammar) :
    compiled.tree (compiled.run (compiled.grammar.sentenceOf tree.leaves)) = .ok tree :=
  tree_of_parse conflictFree parse (Grammar.spells_sentenceOf parse.derivation.leaves_terminal)

/-- Both trees are what the reconstruction gives back for their common leaves. -/
theorem eq_of_leaves (firstParse : first.IsParse compiled.grammar)
    (secondParse : second.IsParse compiled.grammar) (same : first.leaves = second.leaves) :
    first = second := by
  have forward := tree_of_sentenceOf conflictFree firstParse
  rw [same, tree_of_sentenceOf conflictFree secondParse] at forward
  exact (Except.ok.inj forward).symm

end

theorem hasConflict_of_accepted {sentence : String}
    (accepted : (compiled.run sentence).state = .accepted) : compiled.hasConflict = false := by
  rw [← Bool.not_eq_true]
  intro conflicting
  rw [run_of_conflict conflicting] at accepted
  cases accepted

/-- Only an accepted run is reconstructed, and then to the parse of its sentence. -/
theorem tree_run_eq_ok_iff {sentence : String} : compiled.tree (compiled.run sentence) = .ok tree ↔
    (compiled.run sentence).state = .accepted ∧ tree.IsParse compiled.grammar ∧
      compiled.grammar.Spells sentence tree.leaves := by
  constructor
  · intro rebuilt
    have accepted : (compiled.run sentence).state = .accepted := by
      by_contra refused
      rw [CompiledGrammar.tree, Tree.ofTrace, Trace.isAccepted, beq_eq_false_iff_ne.2 refused]
        at rebuilt
      cases rebuilt
    have conflictFree := hasConflict_of_accepted accepted
    obtain ⟨other, spells, parse, builds, _⟩ := exists_tree_of_accepted conflictFree accepted
    rw [tree_of_assemble conflictFree accepted builds, Except.ok.injEq] at rebuilt
    exact ⟨accepted, rebuilt ▸ parse, rebuilt ▸ spells⟩
  · intro given
    obtain ⟨accepted, parse, spells⟩ := given
    exact tree_of_parse (hasConflict_of_accepted accepted) parse spells

theorem exists_tree_run_iff {sentence : String} :
    (∃ tree, compiled.tree (compiled.run sentence) = .ok tree) ↔
      (compiled.run sentence).state = .accepted := by
  constructor
  · intro given
    obtain ⟨tree, rebuilt⟩ := given
    exact (tree_run_eq_ok_iff.1 rebuilt).1
  · intro accepted
    have conflictFree := hasConflict_of_accepted accepted
    obtain ⟨tree, _, _, builds, _⟩ := exists_tree_of_accepted conflictFree accepted
    exact ⟨tree, tree_of_assemble conflictFree accepted builds⟩

/--
Without conflicts a parse is determined by its leaves, and the reconstruction gives it back from any
sentence that spells them. A grammar with two parses of one terminal string has a conflict cell, and
the driver refuses every sentence.
-/
theorem unambiguous_of_conflictFree (compiled : CompiledGrammar) :
    (compiled.hasConflict = false →
      (∀ first second : Tree, first.IsParse compiled.grammar →
        second.IsParse compiled.grammar → first.leaves = second.leaves → first = second) ∧
      ∀ tree : Tree, tree.IsParse compiled.grammar →
        compiled.tree (compiled.run (compiled.grammar.sentenceOf tree.leaves)) = .ok tree ∧
        ∀ sentence, compiled.grammar.Spells sentence tree.leaves →
          compiled.tree (compiled.run sentence) = .ok tree) ∧
    ∀ first second : Tree, first.IsParse compiled.grammar → second.IsParse compiled.grammar →
      first.leaves = second.leaves → first ≠ second →
        (∃ state symbol actions,
          compiled.table.action state symbol = some (.conflict actions)) ∧
        ∀ sentence, compiled.run sentence = .refused .tableConflict := by
  refine ⟨fun conflictFree => ⟨?_, ?_⟩, ?_⟩
  · intro first second firstParse secondParse same
    exact eq_of_leaves conflictFree firstParse secondParse same
  · intro tree parse
    exact ⟨tree_of_sentenceOf conflictFree parse, fun sentence => tree_of_parse conflictFree parse⟩
  · intro first second firstParse secondParse same different
    have conflicting : compiled.hasConflict = true := by
      rw [← Bool.not_eq_false]
      exact fun conflictFree =>
        different (eq_of_leaves conflictFree firstParse secondParse same)
    exact ⟨ParseTable.exists_conflict conflicting, run_of_conflict conflicting⟩

/-- A sum of three terms has two parses, and a list has one. -/
theorem unambiguous_of_conflictFree_sums :
    (∃ compiled, ofText "E E + E\nE a" = .ok compiled ∧
      ∀ sentence, compiled.run sentence = .refused .tableConflict) ∧
    ∃ compiled, ofText "L a L\nL a" = .ok compiled ∧
      compiled.tree (compiled.run "a a") =
        .ok (.node 1 [.leaf 2, .node 1 [.leaf 2]]) := by
  constructor
  · let term : Tree := .node 1 [.leaf 3]
    let left : Tree := .node 1 [.node 1 [term, .leaf 2, term], .leaf 2, term]
    let right : Tree := .node 1 [term, .leaf 2, .node 1 [term, .leaf 2, term]]
    obtain ⟨compiled, compiles, evaluated⟩ := exists_of_ofText "E E + E\nE a"
      (fun compiled => decide (left.IsParse compiled.grammar ∧ right.IsParse compiled.grammar))
      (by decide +kernel)
    obtain ⟨leftParse, rightParse⟩ := of_decide_eq_true evaluated
    have refused := (unambiguous_of_conflictFree compiled).2 left right leftParse rightParse
      (by decide +kernel) (by decide +kernel)
    exact ⟨compiled, compiles, refused.2⟩
  · let list : Tree := .node 1 [.leaf 2, .node 1 [.leaf 2]]
    obtain ⟨compiled, compiles, evaluated⟩ := exists_of_ofText "L a L\nL a"
      (fun compiled => !compiled.hasConflict && decide (list.IsParse compiled.grammar) &&
        compiled.grammar.sentenceOf list.leaves == "a a")
      (by decide +kernel)
    simp only [Bool.and_eq_true, Bool.not_eq_true', beq_iff_eq, decide_eq_true_eq] at evaluated
    obtain ⟨⟨conflictFree, parse⟩, spelled⟩ := evaluated
    have rebuilt := ((unambiguous_of_conflictFree compiled).1 conflictFree).2 list parse
    rw [spelled] at rebuilt
    exact ⟨compiled, compiles, rebuilt.1⟩

end CompiledGrammar

end ShiftReduce
