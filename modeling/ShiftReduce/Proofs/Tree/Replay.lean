/-
This file shows that the reductions of an accepted run rebuild the tree that the run recognized.
-/

import ShiftReduce.Proofs.Language

namespace ShiftReduce

namespace Tree

/-- The expansions by several rules follow each other. -/
def expandAll? : List Rule → Tree → Option Tree
  | [], tree => some tree
  | rule :: rules, tree => (tree.expand? rule).bind (expandAll? rules)

def expandAllOf? : List Rule → List Tree → Option (List Tree)
  | [], trees => some trees
  | rule :: rules, trees => (expandOf? rule trees).bind (expandAllOf? rules)

section Expansion

variable {rule : Rule} {rules : List Rule} {tree result : Tree} {trees results : List Tree}

theorem expand?_leaf (rule : Rule) :
    (leaf rule.lhs).expand? rule = some (.node rule.lhs (rule.rhs.map leaf)) := by
  rw [leaf, expand?, if_pos rfl]

theorem expand?_node {symbol : Symbol} (inner : trees ≠ []) :
    (Tree.node symbol trees).expand? rule = (expandOf? rule trees).map (node symbol) := by
  cases trees with
  | nil => exact absurd rfl inner
  | cons child rest => rw [expand?]

/-- The trees behind are expanded first. -/
theorem expandOf?_cons_of_some (expanded : expandOf? rule trees = some results) :
    expandOf? rule (tree :: trees) = some (tree :: results) := by
  rw [expandOf?, expanded]

theorem expandOf?_cons_of_none (closed : expandOf? rule trees = none) :
    expandOf? rule (tree :: trees) = (tree.expand? rule).map (· :: trees) := by
  rw [expandOf?, closed]

theorem ne_nil_of_expandOf? (expanded : expandOf? rule trees = some results) : results ≠ [] := by
  cases trees with
  | nil => cases expanded
  | cons tree rest =>
      rw [expandOf?] at expanded
      split at expanded
      · exact Option.some.inj expanded ▸ List.cons_ne_nil _ _
      · obtain ⟨first, _, rfl⟩ := Option.map_eq_some_iff.1 expanded
        exact List.cons_ne_nil _ _

theorem expandAllOf?_append (rules more : List Rule) (trees : List Tree) :
    expandAllOf? (rules ++ more) trees = (expandAllOf? rules trees).bind (expandAllOf? more) := by
  induction rules generalizing trees with
  | nil => rfl
  | cons rule rest ih =>
      rw [List.cons_append, expandAllOf?, expandAllOf?, Option.bind_assoc]
      exact Option.bind_congr fun expanded _ => ih expanded

theorem expandAll?_node {symbol : Symbol} (inner : trees ≠ [])
    (expands : expandAllOf? rules trees = some results) :
    expandAll? rules (.node symbol trees) = some (.node symbol results) := by
  induction rules generalizing trees with
  | nil => exact congrArg (Option.map (node symbol)) expands
  | cons rule rest ih =>
      obtain ⟨middle, first, later⟩ := Option.bind_eq_some_iff.1 expands
      rw [expandAll?, expand?_node inner, first, Option.map_some, Option.bind_some]
      exact ih (ne_nil_of_expandOf? first) later

theorem expandAllOf?_behind (expands : expandAllOf? rules trees = some results) :
    expandAllOf? rules (tree :: trees) = some (tree :: results) := by
  induction rules generalizing trees with
  | nil => exact congrArg (Option.map (tree :: ·)) expands
  | cons rule rest ih =>
      obtain ⟨middle, first, later⟩ := Option.bind_eq_some_iff.1 expands
      rw [expandAllOf?, expandOf?_cons_of_some first, Option.bind_some]
      exact ih later

theorem expandAllOf?_before (closed : ∀ rule ∈ rules, expandOf? rule trees = none)
    (expands : expandAll? rules tree = some result) :
    expandAllOf? rules (tree :: trees) = some (result :: trees) := by
  induction rules generalizing tree with
  | nil => exact congrArg (Option.map (· :: trees)) expands
  | cons rule rest ih =>
      obtain ⟨middle, first, later⟩ := Option.bind_eq_some_iff.1 expands
      rw [expandAllOf?, expandOf?_cons_of_none (closed rule List.mem_cons_self), first,
        Option.map_some, Option.bind_some]
      exact ih (fun other listed => closed other (List.mem_cons_of_mem _ listed)) later

end Expansion

section Derivation

variable {grammar : Grammar} {rule : Rule} {trees : List Tree}

theorem expandOf?_eq_none (closed : ∀ tree ∈ trees, tree.expand? rule = none) :
    expandOf? rule trees = none := by
  induction trees with
  | nil => rw [expandOf?]
  | cons tree rest ih =>
      have behind := ih fun other listed => closed other (List.mem_cons_of_mem _ listed)
      rw [expandOf?_cons_of_none behind, closed tree List.mem_cons_self, Option.map_none]

/-- A derivation tree has no leaf for a left-hand side. -/
theorem IsDerivation.expand?_eq_none {tree : Tree} (derivation : tree.IsDerivation grammar)
    (listed : rule ∈ grammar.rules) : tree.expand? rule = none := by
  induction derivation with
  | @leaf symbol terminal =>
      have different : symbol ≠ rule.lhs := by
        intro same
        subst same
        have nonterminal := grammar.isNonterminal_lhs listed
        rw [grammar.isNonterminal_eq_false terminal] at nonterminal
        cases nonterminal
      rw [Tree.leaf, expand?, if_neg different]
  | node declared instantiated _ ih =>
      rw [expand?_node (children_ne_nil declared instantiated), expandOf?_eq_none ih,
        Option.map_none]

theorem mem_postorderOf : rule ∈ postorderOf trees ↔ ∃ tree ∈ trees, rule ∈ tree.postorder := by
  induction trees with
  | nil => simp [postorderOf]
  | cons tree rest ih => simp [postorderOf, ih]

theorem IsDerivation.postorder_subset {tree : Tree} (derivation : tree.IsDerivation grammar) :
    tree.postorder ⊆ grammar.rules := by
  induction derivation with
  | leaf _ => simp [postorder_leaf]
  | @node rule children declared instantiated _ ih =>
      rw [postorder_node (children_ne_nil declared instantiated), instantiated]
      intro other listed
      rcases List.mem_append.1 listed with inside | last
      · obtain ⟨child, within, inside⟩ := mem_postorderOf.1 inside
        exact ih child within inside
      · rw [List.mem_singleton.1 last]
        exact grammar.declaredRules_subset declared

/--
Behind the tree that is expanded all trees are complete, and before it all trees are leaves, so the
rightmost open leaf is the right one.
-/
theorem expandAllOf?_leaves (derivations : ∀ tree ∈ trees, tree.IsDerivation grammar)
    (each : ∀ tree ∈ trees, expandAll? tree.postorder.reverse (leaf tree.symbol) = some tree) :
    expandAllOf? (postorderOf trees).reverse (trees.map fun tree => leaf tree.symbol) =
      some trees := by
  induction trees with
  | nil => simp [postorderOf, expandAllOf?]
  | cons tree rest ih =>
      have behind := ih (fun other listed => derivations other (List.mem_cons_of_mem _ listed))
        fun other listed => each other (List.mem_cons_of_mem _ listed)
      have closed : ∀ rule ∈ tree.postorder.reverse, expandOf? rule rest = none := by
        intro rule used
        have listed := (derivations tree List.mem_cons_self).postorder_subset
          (List.mem_reverse.1 used)
        exact expandOf?_eq_none fun other within =>
          (derivations other (List.mem_cons_of_mem _ within)).expand?_eq_none listed
      rw [postorderOf, List.reverse_append, expandAllOf?_append, List.map_cons,
        expandAllOf?_behind behind, Option.bind_some]
      exact expandAllOf?_before closed (each tree List.mem_cons_self)

/-- The rules in reverse postorder expand a leaf to the whole tree. -/
theorem IsDerivation.expandAll?_postorder {tree : Tree} (derivation : tree.IsDerivation grammar) :
    expandAll? tree.postorder.reverse (Tree.leaf tree.symbol) = some tree := by
  induction derivation with
  | leaf _ =>
      rw [postorder_leaf]
      rfl
  | @node rule children declared instantiated below ih =>
      have inner := children_ne_nil declared instantiated
      have roots : rule.rhs.map Tree.leaf = children.map fun child => Tree.leaf child.symbol := by
        rw [← instantiated, List.map_map]
        rfl
      have expands := expandAllOf?_leaves below ih
      rw [← roots] at expands
      have leaves : rule.rhs.map Tree.leaf ≠ [] := by
        rw [roots]
        exact fun childless => inner (List.map_eq_nil_iff.1 childless)
      rw [postorder_node inner, instantiated, List.reverse_append, List.reverse_singleton,
        List.singleton_append, symbol, expandAll?, expand?_leaf, Option.bind_some]
      exact expandAll?_node leaves expands

end Derivation

section Replay

variable {rules listed : List Rule} {reductions : List Reduction} {tree result : Tree}

theorem attach_of_some {reduction : Reduction} {rule : Rule}
    (found : rules[reduction.rule]? = some rule) (expands : tree.expand? rule = some result) :
    attach rules (some tree) reduction = .ok result := by
  rw [attach, found]
  dsimp only
  rw [Option.getD_some, expands]

/-- The replay of reductions makes the expansions by their rules. -/
theorem replay_eq_ok
    (named : reductions.map (fun reduction => rules[reduction.rule]?) = listed.map some)
    (expands : expandAll? listed tree = some result) :
    replay rules (some tree) reductions = .ok (some result) := by
  induction reductions generalizing listed tree with
  | nil =>
      obtain rfl : listed = [] := List.map_eq_nil_iff.1 named.symm
      rw [replay, Option.some.inj expands]
  | cons reduction rest ih =>
      obtain ⟨rule, others, rfl, found, more⟩ := List.map_eq_cons_iff.1 named.symm
      obtain ⟨middle, first, later⟩ := Option.bind_eq_some_iff.1 expands
      rw [replay, attach_of_some found.symm first]
      exact ih more.symm later

theorem replay_none_eq (rules : List Rule) {reduction : Reduction} {rest : List Reduction}
    {rule : Rule} (found : rules[reduction.rule]? = some rule) :
    replay rules none (reduction :: rest) =
      replay rules (some (leaf rule.lhs)) (reduction :: rest) := by
  rw [replay, replay, attach, attach, found]
  rfl

/-- The last reduction of a run makes the root, and the earlier ones expand it. -/
theorem ofTrace_eq_ok {grammar : Grammar} {trace : Trace} (accepted : trace.isAccepted = true)
    (derivation : tree.IsDerivation grammar) (inner : grammar.isNonterminal tree.symbol = true)
    (order : tree.postorder.map some =
      trace.reductions.map fun reduction => grammar.rules[reduction.rule]?) :
    ofTrace trace grammar.rules = .ok tree := by
  have expands := derivation.expandAll?_postorder
  have named : trace.reductions.reverse.map (fun reduction => grammar.rules[reduction.rule]?) =
      tree.postorder.reverse.map some := by
    rw [List.map_reverse, List.map_reverse, order]
  cases derivation with
  | leaf terminal =>
      rw [leaf, symbol, grammar.isNonterminal_eq_false terminal] at inner
      cases inner
  | @node rule children declared instantiated _ =>
      rw [postorder_node (children_ne_nil declared instantiated), instantiated,
        List.reverse_append, List.reverse_singleton, List.singleton_append] at named expands
      rw [symbol] at expands
      rw [ofTrace, if_pos accepted]
      cases reversed : trace.reductions.reverse with
      | nil =>
          rw [reversed] at named
          cases named
      | cons reduction rest =>
          rw [reversed] at named
          have found : grammar.rules[reduction.rule]? = some rule := (List.cons.inj named).1
          rw [replay_none_eq grammar.rules found, replay_eq_ok named expands]

end Replay

end Tree

namespace CompiledGrammar

variable {compiled : CompiledGrammar} {sentence : String}
  (conflictFree : compiled.hasConflict = false)

include conflictFree

/-- The reconstruction gives the tree that the run builds bottom-up. -/
theorem tree_of_assemble (accepted : (compiled.run sentence).state = .accepted) {tree : Tree}
    (builds : Tree.assemble compiled.grammar.rules [] (compiled.run sentence).steps = [tree]) :
    compiled.tree (compiled.run sentence) = .ok tree := by
  obtain ⟨other, _, parse, again, order, _⟩ := exists_tree_of_accepted conflictFree accepted
  obtain rfl : other = tree := List.singleton_inj.1 (again.symm.trans builds)
  have inner : compiled.grammar.isNonterminal other.symbol = true :=
    parse.root ▸ compiled.grammar.isNonterminal_declaredStart
  exact Tree.ofTrace_eq_ok (beq_iff_eq.2 accepted) parse.derivation inner order

/--
From an accepted run the reconstruction gives back the derivation tree over the tokenized sentence
whose rules, in postorder, are the reductions in the order of the run. It is the tree that shifts
and reductions build bottom-up.
-/
theorem tree_of_accepted (accepted : (compiled.run sentence).state = .accepted) :
    ∃ tree : Tree, compiled.tree (compiled.run sentence) = .ok tree ∧
      tree.symbol = compiled.grammar.declaredStart ∧
      compiled.grammar.tokenize sentence = .ok (tree.leaves ++ [compiled.grammar.endMarker]) ∧
      tree.IsDerivation compiled.grammar ∧
      tree.postorder.map some = (compiled.run sentence).reductions.map
        (fun reduction => compiled.grammar.rules[reduction.rule]?) ∧
      (∀ reduction ∈ (compiled.run sentence).reductions, ∀ other,
        compiled.grammar.rules[other]? = compiled.grammar.rules[reduction.rule]? →
          other = reduction.rule) ∧
      Tree.assemble compiled.grammar.rules [] (compiled.run sentence).steps = [tree] := by
  obtain ⟨tree, spells, parse, builds, order, single⟩ :=
    exists_tree_of_accepted conflictFree accepted
  have rebuilt := tree_of_assemble conflictFree accepted builds
  exact ⟨tree, rebuilt, parse.root, spells.tokenize, parse.derivation, order, single, builds⟩

omit conflictFree

theorem tree_of_accepted_pairs :
    ∃ compiled, ofText "S ( S S )\nS x" = .ok compiled ∧ compiled.hasConflict = false ∧
      (compiled.run "( ( x x ) x )").state = .accepted ∧
      ∃ tree : Tree, compiled.tree (compiled.run "( ( x x ) x )") = .ok tree ∧
        tree.IsDerivation compiled.grammar := by
  obtain ⟨compiled, compiles, evaluated⟩ := exists_of_ofText "S ( S S )\nS x"
    (fun compiled => !compiled.hasConflict && (compiled.run "( ( x x ) x )").state == .accepted)
    (by decide +kernel)
  simp only [Bool.and_eq_true, Bool.not_eq_true', beq_iff_eq] at evaluated
  obtain ⟨conflictFree, accepted⟩ := evaluated
  obtain ⟨tree, rebuilt, _, _, derivation, _⟩ := tree_of_accepted conflictFree accepted
  exact ⟨compiled, compiles, conflictFree, accepted, tree, rebuilt, derivation⟩

end CompiledGrammar

end ShiftReduce
