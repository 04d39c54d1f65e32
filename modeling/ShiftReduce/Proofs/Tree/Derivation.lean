/-
This file relates derivation trees to derivations.
-/

import ShiftReduce.Proofs.Grammar.Derivation
import ShiftReduce.Tree.Basic

namespace ShiftReduce

/-- Each inner node is an instance of a declared rule, and each leaf is a terminal. -/
inductive Tree.IsDerivation (grammar : Grammar) : Tree → Prop
  | leaf {symbol : Symbol} (terminal : grammar.isTerminal symbol = true) :
      IsDerivation grammar (.leaf symbol)
  | node {rule : Rule} {children : List Tree} (declared : rule ∈ grammar.declaredRules)
      (instantiated : children.map Tree.symbol = rule.rhs)
      (below : ∀ child ∈ children, IsDerivation grammar child) :
      IsDerivation grammar (.node rule.lhs children)

/-- A parse is a derivation tree of the declared start symbol. -/
structure Tree.IsParse (grammar : Grammar) (tree : Tree) : Prop where
  derivation : tree.IsDerivation grammar
  root : tree.symbol = grammar.declaredStart

namespace Tree

mutual

/-- The rules of the inner nodes are listed children first, from left to right. -/
def postorder : Tree → List Rule
  | .node _ [] => []
  | .node symbol (child :: children) =>
      postorderOf (child :: children) ++ [⟨symbol, (child :: children).map Tree.symbol⟩]

def postorderOf : List Tree → List Rule
  | [] => []
  | tree :: trees => postorder tree ++ postorderOf trees

end

mutual

/-- Each node is looked up in the declared rules. -/
def checks (grammar : Grammar) : Tree → Bool
  | .node symbol [] => grammar.isTerminal symbol
  | .node symbol (child :: children) =>
      grammar.declaredRules.contains ⟨symbol, (child :: children).map Tree.symbol⟩ &&
        checksAll grammar (child :: children)

def checksAll (grammar : Grammar) : List Tree → Bool
  | [] => true
  | tree :: trees => checks grammar tree && checksAll grammar trees

end

section Forest

theorem leaves_leaf (symbol : Symbol) : (leaf symbol).leaves = [symbol] := by
  simp [leaf, leaves]

theorem leaves_node {symbol : Symbol} {children : List Tree} (inner : children ≠ []) :
    (Tree.node symbol children).leaves = leavesOf children := by
  cases children with
  | nil => exact absurd rfl inner
  | cons child rest => rw [leaves]

theorem leavesOf_append (first second : List Tree) :
    leavesOf (first ++ second) = leavesOf first ++ leavesOf second := by
  simp only [leavesOf_eq_flatMap, List.flatMap_append]

theorem leavesOf_singleton (tree : Tree) : leavesOf [tree] = tree.leaves := by
  simp [leavesOf_eq_flatMap]

theorem leavesOf_leaves (symbols : List Symbol) : leavesOf (symbols.map leaf) = symbols := by
  induction symbols with
  | nil => simp [leavesOf]
  | cons symbol rest ih => rw [List.map_cons, leavesOf, leaves_leaf, ih, List.singleton_append]

theorem postorder_leaf (symbol : Symbol) : (leaf symbol).postorder = [] := by
  simp [leaf, postorder]

theorem postorder_node {symbol : Symbol} {children : List Tree} (inner : children ≠ []) :
    (Tree.node symbol children).postorder =
      postorderOf children ++ [⟨symbol, children.map Tree.symbol⟩] := by
  cases children with
  | nil => exact absurd rfl inner
  | cons child rest => rw [postorder]

theorem postorderOf_append (first second : List Tree) :
    postorderOf (first ++ second) = postorderOf first ++ postorderOf second := by
  induction first with
  | nil => simp [postorderOf]
  | cons tree rest ih => rw [List.cons_append, postorderOf, ih, postorderOf, List.append_assoc]

theorem postorderOf_singleton (tree : Tree) : postorderOf [tree] = tree.postorder := by
  simp [postorderOf]

end Forest

section Derivation

variable {grammar : Grammar}

/-- No rule is empty, so an inner node has children. -/
theorem children_ne_nil {rule : Rule} {children : List Tree}
    (declared : rule ∈ grammar.declaredRules) (instantiated : children.map Tree.symbol = rule.rhs) :
    children ≠ [] := by
  intro childless
  apply grammar.rhs_ne_nil (grammar.declaredRules_subset declared)
  rw [← instantiated, childless, List.map_nil]

theorem leavesOf_terminal {trees : List Tree}
    (each : ∀ tree ∈ trees, ∀ symbol ∈ tree.leaves, grammar.isTerminal symbol = true) :
    ∀ symbol ∈ leavesOf trees, grammar.isTerminal symbol = true := by
  intro symbol inside
  rw [leavesOf_eq_flatMap] at inside
  obtain ⟨tree, listed, leaf⟩ := List.mem_flatMap.1 inside
  exact each tree listed symbol leaf

theorem IsDerivation.leaves_terminal {tree : Tree} (derivation : tree.IsDerivation grammar) :
    ∀ symbol ∈ tree.leaves, grammar.isTerminal symbol = true := by
  induction derivation with
  | leaf terminal =>
      intro symbol inside
      rw [leaves_leaf, List.mem_singleton] at inside
      exact inside ▸ terminal
  | node declared instantiated _ ih =>
      rw [leaves_node (children_ne_nil declared instantiated)]
      exact leavesOf_terminal ih

theorem IsDerivation.leaves_ne_nil {tree : Tree} (derivation : tree.IsDerivation grammar) :
    tree.leaves ≠ [] := by
  induction derivation with
  | leaf _ => simp [leaves_leaf]
  | @node rule children declared instantiated _ ih =>
      have inner := children_ne_nil declared instantiated
      obtain ⟨child, rest, rfl⟩ := List.exists_cons_of_ne_nil inner
      rw [leaves_node inner, leavesOf]
      exact List.append_ne_nil_of_left_ne_nil (ih child List.mem_cons_self) _

/-- A forest derives its leaves from its roots when each of its trees does. -/
theorem derives_leavesOf {trees : List Tree}
    (each : ∀ tree ∈ trees, Derives grammar.declaredRules [tree.symbol] tree.leaves) :
    Derives grammar.declaredRules (trees.map Tree.symbol) (leavesOf trees) := by
  induction trees with
  | nil => exact Derives.refl []
  | cons tree rest ih =>
      rw [List.map_cons, leavesOf]
      exact (each tree List.mem_cons_self).append
        (ih fun other listed => each other (List.mem_cons_of_mem _ listed))

theorem IsDerivation.derives {tree : Tree} (derivation : tree.IsDerivation grammar) :
    Derives grammar.declaredRules [tree.symbol] tree.leaves := by
  induction derivation with
  | @leaf symbol _ =>
      rw [leaves_leaf]
      exact Derives.refl [symbol]
  | @node rule children declared instantiated _ ih =>
      have whole := (Derives.ofRule declared).trans (instantiated ▸ derives_leavesOf ih)
      rw [leaves_node (children_ne_nil declared instantiated)]
      exact whole

theorem checksAll_iff {trees : List Tree} :
    checksAll grammar trees = true ↔ ∀ tree ∈ trees, checks grammar tree = true := by
  induction trees with
  | nil => simp [checksAll]
  | cons tree rest ih => simp [checksAll, ih]

mutual

theorem isDerivation_of_checks : (tree : Tree) → checks grammar tree = true →
    tree.IsDerivation grammar
  | .node symbol [], checked => by
      rw [checks] at checked
      exact .leaf checked
  | .node symbol (child :: children), checked => by
      rw [checks, Bool.and_eq_true, List.contains_iff_mem] at checked
      exact .node checked.1 rfl (isDerivation_of_checksAll (child :: children) checked.2)

theorem isDerivation_of_checksAll : (trees : List Tree) → checksAll grammar trees = true →
    ∀ tree ∈ trees, tree.IsDerivation grammar
  | [], _ => nofun
  | tree :: trees, checked => by
      rw [checksAll, Bool.and_eq_true] at checked
      intro other listed
      rcases List.mem_cons.1 listed with same | later
      · exact same ▸ isDerivation_of_checks tree checked.1
      · exact isDerivation_of_checksAll trees checked.2 other later

end

theorem checks_iff {tree : Tree} : checks grammar tree = true ↔ tree.IsDerivation grammar := by
  constructor
  · exact isDerivation_of_checks tree
  · intro derivation
    induction derivation with
    | leaf terminal =>
        rw [leaf, checks]
        exact terminal
    | @node rule children declared instantiated _ ih =>
        obtain ⟨child, rest, rfl⟩ :=
          List.exists_cons_of_ne_nil (children_ne_nil declared instantiated)
        rw [checks, instantiated, Bool.and_eq_true, List.contains_iff_mem]
        exact ⟨declared, checksAll_iff.2 ih⟩

instance (tree : Tree) : Decidable (tree.IsDerivation grammar) :=
  decidable_of_iff _ checks_iff

instance (tree : Tree) : Decidable (tree.IsParse grammar) :=
  decidable_of_iff (tree.IsDerivation grammar ∧ tree.symbol = grammar.declaredStart)
    ⟨fun both => ⟨both.1, both.2⟩, fun parse => ⟨parse.derivation, parse.root⟩⟩

/-- One rewriting step backwards gathers the trees of a right-hand side under a new node. -/
theorem exists_forest_of_rewrites {before after : List Symbol}
    (rewrites : Rewrites grammar.declaredRules before after) {trees : List Tree}
    (roots : trees.map Tree.symbol = after)
    (derivations : ∀ tree ∈ trees, tree.IsDerivation grammar) :
    ∃ gathered : List Tree, gathered.map Tree.symbol = before ∧
      leavesOf gathered = leavesOf trees ∧ ∀ tree ∈ gathered, tree.IsDerivation grammar := by
  cases rewrites with
  | step front back rule declared =>
      obtain ⟨left, rest, rfl, leftRoots, restRoots⟩ := List.map_eq_append_iff.1 roots
      obtain ⟨children, right, rfl, childRoots, rightRoots⟩ := List.map_eq_append_iff.1 restRoots
      refine ⟨left ++ .node rule.lhs children :: right, ?_, ?_, ?_⟩
      · rw [List.map_append, List.map_cons, leftRoots, rightRoots]
        rfl
      · rw [leavesOf_append, leavesOf, leaves_node (children_ne_nil declared childRoots),
          leavesOf_append, leavesOf_append]
      · intro tree listed
        rcases List.mem_append.1 listed with inLeft | inRest
        · exact derivations tree (List.mem_append_left _ inLeft)
        · rcases List.mem_cons.1 inRest with rfl | inRight
          · exact .node declared childRoots fun child inside =>
              derivations child (List.mem_append_right _ (List.mem_append_left _ inside))
          · exact derivations tree (List.mem_append_right _ (List.mem_append_right _ inRight))

/-- Every derivation of a terminal string is drawn as a forest. -/
theorem exists_forest_of_derives {symbols word : List Symbol}
    (derives : Derives grammar.declaredRules symbols word)
    (terminal : ∀ symbol ∈ word, grammar.isTerminal symbol = true) :
    ∃ trees : List Tree, trees.map Tree.symbol = symbols ∧ leavesOf trees = word ∧
      ∀ tree ∈ trees, tree.IsDerivation grammar := by
  induction derives using Relation.ReflTransGen.head_induction_on with
  | refl =>
      refine ⟨word.map leaf, ?_, leavesOf_leaves word, ?_⟩
      · rw [List.map_map]
        exact List.map_id word
      · intro tree listed
        obtain ⟨symbol, inside, rfl⟩ := List.mem_map.1 listed
        exact .leaf (terminal symbol inside)
  | head first _ ih =>
      obtain ⟨trees, roots, yields, derivations⟩ := ih
      obtain ⟨gathered, newRoots, sameLeaves, newDerivations⟩ :=
        exists_forest_of_rewrites first roots derivations
      exact ⟨gathered, newRoots, sameLeaves.trans yields, newDerivations⟩

theorem exists_tree_of_derives {symbol : Symbol} {word : List Symbol}
    (derives : Derives grammar.declaredRules [symbol] word)
    (terminal : ∀ symbol ∈ word, grammar.isTerminal symbol = true) :
    ∃ tree : Tree, tree.symbol = symbol ∧ tree.leaves = word ∧ tree.IsDerivation grammar := by
  obtain ⟨trees, roots, yields, derivations⟩ := exists_forest_of_derives derives terminal
  obtain ⟨tree, rfl, root⟩ := List.map_eq_singleton_iff.1 roots
  rw [leavesOf_singleton] at yields
  exact ⟨tree, root, yields, derivations tree List.mem_cons_self⟩

end Derivation

end Tree

end ShiftReduce
