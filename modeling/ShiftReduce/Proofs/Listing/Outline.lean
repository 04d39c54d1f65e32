/-
This file shows that a tree is known by its outline.
-/

import ShiftReduce.CompiledGrammar
import ShiftReduce.Listing
import ShiftReduce.Proofs.Grammar.Labels
import ShiftReduce.Proofs.Listing.Lines
import ShiftReduce.Proofs.Tree.Derivation

namespace ShiftReduce

/-- Every node of a tree has a symbol of the grammar. -/
inductive Tree.IsOver (grammar : Grammar) : Tree → Prop
  | node {symbol : Symbol} {children : List Tree} (known : symbol < grammar.vocabulary.size)
      (below : ∀ child ∈ children, IsOver grammar child) : IsOver grammar (.node symbol children)

/-- Every derivation tree is a tree over the symbols of its grammar. -/
theorem Tree.IsDerivation.isOver {grammar : Grammar} {tree : Tree}
    (derivation : tree.IsDerivation grammar) : tree.IsOver grammar := by
  induction derivation with
  | leaf terminal => exact .node (grammar.hasColumn_of_isTerminal terminal).2 (by simp)
  | node declared _ _ ih =>
      have listed := grammar.declaredRules_subset declared
      exact .node (grammar.lt_size_of_isNonterminal (grammar.isNonterminal_lhs listed)) ih

namespace Listing

section Nodes

/-- A node is shown by its depth and its symbol. -/
structure Node where
  depth : Nat
  symbol : Symbol

/-- A tree is found at the depth of its root. -/
structure Placed where
  depth : Nat
  tree : Tree

mutual

/-- Each node comes before its children. -/
def nodes (depth : Nat) : Tree → List Node
  | .node symbol children => ⟨depth, symbol⟩ :: nodesOf (depth + 1) children

def nodesOf (depth : Nat) : List Tree → List Node
  | [] => []
  | tree :: trees => nodes depth tree ++ nodesOf depth trees

end

/-- A node takes the trees behind it that stand deeper as its children. -/
def adopt (node : Node) (found : List Placed) : List Placed :=
  ⟨node.depth, .node node.symbol
      ((found.takeWhile fun later => decide (node.depth < later.depth)).map Placed.tree)⟩ ::
    found.dropWhile fun later => decide (node.depth < later.depth)

/-- The nodes are read from the last one up, and a single tree must be left. -/
def assemble (nodes : List Node) : Option Tree :=
  match nodes.foldr adopt [] with
  | [⟨0, tree⟩] => some tree
  | _ => none

theorem split_at_head {α : Type} {property : α → Bool} {list : List α}
    (stops : ∀ first ∈ list.head?, property first = false) :
    list.takeWhile property = [] ∧ list.dropWhile property = list := by
  cases list with
  | nil => exact ⟨rfl, rfl⟩
  | cons first rest =>
      have stops : ¬ property first = true := by simp [stops first rfl]
      exact ⟨List.takeWhile_cons_of_neg stops, List.dropWhile_cons_of_neg stops⟩

theorem adopt_children {depth : Nat} (symbol : Symbol) (children : List Tree) {found : List Placed}
    (shallow : ∀ next ∈ found.head?, next.depth ≤ depth) :
    adopt ⟨depth, symbol⟩ (children.map (Placed.mk (depth + 1)) ++ found) =
      ⟨depth, .node symbol children⟩ :: found := by
  have deeper : ∀ child ∈ children.map (Placed.mk (depth + 1)),
      decide (depth < child.depth) = true := by
    simp
  have stops : ∀ next ∈ found.head?, decide (depth < next.depth) = false := by
    simpa using shallow
  obtain ⟨taken, left⟩ := split_at_head stops
  rw [adopt, List.takeWhile_append_of_pos deeper, List.dropWhile_append_of_pos deeper, taken, left]
  simp [Function.comp_def]

mutual

/-- The nodes of a tree bring the tree back when nothing deeper stands behind them. -/
theorem foldr_adopt_nodes (depth : Nat) (tree : Tree) {found : List Placed}
    (shallow : ∀ next ∈ found.head?, next.depth ≤ depth) :
    (nodes depth tree).foldr adopt found = ⟨depth, tree⟩ :: found := by
  cases tree with
  | node symbol children =>
      have deeper : ∀ next ∈ found.head?, next.depth ≤ depth + 1 :=
        fun next first => Nat.le_succ_of_le (shallow next first)
      rw [nodes, List.foldr_cons, foldr_adopt_nodesOf (depth + 1) children deeper,
        adopt_children symbol children shallow]

theorem foldr_adopt_nodesOf (depth : Nat) (trees : List Tree) {found : List Placed}
    (shallow : ∀ next ∈ found.head?, next.depth ≤ depth) :
    (nodesOf depth trees).foldr adopt found = trees.map (Placed.mk depth) ++ found := by
  cases trees with
  | nil => rw [nodesOf, List.foldr_nil, List.map_nil, List.nil_append]
  | cons tree rest =>
      have level : ∀ next ∈ (rest.map (Placed.mk depth) ++ found).head?, next.depth ≤ depth := by
        cases rest with
        | nil => exact shallow
        | cons second later => simp
      rw [nodesOf, List.foldr_append, foldr_adopt_nodesOf depth rest shallow,
        foldr_adopt_nodes depth tree level, List.map_cons, List.cons_append]

end

theorem assemble_nodes (tree : Tree) : assemble (nodes 0 tree) = some tree := by
  rw [assemble, foldr_adopt_nodes 0 tree (by simp)]
  rfl

end Nodes

section Outline

/-- The spaces in front of a line tell the depth, and the rest of the line tells the symbol. -/
def readNode (grammar : Grammar) (line : List Char) : Option Node :=
  (grammar.vocabulary.lookup (String.ofList (line.dropWhile (· == ' ')))).map
    (Node.mk ((line.takeWhile (· == ' ')).length / 2))

/-- Every line must show a node. -/
def readOutline (grammar : Grammar) (shown : String) : Option Tree :=
  ((Text.lines shown.toList).mapM (readNode grammar)).bind assemble

variable {grammar : Grammar}

mutual

theorem outline_eq (depth : Nat) (tree : Tree) : outline grammar depth tree =
    (nodes depth tree).map fun node => outlineLine grammar node.depth node.symbol := by
  cases tree with
  | node symbol children => rw [outline, nodes, List.map_cons, outlines_eq]

theorem outlines_eq (depth : Nat) (trees : List Tree) : outlines grammar depth trees =
    (nodesOf depth trees).map fun node => outlineLine grammar node.depth node.symbol := by
  cases trees with
  | nil => rw [outlines, nodesOf, List.map_nil]
  | cons tree rest => rw [outlines, nodesOf, List.map_append, outline_eq, outlines_eq]

end

theorem isTidy_outlineLine (depth : Nat) (symbol : Symbol) :
    Text.IsTidy (outlineLine grammar depth symbol).toList := by
  have shown := grammar.isWord_label symbol
  exact (Text.isTidy_append (by simp) shown.isTidy shown.1).1

/-- No label begins with a space, so the indentation ends in front of it. -/
theorem readNode_outlineLine (depth : Nat) {symbol : Symbol}
    (known : symbol < grammar.vocabulary.size) :
    readNode grammar (outlineLine grammar depth symbol).toList = some ⟨depth, symbol⟩ := by
  have shown := grammar.isWord_label symbol
  have indented : ∀ space ∈ List.replicate (2 * depth) ' ', (space == ' ') = true := by simp
  have visible : ∀ first ∈ (grammar.vocabulary.label symbol).toList.head?,
      (first == ' ') = false := by
    intro first found
    rw [beq_eq_false_iff_ne]
    rintro rfl
    cases shown.2 ' ' (List.mem_of_head? found)
  obtain ⟨taken, left⟩ := split_at_head visible
  rw [readNode, outlineLine, String.toList_append, String.toList_ofList,
    List.takeWhile_append_of_pos indented, List.dropWhile_append_of_pos indented, taken, left,
    String.ofList_toList, Vocabulary.lookup_label known]
  simp

theorem mapM_readNode {shown : List Node}
    (known : ∀ node ∈ shown, node.symbol < grammar.vocabulary.size) :
    ((shown.map fun node => outlineLine grammar node.depth node.symbol).map String.toList).mapM
      (readNode grammar) = some shown := by
  induction shown with
  | nil => rfl
  | cons node others ih =>
      obtain ⟨here, behind⟩ := List.forall_mem_cons.1 known
      rw [List.map_cons, List.map_cons, List.mapM_cons, readNode_outlineLine node.depth here,
        ih behind]
      rfl

theorem nodesOf_eq_flatMap (depth : Nat) (trees : List Tree) :
    nodesOf depth trees = trees.flatMap (nodes depth) := by
  induction trees with
  | nil => rw [nodesOf, List.flatMap_nil]
  | cons tree rest ih => rw [nodesOf, ih, List.flatMap_cons]

theorem known_of_isOver {tree : Tree} (inside : tree.IsOver grammar) (depth : Nat) :
    ∀ node ∈ nodes depth tree, node.symbol < grammar.vocabulary.size := by
  induction inside generalizing depth with
  | node known below ih =>
      rw [nodes, nodesOf_eq_flatMap, List.forall_mem_cons, List.forall_mem_flatMap]
      exact ⟨known, fun child listed => ih child listed (depth + 1)⟩

/-- The outline of a tree is read back as the tree. -/
theorem readOutline_tree {shown : Tree} (inside : shown.IsOver grammar) :
    readOutline grammar (text (tree grammar shown)) = some shown := by
  have tidy : ∀ line ∈ tree grammar shown, Text.IsTidy line.toList := by
    rw [tree, outline_eq, List.forall_mem_map]
    exact fun node _ => isTidy_outlineLine node.depth node.symbol
  rw [readOutline, lines_text tidy, tree, outline_eq, mapM_readNode (known_of_isOver inside 0),
    Option.bind_some, assemble_nodes]

end Outline

end Listing

/--
A tree over the symbols of a grammar is known by its outline, whatever its shape is. Its depths and
its symbols can be read line by line, and another tree has another outline.
-/
theorem Grammar.tree_of_outline (grammar : Grammar) {tree : Tree} (inside : tree.IsOver grammar) :
    Listing.readOutline grammar (Listing.text (Listing.tree grammar tree)) = some tree ∧
    ∀ other : Tree, other.IsOver grammar →
      Listing.text (Listing.tree grammar other) = Listing.text (Listing.tree grammar tree) →
      other = tree := by
  refine ⟨Listing.readOutline_tree inside, fun other again same => ?_⟩
  have read := Listing.readOutline_tree again
  rw [same, Listing.readOutline_tree inside] at read
  exact (Option.some.inj read).symm

/-- This is the parse of a sum of two operands. -/
theorem Grammar.tree_of_outline_sum : ∃ compiled,
    CompiledGrammar.ofText "E E + E\nE a" = .ok compiled ∧
    Listing.readOutline compiled.grammar (Listing.text (Listing.tree compiled.grammar
      (.node 1 [.node 1 [.leaf 3], .leaf 2, .node 1 [.leaf 3]]))) =
        some (.node 1 [.node 1 [.leaf 3], .leaf 2, .node 1 [.leaf 3]]) := by
  obtain ⟨compiled, compiles, checked⟩ := CompiledGrammar.exists_of_ofText "E E + E\nE a"
    (fun compiled => Tree.checks compiled.grammar
      (.node 1 [.node 1 [.leaf 3], .leaf 2, .node 1 [.leaf 3]])) (by decide +kernel)
  have inside := (Tree.checks_iff.1 checked).isOver
  exact ⟨compiled, compiles, (tree_of_outline compiled.grammar inside).1⟩

end ShiftReduce
