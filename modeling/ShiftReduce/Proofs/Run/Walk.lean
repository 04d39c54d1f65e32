/-
This file shows that a run without conflicts walks along each derivation tree, children first.
-/

import ShiftReduce.Proofs.Lookahead.Inclusions
import ShiftReduce.Proofs.Tree.Assembly

namespace ShiftReduce

open ShiftReduce.Configuration

/--
Wherever an item reads the root and what comes next can follow it, the run reads the leaves, puts
the root on the stack and builds the tree.
-/
def Tree.Walked (grammar : Grammar) (tree : Tree) : Prop :=
  ∀ (stack : List Frame) (tail : List Symbol) (item : Item) (next : Nat),
    item ∈ grammar.stateItems (topState stack) → grammar.nextSymbol item = some tree.symbol →
    grammar.transition (topState stack) tree.symbol = some next →
    (∀ symbol ∈ tail, grammar.isTerminal symbol = true) →
    tail.head?.getD grammar.endMarker ∈ grammar.follow tree.symbol →
    ∃ visited, Passes grammar ⟨stack, tree.leaves ++ tail⟩ visited
        ⟨⟨tree.symbol, next⟩ :: stack, tail⟩ ∧
      ∀ forest, Tree.assemble grammar.rules forest (visited.map (step grammar)) = tree :: forest

section Walk

variable {grammar : Grammar} {rule : Rule} {index : Nat}

theorem assemble_append (forest : List Tree) (first second : List Configuration) :
    Tree.assemble grammar.rules forest ((first ++ second).map (step grammar)) =
      Tree.assemble grammar.rules
        (Tree.assemble grammar.rules forest (first.map (step grammar)))
        (second.map (step grammar)) := by
  rw [List.map_append, Tree.assemble, List.foldl_append]
  rfl

/-- The first leaf behind a symbol of a rule can follow the symbol. -/
theorem follows_in_rule {dot : Nat} {tree : Tree} {trees : List Tree} {tail : List Symbol}
    (found : grammar.rules[index]? = some rule)
    (roots : (tree :: trees).map Tree.symbol = rule.rhs.drop dot)
    (derivations : ∀ other ∈ trees, other.IsDerivation grammar)
    (follows : tail.head?.getD grammar.endMarker ∈ grammar.follow rule.lhs) :
    (Tree.leavesOf trees ++ tail).head?.getD grammar.endMarker ∈ grammar.follow tree.symbol := by
  have listed := List.mem_of_getElem? found
  have split : rule.rhs = rule.rhs.take dot ++ (tree :: trees).map Tree.symbol := by
    rw [roots, List.take_append_drop]
  cases trees with
  | nil =>
      rw [Tree.leavesOf, List.nil_append]
      exact grammar.mem_follow_of_last listed split follows
  | cons second others =>
      have first := grammar.head_append_mem_first (derivations second List.mem_cons_self)
        (Tree.leavesOf others ++ tail)
      rw [Tree.leavesOf, List.append_assoc]
      exact grammar.mem_follow_of_next listed split first

/--
The trees of a rest of a right-hand side are walked one after the other, and the item of the rule
advances with them.
-/
theorem walk_forest (found : grammar.rules[index]? = some rule) {tail : List Symbol}
    (readable : ∀ symbol ∈ tail, grammar.isTerminal symbol = true)
    (follows : tail.head?.getD grammar.endMarker ∈ grammar.follow rule.lhs) {trees : List Tree}
    (derivations : ∀ tree ∈ trees, tree.IsDerivation grammar)
    (walked : ∀ tree ∈ trees, tree.Walked grammar) {dot : Nat}
    (roots : trees.map Tree.symbol = rule.rhs.drop dot) (inside : dot ≤ rule.rhs.length)
    {stack : List Frame} (member : (⟨index, dot⟩ : Item) ∈ grammar.stateItems (topState stack)) :
    ∃ frames visited, frames.length = trees.length ∧
      Passes grammar ⟨stack, Tree.leavesOf trees ++ tail⟩ visited ⟨frames ++ stack, tail⟩ ∧
      (⟨index, rule.rhs.length⟩ : Item) ∈ grammar.stateItems (topState (frames ++ stack)) ∧
      ∀ forest, Tree.assemble grammar.rules forest (visited.map (step grammar)) =
        trees.reverse ++ forest := by
  induction trees generalizing dot stack with
  | nil =>
      have finished : dot = rule.rhs.length :=
        Nat.le_antisymm inside (List.drop_eq_nil_iff.1 roots.symm)
      rw [Tree.leavesOf, List.nil_append]
      exact ⟨[], [], rfl, .stay _, finished ▸ member, fun _ => rfl⟩
  | cons tree trees ih =>
      have reads : rule.rhs[dot]? = some tree.symbol := by
        rw [← List.head?_drop, ← roots]
        rfl
      have rest : trees.map Tree.symbol = rule.rhs.drop (dot + 1) := by
        rw [← List.tail_drop, ← roots]
        rfl
      rw [← Grammar.nextSymbol_of_rule found] at reads
      obtain ⟨next, moves⟩ := Grammar.exists_transition member reads
      have others : ∀ other ∈ trees, other.IsDerivation grammar :=
        fun other listed => derivations other (List.mem_cons_of_mem _ listed)
      have terminals := List.forall_mem_append.2
        ⟨Tree.leavesOf_terminal fun other listed => (others other listed).leaves_terminal, readable⟩
      obtain ⟨first, passesFirst, buildsFirst⟩ := walked tree List.mem_cons_self stack
        (Tree.leavesOf trees ++ tail) _ next member reads moves terminals
        (follows_in_rule found roots others follows)
      have advanced : (⟨index, dot + 1⟩ : Item) ∈
          grammar.stateItems (topState (⟨tree.symbol, next⟩ :: stack)) :=
        (Grammar.mem_stateItems_succ moves).2 ⟨member, reads⟩
      have bound := (List.getElem?_eq_some_iff.1 (Grammar.nextSymbol_of_rule found ▸ reads)).1
      obtain ⟨frames, second, count, passesSecond, complete, buildsSecond⟩ :=
        ih others (fun other listed => walked other (List.mem_cons_of_mem _ listed)) rest bound
          advanced
      have joined : frames ++ [⟨tree.symbol, next⟩] ++ stack =
          frames ++ ⟨tree.symbol, next⟩ :: stack := by
        rw [List.append_assoc, List.singleton_append]
      refine ⟨frames ++ [⟨tree.symbol, next⟩], first ++ second, ?_, ?_, ?_, ?_⟩
      · rw [List.length_append, count]
        rfl
      · rw [Tree.leavesOf, List.append_assoc, joined]
        exact passesFirst.append passesSecond
      · rw [joined]
        exact complete
      · intro forest
        rw [assemble_append, buildsFirst, buildsSecond]
        simp

variable (conflictFree : grammar.table.hasConflict = false)

include conflictFree

theorem walked_leaf {symbol : Symbol} (terminal : grammar.isTerminal symbol = true) :
    (Tree.leaf symbol).Walked grammar := by
  intro stack tail item next member reads moves readable follows
  have shifts : Moves grammar ⟨stack, symbol :: tail⟩ (.shift next)
      ⟨⟨symbol, next⟩ :: stack, tail⟩ := .shift moves
  have whole : (⟨stack, symbol :: tail⟩ : Configuration).Readable grammar := by
    intro other listed
    rcases List.mem_cons.1 listed with rfl | later
    · exact terminal
    · exact readable other later
  have decided := shifts.move_eq conflictFree whole
  rw [Tree.leaves_leaf]
  refine ⟨[⟨stack, symbol :: tail⟩], .step (shifts.next conflictFree whole) (.stay _), ?_⟩
  intro forest
  exact Tree.assembleStep_of_shift decided

/-- Behind the children the run reduces by the rule of the node. -/
theorem walked_node {children : List Tree} (declared : rule ∈ grammar.declaredRules)
    (instantiated : children.map Tree.symbol = rule.rhs)
    (below : ∀ child ∈ children, child.IsDerivation grammar)
    (walked : ∀ child ∈ children, child.Walked grammar) :
    (Tree.node rule.lhs children).Walked grammar := by
  intro stack tail item next member reads moves readable follows
  obtain ⟨index, later, found⟩ := grammar.mem_declaredRules.1 declared
  have start : (⟨index, 0⟩ : Item) ∈ grammar.stateItems (topState stack) :=
    Grammar.called_mem_stateItems member (Grammar.mem_calledItems.2 ⟨rule, found, reads, rfl⟩)
  have roots : children.map Tree.symbol = rule.rhs.drop 0 := instantiated
  obtain ⟨frames, visited, count, passes, complete, builds⟩ :=
    walk_forest found readable follows below walked roots (Nat.zero_le _) start
  have size : frames.length = rule.rhs.length := by
    rw [count, ← instantiated, List.length_map]
  have uncovered : (frames ++ stack).drop rule.rhs.length = stack := by
    rw [← size, List.drop_left]
  have reduces : Moves grammar ⟨frames ++ stack, tail⟩ (.reduce index)
      ⟨⟨rule.lhs, next⟩ :: (frames ++ stack).drop rule.rhs.length, tail⟩ :=
    .reduce later found complete follows (uncovered.symm ▸ moves)
  have decided := reduces.move_eq conflictFree readable
  have continues := reduces.next conflictFree readable
  rw [uncovered] at continues
  rw [Tree.leaves_node (Tree.children_ne_nil declared instantiated)]
  refine ⟨visited ++ [⟨frames ++ stack, tail⟩], passes.append (.step continues (.stay _)), ?_⟩
  intro forest
  have length : children.reverse.length = rule.rhs.length := by
    rw [List.length_reverse, ← instantiated, List.length_map]
  rw [assemble_append, builds]
  change Tree.assembleStep _ _ _ = _
  rw [Tree.assembleStep_of_reduce decided found, Tree.gather, ← length, List.take_left,
    List.drop_left, List.reverse_reverse]

theorem walked_of_isDerivation {tree : Tree} (derivation : tree.IsDerivation grammar) :
    tree.Walked grammar := by
  induction derivation with
  | leaf terminal => exact walked_leaf conflictFree terminal
  | node declared instantiated below ih =>
      exact walked_node conflictFree declared instantiated below ih

/-- From the start a run over the leaves of a tree accepts and leaves this tree alone. -/
theorem accepts_leaves {tree : Tree} (parse : tree.IsParse grammar) :
    ∃ visited last, Passes grammar (.initial tree.leaves) visited last ∧
      last.move grammar grammar.table = .accept ∧
      Tree.assemble grammar.rules [] ((visited ++ [last]).map (step grammar)) = [tree] := by
  have reads : grammar.nextSymbol ⟨0, 0⟩ = some tree.symbol := by
    rw [Grammar.nextSymbol_of_rule grammar.rules_zero, parse.root, grammar.declaredStart_eq]
    rfl
  obtain ⟨next, moves⟩ := Grammar.exists_transition Grammar.startItem_mem reads
  have follows : grammar.endMarker ∈ grammar.follow tree.symbol :=
    parse.root ▸ grammar.endMarker_mem_follow_declaredStart
  obtain ⟨visited, passes, builds⟩ := walked_of_isDerivation conflictFree parse.derivation [] []
    ⟨0, 0⟩ next Grammar.startItem_mem reads moves nofun follows
  rw [List.append_nil] at passes
  have complete : (⟨0, 1⟩ : Item) ∈ grammar.stateItems next :=
    (Grammar.mem_stateItems_succ moves).2 ⟨Grammar.startItem_mem, reads⟩
  have decided : (⟨[⟨tree.symbol, next⟩], []⟩ : Configuration).move grammar grammar.table =
      .accept := Grammar.move_eq conflictFree nofun (.accept complete rfl)
  refine ⟨visited, _, passes, decided, ?_⟩
  rw [assemble_append, builds]
  exact Tree.assembleStep_of_accept decided

end Walk

end ShiftReduce
