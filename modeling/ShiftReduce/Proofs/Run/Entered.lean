/-
This file shows which states the runs of a grammar enter.
-/

import ShiftReduce.Proofs.Run.UnitCycles
import ShiftReduce.Proofs.Run.Walk

namespace ShiftReduce

namespace Grammar

variable (grammar : Grammar)

/-- A productive symbol derives some terminal string. -/
def Productive (symbol : Symbol) : Prop :=
  ∃ word, Derives grammar.declaredRules [symbol] word ∧
    ∀ terminal ∈ word, grammar.isTerminal terminal = true

/-- Transitions on productive symbols lead from the start state to an entered state. -/
inductive Entered : Nat → Prop
  | start : Entered 0
  | step {state next : Nat} {symbol : Symbol} (entered : Entered state)
      (productive : grammar.Productive symbol)
      (moves : grammar.transition state symbol = some next) : Entered next

variable {grammar} {state next : Nat} {symbol found : Symbol}

theorem productive_iff : grammar.Productive symbol ↔
    ∃ tree : Tree, tree.symbol = symbol ∧ tree.IsDerivation grammar := by
  constructor
  · intro given
    obtain ⟨word, derives, terminal⟩ := given
    obtain ⟨tree, root, _, derivation⟩ := Tree.exists_tree_of_derives derives terminal
    exact ⟨tree, root, derivation⟩
  · intro given
    obtain ⟨tree, rfl, derivation⟩ := given
    exact ⟨tree.leaves, derivation.derives, derivation.leaves_terminal⟩

/-- Whatever an item of the next state reads begins with what follows the symbol before it. -/
theorem first_subset_follow (moves : grammar.transition state symbol = some next) {item : Item}
    (member : item ∈ grammar.stateItems next) {read : Symbol}
    (reads : grammar.nextSymbol item = some read) (leading : found ∈ grammar.first read) :
    found ∈ grammar.follow symbol := by
  have called := mem_closure.1 ((mem_stateItems_of_transition moves).1 member)
  clear member
  induction called generalizing read with
  | seed inside =>
      obtain ⟨source, _, before, rfl⟩ := mem_advanced.1 inside
      obtain ⟨rule, located, here⟩ := exists_rule_of_nextSymbol before
      rw [nextSymbol_of_rule located] at reads
      obtain ⟨bound, behind⟩ := List.getElem?_eq_some_iff.1 reads
      obtain ⟨_, current⟩ := List.getElem?_eq_some_iff.1 here
      have split : rule.rhs = rule.rhs.take source.dot ++
          symbol :: read :: rule.rhs.drop (source.dot + 2) := by
        rw [← current, ← behind, List.getElem_cons_drop, List.getElem_cons_drop,
          List.take_append_drop]
      exact grammar.mem_follow_of_next (List.mem_of_getElem? located) split leading
  | call caller calls ih =>
      obtain ⟨rule, located, before, start⟩ := mem_calledItems.1 calls
      obtain ⟨other, again, here⟩ := exists_rule_of_nextSymbol reads
      obtain rfl := Option.some.inj (again.symm.trans located)
      rw [start] at here
      obtain ⟨rest, split⟩ : ∃ rest, other.rhs = read :: rest := by
        cases whole : other.rhs with
        | nil =>
            rw [whole] at here
            cases here
        | cons first rest =>
            rw [whole, List.getElem?_cons_zero, Option.some.injEq] at here
            exact ⟨rest, by rw [here]⟩
      exact ih before
        (grammar.mem_first_of_rule (List.mem_of_getElem? located) split leading)

end Grammar

open ShiftReduce.Configuration

section Entered

variable {grammar : Grammar} {state : Nat} {symbol : Symbol}

/-- All symbols on the stack of a run are productive, so its states are entered. -/
theorem entered_of_linked {stack : List Frame} (linked : Linked grammar stack)
    (productive : ∀ frame ∈ stack, grammar.Productive frame.symbol) :
    grammar.Entered (topState stack) := by
  induction stack with
  | nil => exact .start
  | cons frame rest ih =>
      have below := ih linked.2 fun other listed => productive other (List.mem_cons_of_mem _ listed)
      exact .step below (productive frame List.mem_cons_self) linked.1

variable (conflictFree : grammar.table.hasConflict = false)

include conflictFree

theorem productive_of_reaches {terminals : List Symbol}
    (terminal : ∀ other ∈ terminals, grammar.isTerminal other = true) {between : Configuration}
    (reaches : Reaches grammar (.initial terminals) between) :
    ∀ frame ∈ between.stack, grammar.Productive frame.symbol := by
  intro frame listed
  obtain ⟨visited, passes⟩ := reaches.passes
  have assembled := (Tree.assembled_initial terminals).passes conflictFree
    (consistent_initial terminal) passes
  have root : frame.symbol ∈ between.stack.map Frame.symbol := List.mem_map_of_mem listed
  rw [← assembled.roots] at root
  obtain ⟨tree, built, same⟩ := List.mem_map.1 root
  exact Grammar.productive_iff.2 ⟨tree, same, assembled.derivations tree built⟩

/-- A run comes to each entered state when an expected symbol follows. -/
theorem walk_entered (entered : grammar.Entered state) :
    ∃ stack word, topState stack = state ∧
      (∀ other ∈ word, grammar.isTerminal other = true) ∧
      ∀ (tail : List Symbol) (item : Item) (read : Symbol),
        (∀ other ∈ tail, grammar.isTerminal other = true) → item ∈ grammar.stateItems state →
        grammar.nextSymbol item = some read →
        tail.head?.getD grammar.endMarker ∈ grammar.first read →
        Reaches grammar (.initial (word ++ tail)) ⟨stack, tail⟩ := by
  induction entered with
  | start =>
      exact ⟨[], [], rfl, nofun, fun _ _ _ _ _ _ _ => Relation.ReflTransGen.refl⟩
  | @step state next symbol _ productive moves ih =>
      obtain ⟨stack, word, rfl, terminal, walks⟩ := ih
      obtain ⟨tree, rfl, derivation⟩ := Grammar.productive_iff.1 productive
      refine ⟨⟨tree.symbol, next⟩ :: stack, word ++ tree.leaves, rfl, ?_, ?_⟩
      · exact List.forall_mem_append.2 ⟨terminal, derivation.leaves_terminal⟩
      · intro tail item read readable member reads leading
        obtain ⟨source, inside, before⟩ := Grammar.exists_reader moves
        have follows := Grammar.first_subset_follow moves member reads leading
        obtain ⟨visited, passes, _⟩ := walked_of_isDerivation conflictFree derivation stack tail
          source next inside before moves readable follows
        have first := grammar.head_append_mem_first derivation tail
        have terminals : ∀ other ∈ tree.leaves ++ tail, grammar.isTerminal other = true :=
          List.forall_mem_append.2 ⟨derivation.leaves_terminal, readable⟩
        have reaches := walks (tree.leaves ++ tail) source tree.symbol terminals inside before first
        rw [List.append_assoc]
        exact reaches.trans passes.reaches

/-- Some run is endless exactly when an entered state has a unit cycle on a productive symbol. -/
theorem exists_endless_iff :
    (∃ terminals, (∀ other ∈ terminals, grammar.isTerminal other = true) ∧
        Endless grammar (.initial terminals)) ↔
      ∃ state lookahead symbol, grammar.Entered state ∧ grammar.Productive symbol ∧
        grammar.UnitCycle state lookahead symbol := by
  constructor
  · intro given
    obtain ⟨terminals, terminal, endless⟩ := given
    obtain ⟨⟨stack, input⟩, reaches, frame, rest, rfl, cycle⟩ :=
      (endless_iff conflictFree terminal).1 endless
    have linked := ((consistent_initial terminal).reaches conflictFree reaches).linked
    have productive := productive_of_reaches conflictFree terminal reaches
    exact ⟨topState rest, _, frame.symbol,
      entered_of_linked linked.2 fun other listed =>
        productive other (List.mem_cons_of_mem _ listed),
      productive frame List.mem_cons_self, cycle⟩
  · intro given
    obtain ⟨state, lookahead, symbol, entered, productive, cycle⟩ := given
    obtain ⟨other, ⟨next, index, moves, action, found⟩, _⟩ := Relation.TransGen.head'_iff.1 cycle
    obtain ⟨later, member, follows, column⟩ :=
      Grammar.justified_of_unit conflictFree moves action found
    obtain ⟨stack, word, rfl, terminal, walks⟩ := walk_entered conflictFree entered
    obtain ⟨tree, rfl, derivation⟩ := Grammar.productive_iff.1 productive
    obtain ⟨tail, readable, rfl⟩ := Grammar.exists_input column
    have reads : grammar.nextSymbol ⟨index, 0⟩ = some tree.symbol := by
      rw [Grammar.nextSymbol_of_rule found]
      rfl
    have whole : ∀ other ∈ tree.leaves ++ tail, grammar.isTerminal other = true :=
      List.forall_mem_append.2 ⟨derivation.leaves_terminal, readable⟩
    have early := walks (tree.leaves ++ tail) ⟨index, 0⟩ tree.symbol whole member reads
      (grammar.head_append_mem_first derivation tail)
    have expected := grammar.mem_follow_of_unit (List.mem_of_getElem? found) follows
    obtain ⟨visited, passes, _⟩ := walked_of_isDerivation conflictFree derivation stack tail
      ⟨index, 0⟩ next member reads moves readable expected
    have terminals := List.forall_mem_append.2 ⟨terminal, whole⟩
    refine ⟨_, terminals, (endless_iff conflictFree terminals).2 ?_⟩
    exact ⟨_, early.trans passes.reaches, ⟨tree.symbol, next⟩, stack, rfl, cycle⟩

end Entered

end ShiftReduce
