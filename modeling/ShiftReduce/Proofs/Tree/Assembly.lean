/-
This file builds derivation trees bottom-up along a run.
-/

import ShiftReduce.Proofs.Run.Trajectory
import ShiftReduce.Proofs.Tree.Derivation

namespace ShiftReduce

/-- A reduction has the number of its rule. -/
def TraceStep.reduced (step : TraceStep) : Option Nat :=
  match step.move with
  | .reduce index => some index
  | _ => none

/-- The reductions of a trace are those of its steps. -/
theorem Trace.map_rule_reductions (trace : Trace) :
    trace.reductions.map Reduction.rule = trace.steps.filterMap TraceStep.reduced := by
  have place (numbered : TraceStep × Nat) : Option.map Reduction.rule
      (match numbered.1.move with
        | .reduce rule => some ⟨numbered.2, rule⟩
        | _ => none) = numbered.1.reduced := by
    rw [TraceStep.reduced]
    cases numbered.1.move <;> rfl
  conv => rhs; rw [← List.zipIdx_map_fst 0 trace.steps]
  rw [reductions, List.map_filterMap, List.filterMap_map]
  exact List.filterMap_congr fun numbered _ => place numbered

namespace Tree

/-- A new node takes one tree for each symbol of the rule. The last tree comes first. -/
def gather (rule : Rule) (forest : List Tree) : List Tree :=
  .node rule.lhs (forest.take rule.rhs.length).reverse :: forest.drop rule.rhs.length

/-- A shift puts a leaf on the forest, and a reduction gathers trees under a new node. -/
def assembleStep (rules : List Rule) (forest : List Tree) (step : TraceStep) : List Tree :=
  match step.move with
  | .shift _ => (step.input.head?.map leaf).toList ++ forest
  | .reduce index =>
      match rules[index]? with
      | none => forest
      | some rule => gather rule forest
  | _ => forest

def assemble (rules : List Rule) (forest : List Tree) (steps : List TraceStep) : List Tree :=
  steps.foldl (assembleStep rules) forest

section Moves

variable {grammar : Grammar} {rules : List Rule} {forest : List Tree}

theorem assembleStep_of_shift {stack : List Frame} {symbol : Symbol} {rest : List Symbol}
    {state : Nat} (decided : (⟨stack, symbol :: rest⟩ : Configuration).move grammar grammar.table =
      .shift state) :
    assembleStep rules forest (Configuration.step grammar ⟨stack, symbol :: rest⟩) =
      leaf symbol :: forest := by
  rw [assembleStep, Configuration.step, decided]
  rfl

theorem assembleStep_of_reduce {configuration : Configuration} {index : Nat} {rule : Rule}
    (decided : configuration.move grammar grammar.table = .reduce index)
    (found : rules[index]? = some rule) :
    assembleStep rules forest (configuration.step grammar) = gather rule forest := by
  rw [assembleStep, Configuration.step, decided]
  dsimp only
  rw [found]

theorem assembleStep_of_accept {configuration : Configuration}
    (decided : configuration.move grammar grammar.table = .accept) :
    assembleStep rules forest (configuration.step grammar) = forest := by
  rw [assembleStep, Configuration.step, decided]

end Moves

/--
The forest has the roots that lie on the stack, it covers the part of the word that was read, and
its rules are those of the reductions so far. No other rule number names the same rule.
-/
structure Assembled (grammar : Grammar) (word : List Symbol) (configuration : Configuration)
    (forest : List Tree) (reductions : List Nat) : Prop where
  roots : forest.map Tree.symbol = configuration.stack.map Frame.symbol
  derivations : ∀ tree ∈ forest, tree.IsDerivation grammar
  yields : leavesOf forest.reverse ++ configuration.input = word
  order : (postorderOf forest.reverse).map some =
    reductions.map fun index => grammar.rules[index]?
  single : ∀ index ∈ reductions, ∀ other,
    grammar.rules[other]? = grammar.rules[index]? → other = index

section Gather

variable {rule : Rule} {forest : List Tree}

theorem reverse_gather : (gather rule forest).reverse =
    (forest.drop rule.rhs.length).reverse ++
      [.node rule.lhs (forest.take rule.rhs.length).reverse] := by
  rw [gather, List.reverse_cons]

theorem reverse_rest_append : (forest.drop rule.rhs.length).reverse ++
    (forest.take rule.rhs.length).reverse = forest.reverse := by
  rw [← List.reverse_append, List.take_append_drop]

variable (gathered : ((forest.take rule.rhs.length).reverse).map Tree.symbol = rule.rhs)
  (inner : (forest.take rule.rhs.length).reverse ≠ [])

include inner

theorem leavesOf_gather : leavesOf (gather rule forest).reverse = leavesOf forest.reverse := by
  rw [reverse_gather, leavesOf_append, leavesOf_singleton, leaves_node inner, ← leavesOf_append,
    reverse_rest_append]

include gathered

theorem postorderOf_gather :
    postorderOf (gather rule forest).reverse = postorderOf forest.reverse ++ [rule] := by
  rw [reverse_gather, postorderOf_append, postorderOf_singleton, postorder_node inner, gathered,
    ← List.append_assoc, ← postorderOf_append, reverse_rest_append]

end Gather

section Steps

variable {grammar : Grammar} {word : List Symbol} {before after : Configuration}
  {forest : List Tree} {reductions : List Nat}

theorem assembled_initial (terminals : List Symbol) :
    Assembled grammar terminals (.initial terminals) [] [] :=
  ⟨rfl, by simp, by simp [leavesOf, Configuration.initial], by simp [postorderOf], by simp⟩

theorem Assembled.shift {stack : List Frame} {symbol : Symbol} {rest : List Symbol} (state : Nat)
    (assembled : Assembled grammar word ⟨stack, symbol :: rest⟩ forest reductions)
    (terminal : grammar.isTerminal symbol = true) :
    Assembled grammar word ⟨⟨symbol, state⟩ :: stack, rest⟩ (leaf symbol :: forest) reductions := by
  constructor
  case roots => exact congrArg (symbol :: ·) assembled.roots
  case derivations =>
    intro tree listed
    rcases List.mem_cons.1 listed with rfl | old
    · exact .leaf terminal
    · exact assembled.derivations tree old
  case yields =>
    have yields := assembled.yields
    simpa [leavesOf_append, leavesOf_singleton, leaves_leaf] using yields
  case order =>
    have order := assembled.order
    simpa [postorderOf_append, postorderOf_singleton, postorder_leaf] using order
  case single => exact assembled.single

theorem Assembled.reduce {stack : List Frame} {input : List Symbol} {rule : Rule} {index : Nat}
    (state : Nat) (assembled : Assembled grammar word ⟨stack, input⟩ forest reductions)
    (later : index ≠ 0) (found : grammar.rules[index]? = some rule)
    (spells : spelled (stack.take rule.rhs.length) = rule.rhs)
    (single : ∀ other, grammar.rules[other]? = grammar.rules[index]? → other = index) :
    Assembled grammar word ⟨⟨rule.lhs, state⟩ :: stack.drop rule.rhs.length, input⟩
      (gather rule forest) (reductions ++ [index]) := by
  have declared := grammar.mem_declaredRules.2 ⟨index, later, found⟩
  have gathered : ((forest.take rule.rhs.length).reverse).map Tree.symbol = rule.rhs := by
    rw [spelled, List.map_take, ← assembled.roots] at spells
    rw [List.map_reverse, List.map_take, spells]
  have inner := children_ne_nil declared gathered
  constructor
  case roots =>
    have roots := assembled.roots
    simp only [gather, List.map_cons, List.map_drop, roots, symbol]
  case derivations =>
    intro tree listed
    rcases List.mem_cons.1 listed with rfl | old
    · apply IsDerivation.node declared gathered
      intro child inside
      exact assembled.derivations child (List.mem_of_mem_take (List.mem_reverse.1 inside))
    · exact assembled.derivations tree (List.mem_of_mem_drop old)
  case yields =>
    rw [leavesOf_gather inner]
    exact assembled.yields
  case order =>
    rw [postorderOf_gather gathered inner, List.map_append, assembled.order]
    simp [found]
  case single =>
    intro number listed other same
    rcases List.mem_append.1 listed with old | new
    · exact assembled.single number old other same
    · rw [List.mem_singleton.1 new] at same ⊢
      exact single other same

variable (conflictFree : grammar.table.hasConflict = false)

include conflictFree

theorem Assembled.step (assembled : Assembled grammar word before forest reductions)
    (consistent : before.Consistent grammar) (continues : before.Step grammar after) :
    Assembled grammar word after (assembleStep grammar.rules forest (before.step grammar))
      (reductions ++ (before.step grammar).reduced.toList) := by
  have moves := consistent.moves conflictFree continues
  have reduced : (before.step grammar).reduced = match before.move grammar grammar.table with
    | .reduce index => some index
    | _ => none := rfl
  rw [reduced]
  generalize decided : before.move grammar grammar.table = move at moves
  cases moves with
  | @shift stack symbol rest state _ =>
      have terminal := consistent.readable symbol List.mem_cons_self
      rw [assembleStep_of_shift decided]
      simpa using assembled.shift state terminal
  | @reduce stack input index state rule later found complete follows moves =>
      have spells := spelled_of_complete consistent.linked found complete
      have single : ∀ other, grammar.rules[other]? = grammar.rules[index]? → other = index := by
        intro other same
        exact consistent.single conflictFree (.reduce later found complete follows moves) same
      rw [assembleStep_of_reduce decided found]
      exact assembled.reduce state later found spells single

theorem Assembled.passes (assembled : Assembled grammar word before forest reductions)
    (consistent : before.Consistent grammar) {visited : List Configuration}
    (passes : Configuration.Passes grammar before visited after) :
    Assembled grammar word after
      (assemble grammar.rules forest (visited.map (Configuration.step grammar)))
      (reductions ++ (visited.map (Configuration.step grammar)).filterMap TraceStep.reduced) := by
  induction passes generalizing forest reductions with
  | stay _ => simpa [assemble] using assembled
  | @step before after last visited continues _ ih =>
      have next := assembled.step conflictFree consistent continues
      have whole := ih next (consistent.step conflictFree continues)
      cases found : (before.step grammar).reduced with
      | none => simpa [assemble, found] using whole
      | some index => simpa [assemble, found] using whole

/-- When the driver accepts, one tree over the whole word is left. -/
theorem Assembled.accepts (assembled : Assembled grammar word before forest reductions)
    (consistent : before.Consistent grammar)
    (accepting : before.move grammar grammar.table = .accept) :
    ∃ tree : Tree, forest = [tree] ∧ tree.leaves = word ∧ tree.IsParse grammar ∧
      tree.postorder.map some = reductions.map (fun index => grammar.rules[index]?) := by
  have decided : before.Decides grammar (before.move grammar grammar.table) :=
    Grammar.decides_move conflictFree
  rw [accepting] at decided
  cases decided with
  | accept complete finished =>
      obtain ⟨state, alone⟩ := stack_of_accepting consistent.linked complete
      have ended := (Grammar.lookahead_eq_endMarker_iff consistent.readable).1 finished
      have roots := assembled.roots
      rw [alone, List.map_singleton] at roots
      obtain ⟨tree, rfl, root⟩ := List.map_eq_singleton_iff.1 roots
      have yields := assembled.yields
      have order := assembled.order
      rw [ended, List.append_nil, List.reverse_singleton, leavesOf_singleton] at yields
      rw [List.reverse_singleton, postorderOf_singleton] at order
      exact ⟨tree, rfl, yields, ⟨assembled.derivations tree List.mem_cons_self, root⟩, order⟩

end Steps

end Tree

end ShiftReduce
