/-
This file shows that the driver of a table without conflicts finds everything on which it relies.
-/

import ShiftReduce.Proofs.Run.Driver
import ShiftReduce.Proofs.Run.Outcome
import ShiftReduce.Proofs.Table.Exactness
import ShiftReduce.Proofs.Tree.Assembly

namespace ShiftReduce

namespace Configuration

/--
The frames follow the goto sets, and their symbols derive the consumed tokens. The cell at hand has
no conflict, a reduction finds its right-hand side on top and a goto below, and only the declared
start symbol and no input are left when the cell accepts.
-/
structure Sound (grammar : Grammar) (table : ParseTable) (consumed : List Symbol)
    (configuration : Configuration) : Prop where
  entered : ∀ front frame rest, configuration.stack = front ++ frame :: rest →
    grammar.LeadsTo (topState rest) frame.symbol frame.state
  derives : Derives grammar.declaredRules (spelled configuration.stack) consumed
  plain : ∀ actions, table.action configuration.top (configuration.lookahead grammar) ≠
    some (.conflict actions)
  reduces : ∀ index, table.action configuration.top (configuration.lookahead grammar) =
    some (.reduce index) → 1 ≤ index ∧ ∃ rule, grammar.rules[index]? = some rule ∧
      rule.rhs.length ≤ configuration.stack.length ∧
      spelled (configuration.stack.take rule.rhs.length) = rule.rhs ∧
      ∃ next, table.goto (topState (configuration.stack.drop rule.rhs.length)) rule.lhs = some next
  accepts : table.action configuration.top (configuration.lookahead grammar) = some .accept →
    configuration.input = [] ∧ ∃ state, configuration.stack = [⟨grammar.declaredStart, state⟩]

variable {grammar : Grammar} {terminals : List Symbol} {configuration : Configuration}
  (conflictFree : grammar.table.hasConflict = false)

include conflictFree

/-- The symbols on the stack derive the part of the input that was read. -/
theorem exists_consumed (terminal : ∀ symbol ∈ terminals, grammar.isTerminal symbol = true)
    (reaches : Reaches grammar (.initial terminals) configuration) :
    ∃ consumed, consumed ++ configuration.input = terminals ∧
      Derives grammar.declaredRules (spelled configuration.stack) consumed := by
  obtain ⟨visited, passes⟩ := reaches.passes
  obtain ⟨roots, derivations, yields, _, _⟩ :=
    (Tree.assembled_initial terminals).passes conflictFree (consistent_initial terminal) passes
  refine ⟨_, yields, ?_⟩
  rw [spelled, ← roots, ← List.map_reverse]
  exact Tree.derives_leavesOf fun tree listed =>
    (derivations tree (List.mem_reverse.1 listed)).derives

/-- A consistent configuration is sound for what its stack derives. -/
theorem Consistent.sound (consistent : configuration.Consistent grammar) {consumed : List Symbol}
    (derives : Derives grammar.declaredRules (spelled configuration.stack) consumed) :
    Sound grammar grammar.table consumed configuration := by
  have derived {action : Action}
      (found : grammar.table.action configuration.top (configuration.lookahead grammar) =
        some action) := ((Grammar.action_eq_some_iff conflictFree).1 found).2
  constructor
  case entered =>
    intro front frame rest split
    have below := consistent.linked.drop front.length
    rw [split, List.drop_left] at below
    exact Grammar.transition_eq_some_iff.1 below.1
  case derives => exact derives
  case plain =>
    intro actions found
    cases Grammar.isConflict_eq_false conflictFree found
  case reduces =>
    intro index found
    obtain ⟨rule, later, listed, complete, _⟩ :=
      Grammar.reduce_mem_derivedActions.1 (derived found)
    obtain ⟨_, enough, _⟩ := spelled_of_item consistent.linked listed complete
    obtain ⟨next, moves⟩ := exists_uncovered consistent.linked later listed complete
    have nonterminal := grammar.wellFormed.lhs_nonterminal rule (List.mem_of_getElem? listed)
    exact ⟨Nat.one_le_iff_ne_zero.2 later, rule, listed, enough,
      spelled_of_complete consistent.linked listed complete, next,
      (Grammar.goto_eq_transition nonterminal).trans moves⟩
  case accepts =>
    intro found
    obtain ⟨complete, finished⟩ := Grammar.accept_mem_derivedActions.1 (derived found)
    exact ⟨(Grammar.lookahead_eq_endMarker_iff consistent.readable).1 finished,
      stack_of_accepting consistent.linked complete⟩

end Configuration

namespace CompiledGrammar

/--
Without conflicts every driver that is reached over the tokens of a sentence has its position inside
the tokens, shows a sound configuration, and does not break down in its next round. So for any
number of rounds the driver records just the steps of the run.
-/
theorem driver_safe (compiled : CompiledGrammar) (conflictFree : compiled.hasConflict = false)
    {sentence : String} {tokens : List Symbol}
    (tokenized : compiled.grammar.tokenize sentence = .ok tokens) :
    (∀ driver, Driver.Reached compiled.grammar compiled.table tokens driver →
      driver.position < tokens.length ∧ ∃ configuration,
        Driver.Shows compiled.grammar tokens configuration driver ∧
        configuration.Sound compiled.grammar compiled.table (tokens.take driver.position) ∧
        ∃ after, driver.advance compiled.grammar compiled.table tokens =
          .ok (configuration.move compiled.grammar compiled.table, after)) ∧
    (∀ rounds, Driver.start.record compiled.grammar compiled.table tokens rounds =
      .ok (compiled.grammar.record compiled.table rounds (.initial tokens.dropLast))) ∧
    Driver.start.record compiled.grammar compiled.table tokens
        (compiled.grammar.stepLimit tokens.dropLast.length) =
      .ok (compiled.run sentence).steps := by
  obtain ⟨terminals, spells, rfl⟩ := Grammar.exists_spells_of_tokenize tokenized
  have noConflict := table_hasConflict conflictFree
  have start := Configuration.consistent_initial spells.terminal
  have recorded (rounds : Nat) :=
    (Driver.Shows.start terminals).record_eq noConflict start rounds
  rw [table_eq_table, List.dropLast_concat]
  refine ⟨?_, recorded, ?_⟩
  · intro driver reached
    obtain ⟨configuration, reaches, shows⟩ := reached.shows noConflict spells.terminal
    have consistent := start.reaches noConflict reaches
    obtain ⟨consumed, whole, derives⟩ :=
      Configuration.exists_consumed noConflict spells.terminal reaches
    -- The rest of the tokens is the input on both sides, so the fronts are the same.
    have taken : consumed = (terminals ++ [compiled.grammar.endMarker]).take driver.position := by
      rw [← List.append_left_inj (configuration.input ++ [compiled.grammar.endMarker]),
        ← List.append_assoc, whole, ← shows.input, List.take_append_drop]
    obtain ⟨after, advanced, _⟩ := shows.round noConflict consistent
    rw [taken] at derives
    exact ⟨shows.inside, configuration, shows, consistent.sound noConflict derives, after, advanced⟩
  · rw [recorded, run_of_spells conflictFree spells]

/-- The driver comes to the end of a left-recursive list. -/
theorem driver_safe_list : ∃ compiled, ofText "L L a\nL a" = .ok compiled ∧
    compiled.hasConflict = false ∧ compiled.grammar.tokenize "a a" = .ok [2, 2, 3] ∧
    Driver.start.record compiled.grammar compiled.table [2, 2, 3]
        (compiled.grammar.stepLimit 2) = .ok (compiled.run "a a").steps := by
  obtain ⟨compiled, compiles, evaluated⟩ := exists_of_ofText "L L a\nL a"
    (fun compiled => !compiled.hasConflict &&
      decide ((compiled.grammar.tokenize "a a").toOption = some [2, 2, 3]))
    (by decide +kernel)
  simp only [Bool.and_eq_true, Bool.not_eq_true', decide_eq_true_eq] at evaluated
  obtain ⟨conflictFree, tokens⟩ := evaluated
  have tokenized : compiled.grammar.tokenize "a a" = .ok [2, 2, 3] := by
    cases known : compiled.grammar.tokenize "a a" with
    | error fault => rw [known] at tokens; cases tokens
    | ok found => rw [known] at tokens; exact congrArg _ (Option.some.inj tokens)
  exact ⟨compiled, compiles, conflictFree, tokenized,
    (driver_safe compiled conflictFree tokenized).2.2⟩

end CompiledGrammar

end ShiftReduce
