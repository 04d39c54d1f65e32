/-
This file shows that a run is endless exactly when it comes to a cycle of unit reductions.
-/

import ShiftReduce.Proofs.Run.Bound

namespace ShiftReduce

/-- Above the state, the lookahead lets a unit rule put its left-hand side in place of a symbol. -/
def Grammar.UnitStep (grammar : Grammar) (state : Nat) (lookahead before after : Symbol) : Prop :=
  ∃ next index, grammar.transition state before = some next ∧
    grammar.table.action next lookahead = some (.reduce index) ∧
    grammar.rules[index]? = some ⟨after, [before]⟩

/-- Some unit reductions lead from the symbol back to it. -/
def Grammar.UnitCycle (grammar : Grammar) (state : Nat) (lookahead symbol : Symbol) : Prop :=
  Relation.TransGen (grammar.UnitStep state lookahead) symbol symbol

namespace Grammar

variable {grammar : Grammar} (conflictFree : grammar.table.hasConflict = false)

include conflictFree

/-- A unit reduction comes from an item of the state on what follows its left-hand side. -/
theorem justified_of_unit {state next index : Nat} {lookahead before after : Symbol}
    (moves : grammar.transition state before = some next)
    (action : grammar.table.action next lookahead = some (.reduce index))
    (found : grammar.rules[index]? = some ⟨after, [before]⟩) :
    index ≠ 0 ∧ (⟨index, 0⟩ : Item) ∈ grammar.stateItems state ∧
      lookahead ∈ grammar.follow after ∧ grammar.HasColumn lookahead := by
  obtain ⟨column, derived⟩ := (action_eq_some_iff conflictFree).1 action
  obtain ⟨rule, later, again, complete, follows⟩ := reduce_mem_derivedActions.1 derived
  obtain rfl := Option.some.inj (again.symm.trans found)
  exact ⟨later, ((mem_stateItems_succ moves).1 complete).1, follows, column⟩

end Grammar

namespace Configuration

/-- The symbol on top lies on a cycle of unit reductions. -/
def OnUnitCycle (grammar : Grammar) (configuration : Configuration) : Prop :=
  ∃ frame rest, configuration.stack = frame :: rest ∧
    grammar.UnitCycle (topState rest) (configuration.lookahead grammar) frame.symbol

variable {grammar : Grammar} {before after : Configuration}
  (conflictFree : grammar.table.hasConflict = false)

include conflictFree

/-- A step that keeps the input and the height of the stack is a unit reduction. -/
theorem Consistent.unitStep (consistent : Consistent grammar before)
    (continues : Step grammar before after)
    (sameInput : after.input.length = before.input.length)
    (sameHeight : after.stack.length = before.stack.length) :
    after.input = before.input ∧ ∃ frame top rest, before.stack = frame :: rest ∧
      after.stack = top :: rest ∧
      grammar.UnitStep (topState rest) (before.lookahead grammar) frame.symbol top.symbol := by
  have moves := consistent.moves conflictFree continues
  have linked := consistent.linked
  generalize before.move grammar grammar.table = move at moves
  cases moves with
  | shift _ => exact absurd sameInput (Nat.ne_of_lt (Nat.lt_succ_self _))
  | @reduce stack input index state rule later found complete follows _ =>
      have bounds := length_rhs_bounds linked found complete
      simp only [List.length_cons, List.length_drop] at sameHeight bounds
      have single : rule.rhs.length = 1 := by omega
      cases stack with
      | nil => exact absurd bounds.2 (by simp [single])
      | cons frame rest =>
          have spells := spelled_of_complete linked found complete
          have sides : rule.rhs = [frame.symbol] := by
            rw [← spells, single]
            rfl
          have unit : (⟨rule.lhs, [frame.symbol]⟩ : Rule) = rule := by rw [← sides]
          refine ⟨rfl, frame, ⟨rule.lhs, state⟩, rest, rfl, ?_, ?_⟩
          · rw [single]
            rfl
          · refine ⟨frame.state, index, linked.1, ?_, unit ▸ found⟩
            have column := Grammar.hasColumn_lookahead consistent.readable
            have derived := Grammar.reduce_mem_derivedActions.2
              ⟨rule, later, found, complete, follows⟩
            exact (Grammar.action_eq_some_iff conflictFree).2 ⟨column, derived⟩

/-- Steps that keep the input and the height of the stack are unit reductions. -/
theorem Consistent.unitSteps (consistent : Consistent grammar before)
    (steps : Relation.TransGen (Step grammar) before after)
    (sameInput : after.input.length = before.input.length)
    (sameHeight : after.stack.length = before.stack.length) :
    after.input = before.input ∧ ∃ frame top rest, before.stack = frame :: rest ∧
      after.stack = top :: rest ∧
      Relation.TransGen (grammar.UnitStep (topState rest) (before.lookahead grammar))
        frame.symbol top.symbol := by
  induction steps with
  | single continues =>
      obtain ⟨kept, frame, top, rest, below, above, unit⟩ :=
        consistent.unitStep conflictFree continues sameInput sameHeight
      exact ⟨kept, frame, top, rest, below, above, .single unit⟩
  | @tail middle last earlier continues ih =>
      have reaches : Reaches grammar before middle := earlier.to_reflTransGen
      have consistentMiddle := consistent.reaches conflictFree reaches
      have shrinks := (consistent.shape_reaches conflictFree reaches).1
      have onward := (consistentMiddle.shape_reaches conflictFree (.single continues)).1
      have small := consistent.size_reaches conflictFree reaches
      have smaller := consistentMiddle.size_step conflictFree continues
      simp only [size] at small smaller
      obtain ⟨kept, frame, top, rest, below, above, units⟩ := ih (by omega) (by omega)
      obtain ⟨keptAgain, other, final, others, between, ending, unit⟩ :=
        consistentMiddle.unitStep conflictFree continues (by omega) (by omega)
      obtain ⟨rfl, rfl⟩ := List.cons.inj (above.symm.trans between)
      have sameLookahead : middle.lookahead grammar = before.lookahead grammar := by
        rw [lookahead, kept, lookahead]
      rw [sameLookahead] at unit
      exact ⟨keptAgain.trans kept, frame, final, rest, below, ending, .tail units unit⟩

theorem Consistent.onUnitCycle_of_recurs (consistent : Consistent grammar before)
    (recurs : Recurs grammar before) : before.OnUnitCycle grammar := by
  obtain ⟨_, frame, top, rest, below, above, units⟩ :=
    consistent.unitSteps conflictFree recurs rfl rfl
  obtain ⟨rfl, _⟩ := List.cons.inj (below.symm.trans above)
  exact ⟨frame, rest, below, units⟩

/-- The driver takes each unit reduction that the table offers. -/
theorem Consistent.step_of_unitStep {frame : Frame} {rest : List Frame} {input : List Symbol}
    (consistent : Consistent grammar ⟨frame :: rest, input⟩) {symbol : Symbol}
    (unit : grammar.UnitStep (topState rest) (input.head?.getD grammar.endMarker)
      frame.symbol symbol) :
    ∃ state, Step grammar ⟨frame :: rest, input⟩ ⟨⟨symbol, state⟩ :: rest, input⟩ := by
  obtain ⟨next, index, entered, action, found⟩ := unit
  obtain rfl := Option.some.inj (consistent.linked.1.symm.trans entered)
  have decided : (⟨frame :: rest, input⟩ : Configuration).move grammar grammar.table =
      .reduce index := by
    have cell : grammar.table.action (topState (frame :: rest))
        ((⟨frame :: rest, input⟩ : Configuration).lookahead grammar) = some (.reduce index) :=
      action
    rw [move, cell]
  have outcome := moves_or_ends conflictFree consistent.linked consistent.readable
  rw [decided] at outcome
  rcases outcome with ⟨reached, moves⟩ | accepts | refuses
  · have continues := moves.next conflictFree consistent.readable
    cases moves with
    | @reduce _ _ _ state rule _ again _ _ _ =>
        obtain rfl := Option.some.inj (again.symm.trans found)
        exact ⟨state, continues⟩
  · cases accepts
  · cases refuses

theorem Consistent.steps_of_unitSteps {frame : Frame} {rest : List Frame} {input : List Symbol}
    (consistent : Consistent grammar ⟨frame :: rest, input⟩) {symbol : Symbol}
    (units : Relation.TransGen
      (grammar.UnitStep (topState rest) (input.head?.getD grammar.endMarker))
      frame.symbol symbol) :
    ∃ state, Relation.TransGen (Step grammar) ⟨frame :: rest, input⟩
      ⟨⟨symbol, state⟩ :: rest, input⟩ := by
  induction units with
  | single unit =>
      obtain ⟨state, continues⟩ := consistent.step_of_unitStep conflictFree unit
      exact ⟨state, .single continues⟩
  | tail _ unit ih =>
      obtain ⟨middle, steps⟩ := ih
      have consistentMiddle := consistent.reaches conflictFree steps.to_reflTransGen
      obtain ⟨state, continues⟩ := consistentMiddle.step_of_unitStep conflictFree unit
      exact ⟨state, .tail steps continues⟩

/-- A configuration recurs exactly when it lies on a cycle of unit reductions. -/
theorem Consistent.recurs_iff (consistent : Consistent grammar before) :
    Recurs grammar before ↔ before.OnUnitCycle grammar := by
  refine ⟨consistent.onUnitCycle_of_recurs conflictFree, ?_⟩
  obtain ⟨stack, input⟩ := before
  intro given
  obtain ⟨frame, rest, rfl, cycle⟩ := given
  obtain ⟨state, steps⟩ := consistent.steps_of_unitSteps conflictFree cycle
  have entered := consistent.linked.1
  have again := (consistent.reaches conflictFree steps.to_reflTransGen).linked.1
  have sameState : frame.state = state := Option.some.inj (entered.symm.trans again)
  rw [← sameState] at steps
  exact steps

/-- A run is endless exactly when it comes to a cycle of unit reductions. -/
theorem endless_iff {terminals : List Symbol}
    (terminal : ∀ symbol ∈ terminals, grammar.isTerminal symbol = true) :
    Endless grammar (.initial terminals) ↔
      ∃ between, Reaches grammar (.initial terminals) between ∧ between.OnUnitCycle grammar := by
  have consistent := consistent_initial terminal
  rw [endless_iff_not_halts]
  constructor
  · intro never
    by_contra acyclic
    obtain ⟨visited, last, passes, recorded⟩ :=
      record_cases grammar (grammar.stepLimit terminals.length) (.initial terminals)
    have short := length_lt_stepLimit conflictFree terminal passes fun between reaches recurs =>
      acyclic ⟨between, reaches,
        (consistent.reaches conflictFree reaches).onUnitCycle_of_recurs conflictFree recurs⟩
    rcases recorded with ⟨ends, _⟩ | ⟨full, _⟩
    · exact never ⟨last, passes.reaches, ends⟩
    · exact Nat.ne_of_lt short full
  · rintro ⟨between, reaches, cycle⟩ halts
    have recurs := ((consistent.reaches conflictFree reaches).recurs_iff conflictFree).2 cycle
    exact recurs.not_halts (halts.of_reaches reaches)

end Configuration

end ShiftReduce
