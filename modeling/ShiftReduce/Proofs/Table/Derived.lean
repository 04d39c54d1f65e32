/-
This file states which actions a state derives for a symbol and how a cell shows them.
-/

import ShiftReduce.Lookahead
import ShiftReduce.Proofs.Items.States
import ShiftReduce.Proofs.Table.Merging

namespace ShiftReduce

namespace Grammar

variable (grammar : Grammar)

/-- A complete item accepts at the end of the input, or it reduces on what can follow. -/
def completion (symbol : Symbol) (item : Item) : Option Action :=
  match grammar.rules[item.rule]? with
  | none => none
  | some rule =>
      if item.rule = 0 then if symbol = grammar.endMarker then some .accept else none
      else if symbol ∈ grammar.follow rule.lhs then some (.reduce item.rule) else none

/-- These are the actions that a state derives for a symbol, in the order of their entries. -/
def derivedActions (state : Nat) (symbol : Symbol) : List Action :=
  (grammar.transition state symbol).toList.map .shift ++
    ((grammar.stateItems state).toList.filter grammar.isComplete).filterMap
      (grammar.completion symbol)

/-- An item reduces or accepts on a symbol. -/
inductive Completes (item : Item) (symbol : Symbol) : Action → Prop
  | accept (added : item.rule = 0) (finished : symbol = grammar.endMarker) :
      Completes item symbol .accept
  | reduce {rule : Rule} (later : item.rule ≠ 0) (found : grammar.rules[item.rule]? = some rule)
      (follows : symbol ∈ grammar.follow rule.lhs) : Completes item symbol (.reduce item.rule)

variable {grammar} {item : Item} {state : Nat} {symbol : Symbol} {action : Action}

theorem isComplete_iff : grammar.isComplete item = true ↔
    ∃ rule, grammar.rules[item.rule]? = some rule ∧ item.dot = rule.rhs.length := by
  rw [isComplete, Option.any_eq_true]
  simp only [beq_iff_eq]

theorem completion_eq_some_iff :
    grammar.completion symbol item = some action ↔ grammar.Completes item symbol action := by
  rw [completion]
  constructor
  · intro completed
    split at completed
    · cases completed
    · next rule found =>
        split at completed
        · next added =>
            split at completed
            · next finished => exact Option.some.inj completed ▸ .accept added finished
            · cases completed
        · next later =>
            split at completed
            · next follows => exact Option.some.inj completed ▸ .reduce later found follows
            · cases completed
  · intro completes
    cases completes with
    | accept added finished =>
        have found : grammar.rules[item.rule]? = some ⟨0, [1]⟩ := added ▸ grammar.rules_zero
        rw [found]
        dsimp only
        rw [if_pos added, if_pos finished]
    | reduce later found follows =>
        rw [found]
        dsimp only
        rw [if_neg later, if_pos follows]

theorem lt_endMarker_of_transition {next : Nat}
    (moves : grammar.transition state symbol = some next) : symbol < grammar.endMarker := by
  obtain ⟨_, _, reads⟩ := exists_reader moves
  exact nextSymbol_lt_endMarker reads

/-- A state shifts along its transitions and reduces or accepts with its complete items. -/
theorem mem_derivedActions : action ∈ grammar.derivedActions state symbol ↔
    (∃ next, grammar.transition state symbol = some next ∧ action = .shift next) ∨
      ∃ item ∈ grammar.stateItems state, grammar.isComplete item = true ∧
        grammar.Completes item symbol action := by
  rw [derivedActions, List.mem_append, List.mem_map, List.mem_filterMap]
  refine or_congr ?_ ?_
  · refine exists_congr fun next => ?_
    rw [Option.mem_toList]
    exact and_congr Iff.rfl eq_comm
  · refine exists_congr fun item => ?_
    rw [List.mem_filter, completion_eq_some_iff, and_assoc, OrderedSet.mem_toList]

/-- Only a state with a member derives an action. -/
theorem exists_item_of_derived (listed : action ∈ grammar.derivedActions state symbol) :
    ∃ item, item ∈ grammar.stateItems state := by
  rcases mem_derivedActions.1 listed with ⟨next, moves, _⟩ | ⟨item, member, _, _⟩
  · obtain ⟨reader, inside, _⟩ := exists_reader moves
    exact ⟨reader, inside⟩
  · exact ⟨item, member⟩

theorem shift_mem_derivedActions {next : Nat} :
    .shift next ∈ grammar.derivedActions state symbol ↔
      grammar.transition state symbol = some next := by
  rw [mem_derivedActions]
  constructor
  · intro either
    rcases either with ⟨other, moves, same⟩ | ⟨_, _, _, completes⟩
    · exact Action.shift.inj same ▸ moves
    · cases completes
  · exact fun moves => .inl ⟨next, moves, rfl⟩

/-- A state reduces by a rule whose item is complete on what follows the left-hand side. -/
theorem reduce_mem_derivedActions {index : Nat} :
    .reduce index ∈ grammar.derivedActions state symbol ↔
      ∃ rule, index ≠ 0 ∧ grammar.rules[index]? = some rule ∧
        (⟨index, rule.rhs.length⟩ : Item) ∈ grammar.stateItems state ∧
        symbol ∈ grammar.follow rule.lhs := by
  rw [mem_derivedActions]
  constructor
  · intro either
    rcases either with ⟨_, _, same⟩ | ⟨⟨number, dot⟩, member, complete, completes⟩
    · cases same
    · cases completes with
      | @reduce rule later found follows =>
          obtain ⟨other, again, ending⟩ := isComplete_iff.1 complete
          obtain rfl := Option.some.inj (again.symm.trans found)
          exact ⟨other, later, found, ending ▸ member, follows⟩
  · intro given
    obtain ⟨rule, later, found, member, follows⟩ := given
    exact .inr ⟨_, member, isComplete_iff.2 ⟨rule, found, rfl⟩, .reduce later found follows⟩

/-- A state accepts with the complete item of the added rule at the end of the input. -/
theorem accept_mem_derivedActions : .accept ∈ grammar.derivedActions state symbol ↔
    (⟨0, 1⟩ : Item) ∈ grammar.stateItems state ∧ symbol = grammar.endMarker := by
  rw [mem_derivedActions]
  constructor
  · intro either
    rcases either with ⟨_, _, same⟩ | ⟨⟨number, dot⟩, member, complete, completes⟩
    · cases same
    · cases completes with
      | accept added finished =>
          obtain ⟨rule, found, ending⟩ := isComplete_iff.1 complete
          dsimp only at added found ending
          rw [added, grammar.rules_zero, Option.some.injEq] at found
          rw [← found] at ending
          subst added ending
          exact ⟨member, finished⟩
  · intro given
    obtain ⟨member, finished⟩ := given
    exact .inr ⟨_, member, isComplete_iff.2 ⟨_, grammar.rules_zero, rfl⟩, .accept rfl finished⟩

theorem isConflict_of_derived (listed : action ∈ grammar.derivedActions state symbol) :
    action.isConflict = false := by
  rcases mem_derivedActions.1 listed with ⟨next, _, rfl⟩ | ⟨item, _, _, completes⟩
  · rfl
  · cases completes <;> rfl

/-- A rule has one complete item, so no action is derived twice. -/
theorem nodup_derivedActions (grammar : Grammar) (state : Nat) (symbol : Symbol) :
    (grammar.derivedActions state symbol).Nodup := by
  have one : ((grammar.transition state symbol).toList.map Action.shift).Nodup := by
    cases grammar.transition state symbol <;> simp
  have apart : ∀ first ∈ (grammar.transition state symbol).toList.map Action.shift,
      ∀ second ∈ ((grammar.stateItems state).toList.filter grammar.isComplete).filterMap
        (grammar.completion symbol), first ≠ second := by
    intro first shifts second completes same
    obtain ⟨next, _, rfl⟩ := List.mem_map.1 shifts
    obtain ⟨item, _, completed⟩ := List.mem_filterMap.1 completes
    rw [← same, completion_eq_some_iff] at completed
    cases completed
  refine List.nodup_append.2 ⟨one, ?_, apart⟩
  rw [List.filterMap_filter]
  refine (grammar.stateItems state).nodup.filterMap ?_
  intro first second common inFirst inSecond
  obtain ⟨completeFirst, inFirst⟩ := Option.ite_none_right_eq_some.1 inFirst
  obtain ⟨completeSecond, inSecond⟩ := Option.ite_none_right_eq_some.1 inSecond
  have sameRule : first.rule = second.rule := by
    cases completion_eq_some_iff.1 inFirst with
    | accept added _ =>
        cases completion_eq_some_iff.1 inSecond with
        | accept again _ => rw [added, again]
    | reduce _ _ _ =>
        generalize reduced : Action.reduce first.rule = action at inSecond
        cases completion_eq_some_iff.1 inSecond with
        | accept _ _ => cases reduced
        | reduce _ _ _ => exact Action.reduce.inj reduced
  -- A complete item has its dot at the end of its rule, so the rule tells the item.
  obtain ⟨rule, found, ending⟩ := isComplete_iff.1 completeFirst
  obtain ⟨other, again, finishing⟩ := isComplete_iff.1 completeSecond
  rw [sameRule, again, Option.some.injEq] at found
  obtain ⟨_, _⟩ := first
  obtain ⟨_, _⟩ := second
  simp_all

end Grammar

end ShiftReduce
