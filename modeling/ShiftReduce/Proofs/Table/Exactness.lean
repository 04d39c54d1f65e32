/-
This file describes the whole table of a grammar, its conflicts and its flag.
-/

import ShiftReduce.Proofs.Table.Cells

namespace ShiftReduce

namespace Action

theorem conflictAt_cellOf {actions : List Action} {state : Nat} {symbol : Symbol}
    (single : ∀ action ∈ actions, action.isConflict = false) :
    ParseTable.conflictAt state symbol (cellOf actions) =
      if 2 ≤ actions.length then some ⟨state, symbol, actions⟩ else none := by
  split
  · next several => rw [cellOf_of_two several, ParseTable.conflictAt]
  · next few =>
      rw [ParseTable.conflictAt.eq_def]
      split
      · next listed cell => exact absurd ((cellOf_eq_conflict_iff single).1 cell).1 few
      · rfl

end Action

namespace Grammar

variable {grammar : Grammar} {state : Nat} {symbol : Symbol}

/-- A state leads to the one that has the items of its goto set, unless that set is empty. -/
def LeadsTo (grammar : Grammar) (state : Nat) (symbol : Symbol) (next : Nat) : Prop :=
  (∃ item, item ∈ grammar.goto (grammar.stateItems state) symbol) ∧
    ∃ items, grammar.collection.states[next]? = some items ∧
      ∀ item, item ∈ items ↔ item ∈ grammar.goto (grammar.stateItems state) symbol

theorem transition_eq_some_iff {next : Nat} :
    grammar.transition state symbol = some next ↔ grammar.LeadsTo state symbol next :=
  find_eq_some_iff

/-- No item reads the end marker. -/
theorem transition_endMarker : grammar.transition state grammar.endMarker = none := by
  cases moves : grammar.transition state grammar.endMarker with
  | none => rfl
  | some next => exact absurd (lt_endMarker_of_transition moves) (Nat.lt_irrefl _)

section Whole

variable {lookaheads : Symbol → OrderedSet Symbol}

/-- A table has one row of actions for each state. -/
theorem stateCount_tableWith (lookaheads : Symbol → OrderedSet Symbol) (collection : Collection) :
    (grammar.tableWith lookaheads collection).stateCount = collection.size := by
  rw [ParseTable.stateCount, tableWith, ParseTable.length_actions_enterAll, ParseTable.blank,
    List.length_replicate]

/-- The rows hold the derived actions of each state for each terminal and the end marker. -/
theorem actions_tableWith (agrees : grammar.Agrees lookaheads) :
    (grammar.tableWith lookaheads grammar.collection).actions =
      (List.range grammar.collection.size).map fun state =>
        grammar.vocabulary.terminalsAndEnd.map fun symbol =>
          Action.cellOf (grammar.derivedActions state symbol) := by
  have count : (grammar.tableWith lookaheads grammar.collection).actions.length =
      grammar.collection.size := stateCount_tableWith lookaheads grammar.collection
  refine rows_ext (by rw [count, List.length_map, List.length_range]) fun state column => ?_
  have cell : (grammar.tableWith lookaheads grammar.collection).cell? state
      (grammar.nonterminalCount + column) = _ := cell?_tableWith agrees
  have width : (grammar.tableWith lookaheads grammar.collection).nonterminalCount =
      grammar.nonterminalCount := ParseTable.nonterminalCount_enterAll _
  rw [ParseTable.cell?, width, if_neg (Nat.not_lt.2 (Nat.le_add_right _ _)),
    Nat.add_sub_cancel_left] at cell
  have known : grammar.HasColumn (grammar.nonterminalCount + column) ↔
      column < grammar.vocabulary.size - grammar.nonterminalCount := by
    rw [HasColumn]
    unfold Symbol at *
    omega
  rw [cell, Vocabulary.terminalsAndEnd, getElem?_grid]
  simp only [known]

theorem gotos_tableWith : (grammar.tableWith lookaheads grammar.collection).gotos =
    (List.range grammar.collection.size).map fun state =>
      grammar.vocabulary.nonterminals.map (grammar.transition state) := by
  have count : (grammar.tableWith lookaheads grammar.collection).gotos.length =
      grammar.collection.size := by
    rw [tableWith, ParseTable.length_gotos_enterAll, ParseTable.blank, List.length_replicate]
  refine rows_ext (by rw [count, List.length_map, List.length_range]) fun state place => ?_
  have cell : (grammar.tableWith lookaheads grammar.collection).gotoCell? state place = _ :=
    gotoCell?_tableWith
  rw [ParseTable.gotoCell?] at cell
  rw [cell, Vocabulary.nonterminals, List.range_eq_range', getElem?_grid, Nat.zero_add]

/-- The table does not depend on the order of the lookaheads. -/
theorem tableWith_eq_table (agrees : grammar.Agrees lookaheads) :
    grammar.tableWith lookaheads grammar.collection = grammar.table := by
  have width (lookaheads : Symbol → OrderedSet Symbol) :
      (grammar.tableWith lookaheads grammar.collection).nonterminalCount =
        grammar.nonterminalCount := ParseTable.nonterminalCount_enterAll _
  refine ParseTable.ext_rows ?_ ?_ ?_
  · rw [table, parseTable, width, width]
  · rw [table, parseTable, actions_tableWith agrees, actions_tableWith grammar.agrees_follow]
  · rw [table, parseTable, gotos_tableWith, gotos_tableWith]

/-- The conflict cells are those with at least two derived actions. -/
theorem conflicts_table : grammar.table.conflicts =
    (List.range grammar.collection.size).flatMap fun state =>
      grammar.vocabulary.terminalsAndEnd.filterMap fun symbol =>
        if 2 ≤ (grammar.derivedActions state symbol).length then
          some ⟨state, symbol, grammar.derivedActions state symbol⟩
        else none := by
  have rows : grammar.table.actions = _ := actions_tableWith grammar.agrees_follow
  have width : grammar.table.nonterminalCount = grammar.nonterminalCount :=
    ParseTable.nonterminalCount_enterAll _
  rw [ParseTable.conflicts, rows, width, List.zipIdx_map, List.range_eq_range', zipIdx_range']
  simp only [List.flatMap_map, List.filterMap_map, List.zipIdx_map, zipIdx_range', Prod.map, id,
    Vocabulary.terminalsAndEnd, Nat.sub_zero, Function.comp_def]
  refine congrArg List.flatten (List.map_congr_left fun state _ => ?_)
  refine List.filterMap_congr fun symbol listed => ?_
  have lower := (List.mem_range'_1.1 listed).1
  rw [Nat.add_sub_cancel' lower]
  exact Action.conflictAt_cellOf fun _ => isConflict_of_derived

end Whole

/-- The flag is up exactly when two different actions are derived for some cell. -/
theorem hasConflict_table : grammar.table.hasConflict = true ↔
    ∃ state symbol, grammar.HasColumn symbol ∧
      ∃ first ∈ grammar.derivedActions state symbol,
        ∃ second ∈ grammar.derivedActions state symbol, first ≠ second := by
  constructor
  · intro flagged
    obtain ⟨state, symbol, actions, found⟩ := ParseTable.exists_conflict flagged
    have column := column_of_action found
    rw [action_eq_cellOf column,
      Action.cellOf_eq_conflict_iff fun _ => isConflict_of_derived] at found
    exact ⟨state, symbol, column,
      (Action.two_le_length_iff (grammar.nodup_derivedActions state symbol)).1 found.1⟩
  · intro given
    obtain ⟨state, symbol, column, different⟩ := given
    have several :=
      (Action.two_le_length_iff (grammar.nodup_derivedActions state symbol)).2 different
    have found : grammar.table.action state symbol = _ := action_eq_cellOf column
    rw [Action.cellOf_of_two several] at found
    exact ParseTable.hasConflict_of_action found

end Grammar

/--
A goto leads to the state of the goto set. A cell holds what its state derives for its symbol: a
shift along the goto set first, and then what the complete items do, in their order. Two or more
derived actions make a conflict cell that lists each of them once, the flag is up exactly when there
is such a cell, and these cells are enumerated state by state and symbol by symbol. Lookaheads in
another order give the same table.
-/
theorem CompiledGrammar.table_exact (compiled : CompiledGrammar) :
    (∀ state symbol next, compiled.grammar.transition state symbol = some next ↔
      compiled.grammar.LeadsTo state symbol next) ∧
    (∀ state, compiled.grammar.transition state compiled.grammar.endMarker = none) ∧
    (∀ state symbol next, compiled.grammar.isNonterminal symbol = true →
      (compiled.table.goto state symbol = some next ↔
        compiled.grammar.LeadsTo state symbol next)) ∧
    (∀ state symbol, compiled.grammar.HasColumn symbol →
      compiled.table.action state symbol =
        Action.cellOf (compiled.grammar.derivedActions state symbol)) ∧
    (∀ state symbol, (compiled.grammar.derivedActions state symbol).Nodup) ∧
    (compiled.hasConflict = true ↔ ∃ state symbol, compiled.grammar.HasColumn symbol ∧
      ∃ first ∈ compiled.grammar.derivedActions state symbol,
        ∃ second ∈ compiled.grammar.derivedActions state symbol, first ≠ second) ∧
    (compiled.table.conflicts = (List.range compiled.collection.size).flatMap fun state =>
      compiled.grammar.vocabulary.terminalsAndEnd.filterMap fun symbol =>
        if 2 ≤ (compiled.grammar.derivedActions state symbol).length then
          some ⟨state, symbol, compiled.grammar.derivedActions state symbol⟩
        else none) ∧
    ∀ lookaheads : Symbol → OrderedSet Symbol,
      (∀ symbol found, found ∈ lookaheads symbol ↔ found ∈ compiled.grammar.follow symbol) →
        compiled.grammar.tableWith lookaheads compiled.collection = compiled.table := by
  rw [hasConflict, table_eq_table, collection_eq]
  refine ⟨?_, ?_, ?_, ?_, ?_, Grammar.hasConflict_table, Grammar.conflicts_table, ?_⟩
  · exact fun state symbol next => Grammar.transition_eq_some_iff
  · exact fun state => Grammar.transition_endMarker
  · intro state symbol next nonterminal
    rw [Grammar.goto_eq_transition (compiled.grammar.isNonterminal_iff.1 nonterminal)]
    exact Grammar.transition_eq_some_iff
  · exact fun state symbol column => Grammar.action_eq_cellOf column
  · exact compiled.grammar.nodup_derivedActions
  · exact fun lookaheads agrees => Grammar.tableWith_eq_table agrees

/-- Behind a sum the table can go on with the next sum or reduce this one. -/
theorem CompiledGrammar.table_exact_sum :
    ∃ compiled, ofText "E E + E\nE a" = .ok compiled ∧ compiled.hasConflict = true ∧
      compiled.table.action 4 2 = some (.conflict [.shift 3, .reduce 1]) := by
  obtain ⟨compiled, compiles, evaluated⟩ := exists_of_ofText "E E + E\nE a"
    (fun compiled => decide (compiled.grammar.HasColumn 2 ∧
      compiled.grammar.derivedActions 4 2 = [.shift 3, .reduce 1]))
    (by decide +kernel)
  obtain ⟨column, derived⟩ := of_decide_eq_true evaluated
  obtain ⟨_, _, _, cells, _, flag, _⟩ := table_exact compiled
  refine ⟨compiled, compiles, flag.2 ⟨4, 2, column, ?_⟩, ?_⟩
  · rw [derived]
    exact ⟨.shift 3, by simp, .reduce 1, by simp, by simp⟩
  · rw [cells 4 2 column, derived]
    rfl

end ShiftReduce
