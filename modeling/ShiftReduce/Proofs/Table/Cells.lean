/-
This file states which actions and gotos the cells of a parse table hold.
-/

import ShiftReduce.CompiledGrammar
import ShiftReduce.Proofs.Lookahead.Origins
import ShiftReduce.Proofs.Table.Derived
import ShiftReduce.Proofs.Table.Filling

namespace ShiftReduce

namespace Grammar

/-- The table of a grammar belongs to its canonical collection. -/
def table (grammar : Grammar) : ParseTable :=
  grammar.parseTable grammar.collection

variable {grammar : Grammar} {item : Item} {state : Nat} {symbol : Symbol} {action : Action}

section Entries

/-- The lookaheads agree with FOLLOW up to the order of the symbols. -/
def Agrees (grammar : Grammar) (lookaheads : Symbol → OrderedSet Symbol) : Prop :=
  ∀ symbol found, found ∈ lookaheads symbol ↔ found ∈ grammar.follow symbol

theorem toList_eq_singleton {set : OrderedSet Symbol} {element : Symbol}
    (only : ∀ found, found ∈ set ↔ found = element) : set.toList = [element] := by
  have permuted : set.toList.Perm [element] :=
    (List.perm_ext_iff_of_nodup set.nodup (List.nodup_singleton element)).2 fun found => by
      rw [List.mem_singleton]
      exact only found
  exact List.perm_singleton.1 permuted

variable {lookaheads : Symbol → OrderedSet Symbol} (agrees : grammar.Agrees lookaheads)

include agrees

/-- The entries of an item bring its completion to the cell, whatever the order of lookaheads. -/
theorem actionsAt_completionEntries :
    (grammar.completionEntries lookaheads state item).filterMap (Entry.actionAt state symbol) =
      (grammar.completion symbol item).toList := by
  rw [completionEntries, completion]
  cases found : grammar.rules[item.rule]? with
  | none => rfl
  | some rule =>
      dsimp only
      by_cases added : item.rule = 0
      · rw [added, grammar.rules_zero, Option.some.injEq] at found
        have only : (lookaheads rule.lhs).toList = [grammar.endMarker] := by
          refine toList_eq_singleton fun symbol => ?_
          rw [agrees, ← found, mem_follow_zero]
        rw [only, List.map_singleton, if_pos added, if_pos added]
        by_cases finished : symbol = grammar.endMarker
        · simp [Entry.actionAt, finished]
        · simp [Entry.actionAt, finished, Ne.symm finished]
      · have brings : (fun place => Entry.actionAt state symbol
            (if item.rule = 0 then .action state grammar.endMarker .accept
              else .action state place (.reduce item.rule))) =
            fun place => if place = symbol then some (Action.reduce item.rule) else none := by
          funext place
          rw [if_neg added, Entry.actionAt]
          simp only [true_and]
        rw [List.filterMap_map, Function.comp_def, brings,
          filterMap_of_nodup (lookaheads rule.lhs).nodup, if_neg added]
        have known : symbol ∈ (lookaheads rule.lhs).toList ↔ symbol ∈ grammar.follow rule.lhs :=
          OrderedSet.mem_toList.trans (agrees _ _)
        by_cases follows : symbol ∈ grammar.follow rule.lhs
        · rw [if_pos (known.2 follows), if_pos follows, Option.toList_some]
        · rw [if_neg fun inside => follows (known.1 inside), if_neg follows, Option.toList_none]

omit agrees

theorem exists_of_mem_completionEntries {entry : Entry}
    (inside : entry ∈ grammar.completionEntries lookaheads state item) :
    ∃ symbol action, entry = .action state symbol action := by
  rw [completionEntries] at inside
  split at inside
  · exact absurd inside List.not_mem_nil
  · obtain ⟨symbol, _, rfl⟩ := List.mem_map.1 inside
    split
    · exact ⟨_, _, rfl⟩
    · exact ⟨_, _, rfl⟩

/-- The entries of a state stay in its own row. -/
theorem at_other_row {β : Type} {brought : Entry → Option β} {row : Nat} {items : ItemSet}
    (gotos : ∀ symbol next, brought (.goto row symbol next) = none)
    (actions : ∀ symbol action, brought (.action row symbol action) = none) :
    (grammar.stateEntries lookaheads grammar.collection row items).filterMap brought = [] := by
  rw [List.filterMap_eq_nil_iff]
  intro entry listed
  rcases List.mem_append.1 listed with transits | completes
  · obtain ⟨symbol, _, entered⟩ := List.mem_filterMap.1 transits
    obtain ⟨next, _, rfl⟩ := Option.map_eq_some_iff.1 entered
    rw [transitionEntry]
    split
    · exact gotos _ _
    · exact actions _ _
  · obtain ⟨item, _, inside⟩ := List.mem_flatMap.1 completes
    obtain ⟨symbol, action, rfl⟩ := exists_of_mem_completionEntries inside
    exact actions symbol action

/-- Only the row of a state matters for what the entries bring to it. -/
theorem filterMap_tableEntries {β : Type} {brought : Entry → Option β}
    (gotos : ∀ row symbol next, row ≠ state → brought (.goto row symbol next) = none)
    (actions : ∀ row symbol action, row ≠ state → brought (.action row symbol action) = none) :
    (grammar.tableEntries lookaheads grammar.collection).filterMap brought =
      (grammar.collection.states[state]?.map fun items =>
        (grammar.stateEntries lookaheads grammar.collection state items).filterMap brought).getD
          [] := by
  rw [tableEntries, List.filterMap_flatMap, flatMap_zipIdx_of_ne state ?_,
    if_pos (Nat.zero_le _), Nat.sub_zero]
  intro items row apart
  exact at_other_row (fun symbol next => gotos row symbol next apart)
    fun symbol action => actions row symbol action apart

/-- Only the transition on a symbol brings something to the cell of the symbol. -/
theorem filterMap_transitionEntries {β : Type} {brought : Entry → Option β} {result : Nat → β}
    (brings : ∀ place next, brought (grammar.transitionEntry state place next) =
      if place = symbol then some (result next) else none) :
    (grammar.transitionEntries grammar.collection state (grammar.stateItems state)).filterMap
        brought = (grammar.transition state symbol).toList.map result := by
  rw [transitionEntries, List.filterMap_filterMap, filterMap_range_of_ne symbol ?_]
  · change (if symbol < grammar.endMarker then
      (((grammar.transition state symbol).map (grammar.transitionEntry state symbol)).bind
        brought).toList else []) = _
    cases moves : grammar.transition state symbol with
    | none => simp
    | some next => simp [brings, lt_endMarker_of_transition moves]
  · intro place apart
    rw [Option.bind_map]
    refine Option.bind_eq_none_iff.2 fun next _ => ?_
    rw [Function.comp_apply, brings, if_neg apart]

/-- A state shifts a terminal along its transition. -/
theorem actionsAt_transitionEntries (lower : grammar.nonterminalCount ≤ symbol) :
    (grammar.transitionEntries grammar.collection state (grammar.stateItems state)).filterMap
        (Entry.actionAt state symbol) =
      (grammar.transition state symbol).toList.map .shift := by
  refine filterMap_transitionEntries fun place next => ?_
  rw [transitionEntry]
  split
  · next nonterminal =>
      have apart : place ≠ symbol := Nat.ne_of_lt (Nat.lt_of_lt_of_le nonterminal lower)
      rw [if_neg apart, Entry.actionAt]
  · simp [Entry.actionAt]

/-- A state goes on from a nonterminal along its transition. -/
theorem gotosAt_transitionEntries (nonterminal : symbol < grammar.nonterminalCount) :
    (grammar.transitionEntries grammar.collection state (grammar.stateItems state)).filterMap
        (Entry.gotoAt state symbol) = (grammar.transition state symbol).toList := by
  rw [filterMap_transitionEntries, List.map_id]
  intro place next
  rw [transitionEntry]
  split
  · simp [Entry.gotoAt]
  · next terminal =>
      have apart : place ≠ symbol := fun same => terminal (same ▸ nonterminal)
      rw [if_neg apart, Entry.gotoAt]

end Entries

section Lookup

theorem transition_eq_none (unknown : grammar.collection.states[state]? = none) :
    grammar.transition state symbol = none := by
  have empty : grammar.stateItems state = .empty := by rw [stateItems, unknown, Option.getD_none]
  cases moves : grammar.transition state symbol with
  | none => rfl
  | some next =>
      obtain ⟨_, member, _⟩ := exists_reader moves
      rw [empty] at member
      exact absurd member List.not_mem_nil

theorem derivedActions_eq_nil (unknown : grammar.collection.states[state]? = none) :
    grammar.derivedActions state symbol = [] := by
  rw [derivedActions, transition_eq_none unknown, stateItems, unknown]
  rfl

variable {lookaheads : Symbol → OrderedSet Symbol}

/-- The entries bring the derived actions to a cell, whatever the order of the lookaheads. -/
theorem actionsAt_tableEntries (agrees : grammar.Agrees lookaheads)
    (lower : grammar.nonterminalCount ≤ symbol) :
    (grammar.tableEntries lookaheads grammar.collection).filterMap (Entry.actionAt state symbol) =
      grammar.derivedActions state symbol := by
  rw [filterMap_tableEntries (fun _ _ _ _ => rfl)
    fun _ _ _ apart => if_neg fun same => apart same.1]
  cases found : grammar.collection.states[state]? with
  | none => rw [derivedActions_eq_nil found, Option.map_none, Option.getD_none]
  | some items =>
      have located := stateItems_of_getElem? found
      rw [Option.map_some, Option.getD_some, ← located, stateEntries, List.filterMap_append,
        actionsAt_transitionEntries lower, derivedActions, List.filterMap_flatMap]
      simp only [actionsAt_completionEntries agrees, List.filterMap_eq_flatMap_toList]

theorem gotosAt_tableEntries (nonterminal : symbol < grammar.nonterminalCount) :
    (grammar.tableEntries lookaheads grammar.collection).filterMap (Entry.gotoAt state symbol) =
      (grammar.transition state symbol).toList := by
  rw [filterMap_tableEntries (fun _ _ _ apart => if_neg fun same => apart same.1)
    fun _ _ _ _ => rfl]
  cases found : grammar.collection.states[state]? with
  | none => rw [transition_eq_none found, Option.map_none, Option.getD_none, Option.toList_none]
  | some items =>
      have completes : ((items.toList.filter grammar.isComplete).flatMap
          (grammar.completionEntries lookaheads state)).filterMap (Entry.gotoAt state symbol) =
            [] := by
        rw [List.filterMap_eq_nil_iff]
        intro entry listed
        obtain ⟨item, _, inside⟩ := List.mem_flatMap.1 listed
        obtain ⟨place, action, rfl⟩ := exists_of_mem_completionEntries inside
        rfl
      have located := stateItems_of_getElem? found
      rw [Option.map_some, Option.getD_some, stateEntries, List.filterMap_append, completes,
        List.append_nil, ← located, gotosAt_transitionEntries nonterminal]

/-- There is one cell for each state and for each symbol with a column. -/
theorem cell?_tableWith (agrees : grammar.Agrees lookaheads) :
    (grammar.tableWith lookaheads grammar.collection).cell? state symbol =
      if grammar.HasColumn symbol ∧ state < grammar.collection.size then
        some (Action.cellOf (grammar.derivedActions state symbol))
      else none := by
  have lower : grammar.nonterminalCount ≤ grammar.vocabulary.size := by
    rw [size_eq_endMarker_succ]
    exact Nat.le_succ_of_le grammar.nonterminalCount_le_endMarker
  have shape : grammar.nonterminalCount +
      (grammar.vocabulary.size - grammar.nonterminalCount) = grammar.vocabulary.size :=
    Nat.add_sub_cancel' lower
  rw [tableWith, ParseTable.cell?_enterAll, ParseTable.cell?_blank, shape]
  by_cases inside : grammar.HasColumn symbol ∧ state < grammar.collection.size
  · obtain ⟨column, bound⟩ := inside
    rw [if_pos ⟨column.1, column.2, bound⟩, if_pos ⟨column, bound⟩, Option.map_some,
      actionsAt_tableEntries agrees column.1, Action.mergeAll_none
        (grammar.nodup_derivedActions state symbol) fun _ => isConflict_of_derived]
  · rw [if_neg inside, if_neg fun given => inside ⟨⟨given.1, given.2.1⟩, given.2.2⟩,
      Option.map_none]

theorem gotoCell?_tableWith :
    (grammar.tableWith lookaheads grammar.collection).gotoCell? state symbol =
      if symbol < grammar.nonterminalCount ∧ state < grammar.collection.size then
        some (grammar.transition state symbol)
      else none := by
  rw [tableWith, ParseTable.gotoCell?_enterAll, ParseTable.gotoCell?_blank]
  split
  · next inside =>
      rw [Option.map_some, gotosAt_tableEntries inside.1]
      cases grammar.transition state symbol <;> rfl
  · rfl

theorem agrees_follow (grammar : Grammar) : grammar.Agrees grammar.follow :=
  fun _ _ => Iff.rfl

/-- A cell holds the derived actions of its state and symbol. -/
theorem action_eq_cellOf (column : grammar.HasColumn symbol) :
    grammar.table.action state symbol = Action.cellOf (grammar.derivedActions state symbol) := by
  rw [table, parseTable, ParseTable.action, cell?_tableWith grammar.agrees_follow]
  split
  · rfl
  · next outside =>
      have unknown : grammar.collection.states[state]? = none :=
        List.getElem?_eq_none (Nat.le_of_not_lt fun bound => outside ⟨column, bound⟩)
      rw [derivedActions_eq_nil unknown]
      rfl

/-- Only terminals and the end marker have a column. -/
theorem column_of_action (found : grammar.table.action state symbol = some action) :
    grammar.HasColumn symbol := by
  rw [table, parseTable, ParseTable.action, cell?_tableWith grammar.agrees_follow] at found
  split at found
  · next inside => exact inside.1
  · cases found

variable (conflictFree : grammar.table.hasConflict = false)

include conflictFree

theorem isConflict_eq_false (found : grammar.table.action state symbol = some action) :
    action.isConflict = false := by
  cases action with
  | conflict actions =>
      have flagged := ParseTable.hasConflict_of_action found
      rw [conflictFree] at flagged
      cases flagged
  | shift _ | reduce _ | accept => rfl

/-- Without conflicts an action that is derived for a cell is the only one. -/
theorem derivedActions_eq_singleton (column : grammar.HasColumn symbol)
    (listed : action ∈ grammar.derivedActions state symbol) :
    grammar.derivedActions state symbol = [action] := by
  refine eq_singleton_of_mem listed (Nat.lt_of_not_le fun several => ?_)
  have found : grammar.table.action state symbol = _ := action_eq_cellOf column
  rw [Action.cellOf_of_two several] at found
  cases isConflict_eq_false conflictFree found

/-- Without conflicts a cell holds an action exactly when the action is derived for it. -/
theorem action_eq_some_iff : grammar.table.action state symbol = some action ↔
    grammar.HasColumn symbol ∧ action ∈ grammar.derivedActions state symbol := by
  constructor
  · intro found
    have column := column_of_action found
    have single := isConflict_eq_false conflictFree found
    rw [action_eq_cellOf column, Action.cellOf_eq_some_iff single] at found
    exact ⟨column, found ▸ List.mem_singleton_self action⟩
  · intro given
    obtain ⟨column, listed⟩ := given
    rw [action_eq_cellOf column, derivedActions_eq_singleton conflictFree column listed,
      Action.cellOf]

/-- Two actions that are derived for one cell agree when there is no conflict. -/
theorem derivedActions_unique (column : grammar.HasColumn symbol) {other : Action}
    (first : action ∈ grammar.derivedActions state symbol)
    (second : other ∈ grammar.derivedActions state symbol) : action = other := by
  rw [derivedActions_eq_singleton conflictFree column first, List.mem_singleton] at second
  exact second.symm

omit conflictFree

/-- The goto of a nonterminal is its transition. -/
theorem goto_eq_transition (nonterminal : symbol < grammar.nonterminalCount) :
    grammar.table.goto state symbol = grammar.transition state symbol := by
  change (grammar.table.gotoCell? state symbol).join = _
  rw [table, parseTable, gotoCell?_tableWith]
  split
  · rfl
  · next outside =>
      have unknown : grammar.collection.states[state]? = none :=
        List.getElem?_eq_none (Nat.le_of_not_lt fun bound => outside ⟨nonterminal, bound⟩)
      rw [transition_eq_none unknown]
      rfl

end Lookup

end Grammar

theorem CompiledGrammar.table_eq_table (compiled : CompiledGrammar) :
    compiled.table = compiled.grammar.table := by
  rw [compiled.table_eq, compiled.collection_eq]
  rfl

end ShiftReduce
