/-
This file follows the table along a string and compares the states with the valid items.
-/

import ShiftReduce.Proofs.Items.ValidItems
import ShiftReduce.Proofs.Table.Exactness

namespace ShiftReduce

namespace ParseTable

/-- A table leads on along a goto or along a shift, and a conflict cell may list the shift. -/
inductive Leads (table : ParseTable) (state : Nat) (symbol : Symbol) (next : Nat) : Prop
  | goto (found : table.goto state symbol = some next)
  | shift (found : table.action state symbol = some (.shift next))
  | conflict {actions : List Action} (found : table.action state symbol = some (.conflict actions))
      (listed : .shift next ∈ actions)

/-- A table is followed from the state 0 along a string. -/
inductive LeadsAlong (table : ParseTable) : List Symbol → Nat → Prop
  | nil : LeadsAlong table [] 0
  | concat {string : List Symbol} {state next : Nat} {symbol : Symbol}
      (before : LeadsAlong table string state) (leads : table.Leads state symbol next) :
      LeadsAlong table (string ++ [symbol]) next

end ParseTable

namespace Grammar

variable {grammar : Grammar} {string : List Symbol} {state next : Nat} {symbol : Symbol}

theorem goto_eq_none (column : grammar.nonterminalCount ≤ symbol) :
    grammar.table.goto state symbol = none := by
  change (grammar.table.gotoCell? state symbol).join = _
  rw [table, parseTable, gotoCell?_tableWith,
    if_neg fun given => Nat.not_lt.2 column given.1, Option.join_none]

/-- The gotos and the shifts of the table are the transitions, in conflict cells too. -/
theorem leads_iff :
    grammar.table.Leads state symbol next ↔ grammar.transition state symbol = some next := by
  constructor
  · intro leads
    cases leads with
    | goto found =>
        rcases Nat.lt_or_ge symbol grammar.nonterminalCount with nonterminal | column
        · rwa [goto_eq_transition nonterminal] at found
        · rw [goto_eq_none column] at found
          cases found
    | shift found =>
        rw [action_eq_cellOf (column_of_action found), Action.cellOf_eq_some_iff rfl] at found
        exact shift_mem_derivedActions.1 (found ▸ List.mem_singleton_self _)
    | conflict found listed =>
        rw [action_eq_cellOf (column_of_action found),
          Action.cellOf_eq_conflict_iff fun _ => isConflict_of_derived] at found
        exact shift_mem_derivedActions.1 (found.2 ▸ listed)
  · intro moves
    rcases Nat.lt_or_ge symbol grammar.nonterminalCount with nonterminal | lower
    · exact .goto ((goto_eq_transition nonterminal).trans moves)
    · have column : grammar.HasColumn symbol := by
        refine ⟨lower, ?_⟩
        rw [size_eq_endMarker_succ]
        exact Nat.lt_succ_of_lt (lt_endMarker_of_transition moves)
      have listed := shift_mem_derivedActions.2 moves
      rcases Nat.lt_or_ge (grammar.derivedActions state symbol).length 2 with few | several
      · refine .shift ?_
        rw [action_eq_cellOf column, eq_singleton_of_mem listed few, Action.cellOf]
      · refine .conflict ?_ listed
        rw [action_eq_cellOf column, Action.cellOf_of_two several]

/-- Along a string the table leads to the state that has the items of the string. -/
theorem leadsAlong_iff : grammar.table.LeadsAlong string state ↔
    grammar.collection.find (grammar.gotoAlong string) = some state := by
  constructor
  · intro leads
    induction leads with
    | nil => exact find_gotoAlong_nil
    | concat _ leads ih =>
        rw [← transition_eq_find ih]
        exact leads_iff.1 leads
  · intro reached
    induction string using List.reverseRecOn generalizing state with
    | nil =>
        rw [find_gotoAlong_nil] at reached
        exact Option.some.inj reached ▸ .nil
    | append_singleton string symbol ih =>
        obtain ⟨⟨_, member⟩, _⟩ := find_eq_some_iff.1 reached
        rw [gotoAlong_concat] at member
        obtain ⟨_, inside, _⟩ := exists_read_of_mem_goto member
        obtain ⟨before, found⟩ := exists_find inside
        rw [← transition_eq_find found] at reached
        exact .concat (ih found) (leads_iff.2 reached)

end Grammar

/--
The items that are reached from the state 0 along a string are those that end a spine of rules
whose recognized parts make up the string. When there is such an item, exactly one state has these
items, and it is the state to which the gotos and the shifts of the table lead along the string.
-/
theorem CompiledGrammar.mem_gotoAlong_iff_spine (compiled : CompiledGrammar) :
    (∀ string item, item ∈ compiled.grammar.gotoAlong string ↔
      compiled.grammar.IsItem item ∧ ∃ callers : List Item,
        compiled.grammar.IsSpine (callers ++ [item]) ∧
          (callers ++ [item]).flatMap compiled.grammar.recognized = string) ∧
    ∀ string, (∃ item, item ∈ compiled.grammar.gotoAlong string) → ∃ state, ∀ other,
      ((∃ items, compiled.collection.states[other]? = some items ∧
        ∀ item, item ∈ items ↔ item ∈ compiled.grammar.gotoAlong string) ↔ other = state) ∧
      (compiled.table.LeadsAlong string other ↔ other = state) := by
  refine ⟨fun string item => Grammar.mem_gotoAlong_iff, ?_⟩
  intro string occupied
  obtain ⟨_, member⟩ := occupied
  obtain ⟨state, reached⟩ := Grammar.exists_find member
  have found (other : Nat) : compiled.grammar.collection.find
      (compiled.grammar.gotoAlong string) = some other ↔ other = state := by
    rw [reached, Option.some.injEq, eq_comm]
  refine ⟨state, fun other => ⟨?_, ?_⟩⟩
  · rw [← found, compiled.collection_eq, Grammar.find_eq_some_iff, and_iff_right ⟨_, member⟩]
  · rw [← found, compiled.table_eq_table, Grammar.leadsAlong_iff]

/-- Behind a list and a further element only the rule of longer lists is complete. -/
theorem CompiledGrammar.mem_gotoAlong_iff_spine_list :
    ∃ compiled, ofText "L L a\nL a" = .ok compiled ∧
      (∃ callers, compiled.grammar.IsSpine (callers ++ [⟨1, 2⟩]) ∧
        (callers ++ [⟨1, 2⟩]).flatMap compiled.grammar.recognized = [1, 2]) ∧
      ∃ state, ∀ other, compiled.table.LeadsAlong [1, 2] other ↔ other = state := by
  obtain ⟨compiled, compiles, evaluated⟩ := exists_of_ofText "L L a\nL a"
    (fun compiled => decide ((⟨1, 2⟩ : Item) ∈ compiled.grammar.gotoAlong [1, 2]))
    (by decide +kernel)
  have member := of_decide_eq_true evaluated
  obtain ⟨valid, states⟩ := mem_gotoAlong_iff_spine compiled
  obtain ⟨state, only⟩ := states [1, 2] ⟨_, member⟩
  exact ⟨compiled, compiles, ((valid _ _).1 member).2, state, fun other => (only other).2⟩

end ShiftReduce
