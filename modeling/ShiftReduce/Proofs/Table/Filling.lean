/-
This file follows one cell of a table through all the entries with which the table is filled.
-/

import ShiftReduce.Table.ParseTable

namespace ShiftReduce

namespace Entry

/-- The action that an entry brings to a cell. -/
def actionAt (state : Nat) (symbol : Symbol) : Entry → Option Action
  | .goto _ _ _ => none
  | .action row column added => if row = state ∧ column = symbol then some added else none

/-- The goto that an entry brings to a nonterminal of a state. -/
def gotoAt (state : Nat) (nonterminal : Symbol) : Entry → Option Nat
  | .goto row column next => if row = state ∧ column = nonterminal then some next else none
  | .action _ _ _ => none

end Entry

section Lists

variable {α β : Type}

/-- When only one number of a list counts, only the element with that number is left. -/
theorem flatMap_zipIdx_of_ne {expand : α × Nat → List β} (place : Nat)
    (others : ∀ element number, number ≠ place → expand (element, number) = [])
    (list : List α) (start : Nat) : (list.zipIdx start).flatMap expand =
      if start ≤ place then
        (list[place - start]?.map fun element => expand (element, place)).getD []
      else [] := by
  induction list generalizing start with
  | nil => simp
  | cons first rest ih =>
      rw [List.zipIdx_cons, List.flatMap_cons, ih]
      rcases Nat.lt_trichotomy start place with before | rfl | behind
      · have later : place - start = place - (start + 1) + 1 := by omega
        rw [others first start (Nat.ne_of_lt before), if_pos (Nat.succ_le_of_lt before),
          if_pos (Nat.le_of_lt before),
          later, List.getElem?_cons_succ, List.nil_append]
      · rw [if_pos (Nat.le_refl _), if_neg (Nat.not_succ_le_self _), List.append_nil, Nat.sub_self]
        rfl
      · rw [others first start (Nat.ne_of_gt behind), if_neg (by omega), if_neg (by omega),
          List.nil_append]

/-- When only one number below a bound counts, only its result is left. -/
theorem filterMap_range_of_ne {change : Nat → Option β} (place : Nat)
    (others : ∀ number, number ≠ place → change number = none) (bound : Nat) :
    (List.range bound).filterMap change = if place < bound then (change place).toList else [] := by
  induction bound with
  | zero => rfl
  | succ bound ih =>
      rw [List.range_succ, List.filterMap_append, ih]
      rcases Nat.lt_trichotomy place bound with before | rfl | behind
      · simp [others bound (Nat.ne_of_gt before), before, Nat.lt_succ_of_lt before]
      · cases found : change place <;> simp [found]
      · have apart : ¬ place < bound + 1 := by omega
        simp [others bound (Nat.ne_of_lt behind), apart, Nat.lt_asymm behind]

/-- In a list without repetition one element counts at most once. -/
theorem filterMap_of_nodup [DecidableEq α] {list : List α} (distinct : list.Nodup) (key : α)
    (result : β) : list.filterMap (fun element => if element = key then some result else none) =
      if key ∈ list then [result] else [] := by
  induction list with
  | nil => rfl
  | cons first rest ih =>
      obtain ⟨fresh, distinct⟩ := List.nodup_cons.1 distinct
      rw [List.filterMap_cons, ih distinct]
      by_cases here : first = key
      · subst here
        simp [fresh]
      · simp [here, Ne.symm here]

theorem zipIdx_range' (start count : Nat) : (List.range' start count).zipIdx =
    (List.range' start count).map fun number => (number, number - start) := by
  refine List.ext_getElem (by simp) fun place _ _ => ?_
  simp

end Lists

/-- Rows are determined by their number and their cells. -/
theorem rows_ext {α : Type} {rows others : List (List α)} (count : rows.length = others.length)
    (cells : ∀ row column : Nat, (rows[row]?.bind fun cells => cells[column]?) =
      others[row]?.bind fun cells => cells[column]?) : rows = others := by
  refine List.ext_getElem count fun row inside otherInside => List.ext_getElem? fun column => ?_
  have cell := cells row column
  rw [List.getElem?_eq_getElem inside, List.getElem?_eq_getElem otherInside] at cell
  exact cell

/-- A grid is read by its row and then by its column. -/
theorem getElem?_grid {α : Type} (cell : Nat → Nat → α) (count first width row place : Nat) :
    (((List.range count).map fun row => (List.range' first width).map (cell row))[row]?.bind
        fun cells => cells[place]?) =
      if place < width ∧ row < count then some (cell row (first + place)) else none := by
  rw [List.getElem?_map]
  by_cases inside : row < count
  · rw [List.getElem?_range inside, Option.map_some, Option.bind_some, List.getElem?_map]
    by_cases bound : place < width
    · rw [List.getElem?_range' bound, Nat.one_mul, if_pos ⟨bound, inside⟩, Option.map_some]
    · rw [if_neg fun given => bound given.1, List.getElem?_eq_none, Option.map_none]
      rw [List.length_range']
      exact Nat.le_of_not_lt bound
  · rw [if_neg fun given => inside given.2, List.getElem?_eq_none, Option.map_none,
      Option.bind_none]
    rw [List.length_range]
    exact Nat.le_of_not_lt inside

/-- A change in one place of some rows shows in that place only. -/
theorem getElem?_modify_modify {α : Type} (rows : List (List α)) (row column : Nat)
    (change : α → α) (state place : Nat) :
    ((rows.modify row fun cells => cells.modify column change)[state]?.bind
        fun cells => cells[place]?) =
      (rows[state]?.bind fun cells => cells[place]?).map
        fun cell => if row = state ∧ column = place then change cell else cell := by
  rw [List.getElem?_modify]
  cases rows[state]? with
  | none => rfl
  | some cells =>
      by_cases here : row = state
      · simp only [here, Option.map_eq_map, Option.map_some, Option.bind_some, if_true,
          List.getElem?_modify, true_and]
      · simp only [here, Option.map_eq_map, Option.map_some, Option.bind_some, if_false,
          false_and, Option.map_id']

namespace ParseTable

variable {table : ParseTable} {state : Nat} {symbol : Symbol}

/-- The flag follows from the rows, so it cannot tell tables apart. -/
theorem ext_rows {other : ParseTable} (count : table.nonterminalCount = other.nonterminalCount)
    (actions : table.actions = other.actions) (gotos : table.gotos = other.gotos) :
    table = other := by
  have flags : table.hasConflict = other.hasConflict := by
    rw [table.hasConflict_eq, other.hasConflict_eq, actions]
  cases table
  cases other
  simp_all

def gotoCell? (table : ParseTable) (state : Nat) (nonterminal : Symbol) : Option (Option Nat) :=
  table.gotos[state]?.bind fun row => row[nonterminal]?

/-- The last goto that comes to a cell stays there. -/
def lastOf (cell : Option Nat) (gotos : List Nat) : Option Nat :=
  gotos.foldl (fun _ next => some next) cell

section Flag

variable {actions : List Action}

theorem exists_of_conflicting {cell : Option Action} (conflict : conflicting cell = true) :
    ∃ actions, cell = some (.conflict actions) := by
  obtain ⟨action, rfl, conflict⟩ := (Option.any_eq_true _ _).1 conflict
  cases action with
  | conflict actions => exact ⟨actions, rfl⟩
  | shift _ | reduce _ | accept => cases conflict

/-- A flagged table has a cell with a conflict. -/
theorem exists_conflict (flagged : table.hasConflict = true) :
    ∃ state symbol actions, table.action state symbol = some (.conflict actions) := by
  rw [table.hasConflict_eq] at flagged
  obtain ⟨row, listed, inRow⟩ := List.any_eq_true.1 flagged
  obtain ⟨cell, filled, inCell⟩ := List.any_eq_true.1 inRow
  obtain ⟨actions, rfl⟩ := exists_of_conflicting inCell
  obtain ⟨state, rowPlace⟩ := List.mem_iff_getElem?.1 listed
  obtain ⟨column, cellPlace⟩ := List.mem_iff_getElem?.1 filled
  refine ⟨state, table.nonterminalCount + column, actions, ?_⟩
  rw [action, cell?, if_neg (Nat.not_lt.2 (Nat.le_add_right _ _)), rowPlace, Option.bind_some,
    Nat.add_sub_cancel_left, cellPlace, Option.join_some]

/-- A cell with a conflict raises the flag. -/
theorem hasConflict_of_action (found : table.action state symbol = some (.conflict actions)) :
    table.hasConflict = true := by
  rw [action, Option.join_eq_some_iff, cell?] at found
  split at found
  · cases found
  · obtain ⟨row, listed, filled⟩ := Option.bind_eq_some_iff.1 found
    rw [table.hasConflict_eq]
    exact List.any_eq_true.2 ⟨row, List.mem_of_getElem? listed,
      List.any_eq_true.2 ⟨_, List.mem_of_getElem? filled, rfl⟩⟩

end Flag

section Enter

theorem nonterminalCount_enter (entry : Entry) :
    (table.enter entry).nonterminalCount = table.nonterminalCount := by
  cases entry with
  | goto row column next => rfl
  | action row column added =>
      rw [enter, enterAction]
      split <;> rfl

theorem length_actions_enter (entry : Entry) :
    (table.enter entry).actions.length = table.actions.length := by
  cases entry with
  | goto row column next => rfl
  | action row column added =>
      rw [enter, enterAction]
      split
      · rfl
      · exact List.length_modify ..

theorem gotos_enterAction (state : Nat) (symbol : Symbol) (added : Action) :
    (table.enterAction state symbol added).gotos = table.gotos := by
  rw [enterAction]
  split <;> rfl

theorem length_gotos_enter (entry : Entry) :
    (table.enter entry).gotos.length = table.gotos.length := by
  cases entry with
  | goto row column next => exact List.length_modify ..
  | action row column added => rw [enter, gotos_enterAction]

/-- An entry changes the cell to which it brings an action, and no other cell. -/
theorem cell?_enter (entry : Entry) : (table.enter entry).cell? state symbol =
    (table.cell? state symbol).map
      fun cell => Action.mergeAll cell (entry.actionAt state symbol).toList := by
  cases entry with
  | goto row column next => exact Option.map_id'.symm
  | action row column added =>
      have place : (fun cell => Action.mergeAll cell
          ((Entry.action row column added).actionAt state symbol).toList) =
          fun cell => if row = state ∧ column = symbol then merged added cell else cell := by
        funext cell
        rw [Entry.actionAt]
        split <;> rfl
      rw [place, enter, enterAction]
      by_cases outside : symbol < table.nonterminalCount
      · have none : table.cell? state symbol = none := if_pos outside
        rw [none]
        split
        · exact none
        · exact if_pos outside
      · split
        · next known =>
            have apart : ¬ (row = state ∧ column = symbol) := fun same => outside (same.2 ▸ known)
            simp only [apart, if_false, Option.map_id']
        · next known =>
            -- The subtraction is not cut off, since both symbols have columns.
            have same : column - table.nonterminalCount = symbol - table.nonterminalCount ↔
                column = symbol := by
              unfold Symbol at *
              omega
            simp only [cell?, if_neg outside, getElem?_modify_modify, same]

theorem gotoCell?_enter (entry : Entry) : (table.enter entry).gotoCell? state symbol =
    (table.gotoCell? state symbol).map
      fun cell => lastOf cell (entry.gotoAt state symbol).toList := by
  cases entry with
  | action row column added =>
      rw [gotoCell?, enter, gotos_enterAction]
      exact Option.map_id'.symm
  | goto row column next =>
      rw [gotoCell?, enter, enterGoto, getElem?_modify_modify]
      refine congrArg (fun change => Option.map change _) ?_
      funext cell
      rw [Entry.gotoAt]
      split <;> rfl

end Enter

section EnterAll

variable (entries : List Entry)

theorem nonterminalCount_enterAll :
    (table.enterAll entries).nonterminalCount = table.nonterminalCount := by
  induction entries generalizing table with
  | nil => rfl
  | cons entry rest ih => exact ih.trans (nonterminalCount_enter entry)

/-- A cell merges the actions that the entries bring to it, in their order. -/
theorem cell?_enterAll : (table.enterAll entries).cell? state symbol =
    (table.cell? state symbol).map
      fun cell => Action.mergeAll cell (entries.filterMap (Entry.actionAt state symbol)) := by
  induction entries generalizing table with
  | nil => exact Option.map_id'.symm
  | cons entry rest ih =>
      rw [enterAll, List.foldl_cons, ← enterAll, ih, cell?_enter, Option.map_map]
      refine congrArg (fun change => Option.map change _) ?_
      funext cell
      rw [Function.comp_apply, List.filterMap_cons]
      cases entry.actionAt state symbol <;> rfl

theorem gotoCell?_enterAll : (table.enterAll entries).gotoCell? state symbol =
    (table.gotoCell? state symbol).map
      fun cell => lastOf cell (entries.filterMap (Entry.gotoAt state symbol)) := by
  induction entries generalizing table with
  | nil => exact Option.map_id'.symm
  | cons entry rest ih =>
      rw [enterAll, List.foldl_cons, ← enterAll, ih, gotoCell?_enter, Option.map_map]
      refine congrArg (fun change => Option.map change _) ?_
      funext cell
      rw [Function.comp_apply, List.filterMap_cons]
      cases entry.gotoAt state symbol <;> rfl

theorem length_actions_enterAll : (table.enterAll entries).actions.length =
    table.actions.length := by
  induction entries generalizing table with
  | nil => rfl
  | cons entry rest ih => exact ih.trans (length_actions_enter entry)

theorem length_gotos_enterAll : (table.enterAll entries).gotos.length = table.gotos.length := by
  induction entries generalizing table with
  | nil => rfl
  | cons entry rest ih => exact ih.trans (length_gotos_enter entry)

end EnterAll

section Blank

variable {stateCount nonterminalCount columnCount : Nat}

/-- A blank table has an empty cell for each state and column. -/
theorem cell?_blank : (blank stateCount nonterminalCount columnCount).cell? state symbol =
    if nonterminalCount ≤ symbol ∧ symbol < nonterminalCount + columnCount ∧ state < stateCount
    then some none else none := by
  rw [cell?, blank]
  dsimp only
  simp only [List.getElem?_replicate]
  unfold Symbol at *
  grind

theorem gotoCell?_blank :
    (blank stateCount nonterminalCount columnCount).gotoCell? state symbol =
      if symbol < nonterminalCount ∧ state < stateCount then some none else none := by
  rw [gotoCell?, blank]
  dsimp only
  simp only [List.getElem?_replicate]
  grind

end Blank

end ParseTable

end ShiftReduce
