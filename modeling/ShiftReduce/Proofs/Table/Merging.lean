/-
This file tells which actions a cell holds after actions were merged into it one after the other.
-/

import Mathlib.Data.List.Nodup
import ShiftReduce.Table.Action

namespace ShiftReduce

theorem eq_singleton_of_mem {α : Type} {list : List α} {element : α} (listed : element ∈ list)
    (few : list.length < 2) : list = [element] := by
  obtain ⟨only, rfl⟩ := List.length_eq_one_iff.1
    (Nat.le_antisymm (Nat.le_of_lt_succ few) (List.length_pos_of_mem listed))
  rw [List.mem_singleton.1 listed]

theorem exists_two {α : Type} {list : List α} (several : 2 ≤ list.length) :
    ∃ first second rest, list = first :: second :: rest := by
  cases list with
  | nil => exact absurd several (by simp)
  | cons first rest =>
      cases rest with
      | nil => exact absurd several (by simp)
      | cons second rest => exact ⟨first, second, rest, rfl⟩

/-- A list without repetition consists of first occurrences. -/
theorem eraseDups_of_nodup {α : Type} [DecidableEq α] {list : List α} (distinct : list.Nodup) :
    list.eraseDups = list := by
  induction list with
  | nil => rfl
  | cons first rest ih =>
      obtain ⟨fresh, distinct⟩ := List.nodup_cons.1 distinct
      have others : rest.filter (fun element => !element == first) = rest :=
        List.filter_eq_self.2 fun element inside => by
          have different : element ≠ first := fun same => fresh (same ▸ inside)
          simpa using different
      rw [List.eraseDups_cons, others, ih distinct]

theorem nodup_eraseDups {α : Type} [DecidableEq α] (list : List α) : list.eraseDups.Nodup := by
  induction length : list.length using Nat.strongRecOn generalizing list with
  | ind count ih =>
      cases list with
      | nil => simp
      | cons first rest =>
          have shorter := List.length_filter_le (fun element => !element == first) rest
          rw [List.length_cons] at length
          rw [List.eraseDups_cons, List.nodup_cons]
          exact ⟨by simp, ih _ (by omega) _ rfl⟩

namespace Action

/-- A conflict has the actions that it lists, and any other action has only itself. -/
def members : Action → List Action
  | .conflict actions => actions
  | action => [action]

/-- Of the actions that come, conflicts are new, and those that no present one is the same as. -/
def newcomers (present : List Action) : List Action → List Action
  | [] => []
  | added :: rest =>
      if added.isConflict || !present.any (·.sameAs added) then
        added :: newcomers (present ++ [added]) rest
      else newcomers present rest

/-- A cell holds nothing, the only action that comes to it, or the conflict of all of them. -/
def cellOf : List Action → Option Action
  | [] => none
  | [action] => some action
  | actions => some (.conflict actions)

variable {present added first second cell : Action} {actions rest : List Action}

section Sameness

theorem sameAs_iff : present.sameAs added = true ↔
    present = added ∧ present.isConflict = false := by
  cases present <;> cases added <;> simp [sameAs, isConflict]

theorem sameAs_comm (present added : Action) : present.sameAs added = added.sameAs present := by
  rw [Bool.eq_iff_iff, sameAs_iff, sameAs_iff]
  grind

/-- An action that is no conflict is known when it is present itself. -/
theorem any_sameAs (single : added.isConflict = false) :
    (actions.any (·.sameAs added)) = true ↔ added ∈ actions := by
  rw [List.any_eq_true]
  constructor
  · rintro ⟨present, listed, same⟩
    exact (sameAs_iff.1 same).1 ▸ listed
  · exact fun listed => ⟨added, listed, sameAs_iff.2 ⟨rfl, single⟩⟩

/-- A conflict is never known. -/
theorem any_sameAs_of_isConflict (conflict : added.isConflict = true) :
    (actions.any (·.sameAs added)) = false := by
  rw [List.any_eq_false]
  intro present _ same
  obtain ⟨rfl, single⟩ := sameAs_iff.1 same
  simp [conflict] at single

end Sameness

section Merge

theorem members_of_single (single : present.isConflict = false) : present.members = [present] := by
  cases present <;> simp_all [members, isConflict]

theorem merge_of_single (single : present.isConflict = false) (added : Action) :
    merge (some present) added =
      if present.sameAs added then present else .conflict [present, added] := by
  cases present <;> simp_all [merge, isConflict]

theorem newcomers_singleton (present : List Action) (added : Action) :
    newcomers present [added] = if present.any (·.sameAs added) then [] else [added] := by
  cases conflict : added.isConflict with
  | true => simp [newcomers, conflict, any_sameAs_of_isConflict conflict]
  | false => cases known : present.any (·.sameAs added) <;> simp [newcomers, conflict, known]

theorem newcomers_cons (present : List Action) (added : Action) (rest : List Action) :
    newcomers present (added :: rest) = newcomers present [added] ++
      newcomers (present ++ newcomers present [added]) rest := by
  simp only [newcomers]
  split <;> simp

/-- Nothing is new when each action is the same as a present one. -/
theorem newcomers_eq_nil_iff : newcomers actions rest = [] ↔
    ∀ added ∈ rest, actions.any (·.sameAs added) = true := by
  induction rest with
  | nil => simp [newcomers]
  | cons first rest ih =>
      rw [newcomers_cons, newcomers_singleton, List.forall_mem_cons, ← ih]
      cases known : actions.any (·.sameAs first) <;> simp

/-- The merged action joins the members of the cell when it is new. -/
theorem members_merge (present added : Action) : (merge (some present) added).members =
    present.members ++ newcomers present.members [added] := by
  rw [newcomers_singleton]
  cases conflict : present.isConflict with
  | false =>
      rw [merge_of_single conflict, members_of_single conflict]
      simp only [List.any_cons, List.any_nil, Bool.or_false]
      split
      · rw [members_of_single conflict, List.append_nil]
      · rfl
  | true =>
      cases present with
      | conflict actions =>
          cases known : actions.any (·.sameAs added) <;> simp only [merge, members, known] <;> simp
      | shift _ | reduce _ | accept => cases conflict

/-- A cell stays without a conflict while the same action comes again. -/
theorem isConflict_merge_eq_false_iff : (merge (some present) added).isConflict = false ↔
    present.isConflict = false ∧ added.sameAs present = true := by
  cases conflict : present.isConflict with
  | true => simp [isConflict_merge conflict]
  | false =>
      rw [merge_of_single conflict, sameAs_comm]
      split <;> simp_all [isConflict]

theorem merge_of_sameAs (same : added.sameAs present = true) :
    merge (some present) added = present := by
  rw [sameAs_comm] at same
  rw [merge_of_single (sameAs_iff.1 same).2, if_pos same]

end Merge

section Cells

/-- A filled cell holds the only action that comes to it, or it lists several. -/
theorem cases_of_cellOf (filled : cellOf actions = some cell) :
    actions = [cell] ∨ (2 ≤ actions.length ∧ cell = .conflict actions) := by
  cases actions with
  | nil => cases filled
  | cons first rest =>
      cases rest with
      | nil => exact .inl (congrArg ([·]) (Option.some.inj filled))
      | cons second rest => exact .inr ⟨Nat.le_add_left 2 _, (Option.some.inj filled).symm⟩

/-- A cell with two or more actions holds all of them. -/
theorem cellOf_of_two (several : 2 ≤ actions.length) :
    cellOf actions = some (.conflict actions) := by
  obtain ⟨first, second, rest, rfl⟩ := exists_two several
  rfl

/-- A cell without a conflict holds the only action that comes to it. -/
theorem cellOf_eq_some_iff (single : cell.isConflict = false) :
    cellOf actions = some cell ↔ actions = [cell] := by
  constructor
  · intro filled
    rcases cases_of_cellOf filled with only | ⟨_, rfl⟩
    · exact only
    · cases single
  · rintro rfl
    rfl

/-- A cell shows a conflict when at least two actions come to it, and then it lists all of them. -/
theorem cellOf_eq_conflict_iff (single : ∀ action ∈ actions, action.isConflict = false)
    {listed : List Action} :
    cellOf actions = some (.conflict listed) ↔ 2 ≤ actions.length ∧ actions = listed := by
  constructor
  · intro filled
    rcases cases_of_cellOf filled with rfl | ⟨several, same⟩
    · cases single _ List.mem_cons_self
    · exact ⟨several, (conflict.inj same).symm⟩
  · rintro ⟨several, rfl⟩
    exact cellOf_of_two several

/-- A filled cell has the actions that came to it as its members. -/
theorem members_of_cellOf (single : ∀ action ∈ actions, action.isConflict = false)
    (filled : cellOf actions = some cell) : cell.members = actions := by
  rcases cases_of_cellOf filled with rfl | ⟨_, rfl⟩
  · exact members_of_single (single cell List.mem_cons_self)
  · rfl

theorem two_le_length_iff (distinct : actions.Nodup) :
    2 ≤ actions.length ↔ ∃ first ∈ actions, ∃ second ∈ actions, first ≠ second := by
  constructor
  · intro several
    obtain ⟨first, second, rest, rfl⟩ := exists_two several
    refine ⟨first, by simp, second, by simp, fun same => ?_⟩
    exact (List.nodup_cons.1 distinct).1 (same ▸ List.mem_cons_self)
  · rintro ⟨first, firstListed, second, secondListed, different⟩
    refine Nat.le_of_not_lt fun few => ?_
    rw [eq_singleton_of_mem firstListed few, List.mem_singleton] at secondListed
    exact different secondListed.symm

end Cells

section Run

/-- A filled cell takes in the newcomers and keeps what it has. -/
theorem exists_mergeAll_some (present : Action) (added : List Action) :
    ∃ cell, mergeAll (some present) added = some cell ∧
      cell.members = present.members ++ newcomers present.members added ∧
      (cell.isConflict = false ↔
        present.isConflict = false ∧ ∀ action ∈ added, action.sameAs present = true) := by
  induction added generalizing present with
  | nil => exact ⟨present, rfl, by simp [newcomers], by simp⟩
  | cons first rest ih =>
      obtain ⟨cell, merged, members, single⟩ := ih (merge (some present) first)
      refine ⟨cell, merged, ?_, ?_⟩
      · rw [members, members_merge, newcomers_cons present.members first rest, List.append_assoc]
      · rw [single, isConflict_merge_eq_false_iff, List.forall_mem_cons]
        constructor
        · rintro ⟨⟨plain, same⟩, later⟩
          rw [merge_of_sameAs same] at later
          exact ⟨plain, same, later⟩
        · rintro ⟨plain, same, later⟩
          rw [merge_of_sameAs same]
          exact ⟨⟨plain, same⟩, later⟩

end Run

section Singles

/-- Of actions that are no conflicts, those are new that are not present and occur first. -/
theorem newcomers_of_single (single : ∀ action ∈ rest, action.isConflict = false)
    (present : List Action) : newcomers present rest = (rest.removeAll present).eraseDups := by
  induction rest generalizing present with
  | nil => simp [newcomers]
  | cons first rest ih =>
      rw [List.forall_mem_cons] at single
      rw [newcomers_cons, newcomers_singleton, ih single.2]
      by_cases known : first ∈ present
      · simp [(any_sameAs single.1).2 known, List.removeAll, known]
      · have unknown : present.any (·.sameAs first) = false := by
          rw [Bool.eq_false_iff, Ne, any_sameAs single.1]
          exact known
        simp [unknown, List.removeAll, known, List.eraseDups_cons, List.filter_filter,
          beq_eq_decide, Bool.and_comm]

/-- Actions that are no conflicts leave their first occurrences in a cell. -/
theorem mergeAll_of_single (single : ∀ action ∈ actions, action.isConflict = false) :
    mergeAll none actions = cellOf actions.eraseDups := by
  cases actions with
  | nil => rfl
  | cons first rest =>
      rw [List.forall_mem_cons] at single
      obtain ⟨cell, merged, members, alone⟩ := exists_mergeAll_some first rest
      have occurrences : (first :: rest).eraseDups = first :: newcomers [first] rest := by
        rw [newcomers_of_single single.2]
        simp [List.eraseDups_cons, List.removeAll, beq_eq_decide]
      rw [members_of_single single.1, List.singleton_append, ← occurrences] at members
      change mergeAll (some first) rest = _
      rw [merged]
      cases others : newcomers [first] rest with
      | nil =>
          have same : ∀ action ∈ rest, action.sameAs first = true := fun action inside => by
            simpa [sameAs_comm] using newcomers_eq_nil_iff.1 others action inside
          rw [← members, members_of_single (alone.2 ⟨single.1, same⟩), cellOf]
      | cons second later =>
          rw [occurrences, others] at members ⊢
          cases cell with
          | shift _ | reduce _ | accept => cases members
          | conflict listed =>
              obtain rfl : listed = _ := members
              rfl

/-- Different actions that come to an empty cell all stay in it. -/
theorem mergeAll_none (distinct : actions.Nodup)
    (single : ∀ action ∈ actions, action.isConflict = false) :
    mergeAll none actions = cellOf actions := by
  rw [mergeAll_of_single single, eraseDups_of_nodup distinct]

end Singles

/--
Whatever comes to an empty cell, its members are those of the first action and behind them, in
order, the later actions that are conflicts or not the same as a member present when they come. The
cell is no conflict exactly when the first action is none and all others are the same as that. Of
actions without conflicts the cell holds the only one or lists the first occurrences of several, no
two of which are the same, and the same actions in another order or number make the same members.
-/
theorem mergeAll_exact (first : Action) (rest : List Action) :
    ∃ cell, mergeAll none (first :: rest) = some cell ∧
      cell.members = first.members ++ newcomers first.members rest ∧
      (cell.isConflict = false ↔
        first.isConflict = false ∧ ∀ action ∈ rest, action.sameAs first = true) ∧
      ((∀ action ∈ first :: rest, action.isConflict = false) →
        ((first :: rest).eraseDups = [cell] ∨
          (2 ≤ (first :: rest).eraseDups.length ∧
            cell = .conflict (first :: rest).eraseDups)) ∧
        (first :: rest).eraseDups.Pairwise (fun action other => action.sameAs other = false) ∧
        ∀ others, (∀ action, action ∈ others ↔ action ∈ first :: rest) →
          ∃ other, mergeAll none others = some other ∧
            ∀ action, action ∈ other.members ↔ action ∈ cell.members) := by
  obtain ⟨cell, merged, members, alone⟩ := exists_mergeAll_some first rest
  refine ⟨cell, merged, members, alone, fun single => ?_⟩
  have filled : cellOf (first :: rest).eraseDups = some cell := by
    rw [← mergeAll_of_single single]
    exact merged
  have kept {actions : List Action} (same : ∀ action, action ∈ actions ↔ action ∈ first :: rest) :
      ∀ action ∈ actions.eraseDups, action.isConflict = false := fun action inside =>
    single action ((same action).1 (List.mem_eraseDups.1 inside))
  refine ⟨cases_of_cellOf filled, ?_, fun others same => ?_⟩
  · refine (nodup_eraseDups (first :: rest)).imp fun {action other} different => ?_
    rw [Bool.eq_false_iff, Ne, sameAs_iff]
    exact fun same => different same.1
  · cases others with
    | nil => exact absurd ((same first).2 List.mem_cons_self) List.not_mem_nil
    | cons second later =>
        obtain ⟨other, again, _⟩ := exists_mergeAll_some second later
        have refilled : cellOf (second :: later).eraseDups = some other := by
          rw [← mergeAll_of_single fun action inside => single action ((same action).1 inside)]
          exact again
        refine ⟨other, again, fun action => ?_⟩
        rw [members_of_cellOf (kept same) refilled, members_of_cellOf (kept fun _ => .rfl) filled,
          List.mem_eraseDups, List.mem_eraseDups, same]

/-- An action that comes again adds nothing, and the order of two actions does not matter. -/
theorem mergeAll_exact_repeated : ∃ cell,
    mergeAll none [.shift 1, .reduce 2, .shift 1] = some cell ∧
      cell.members = [.shift 1, .reduce 2] ∧
      ∃ other, mergeAll none [.reduce 2, .shift 1] = some other ∧
        ∀ action, action ∈ other.members ↔ action ∈ cell.members := by
  obtain ⟨cell, merged, members, _, singles⟩ := mergeAll_exact (.shift 1) [.reduce 2, .shift 1]
  obtain ⟨_, _, reordered⟩ := singles (by decide)
  refine ⟨cell, merged, members.trans (by decide), reordered [.reduce 2, .shift 1] ?_⟩
  simp only [List.mem_cons, List.not_mem_nil]
  grind

end Action

end ShiftReduce
