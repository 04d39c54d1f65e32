/-
This file shows that isomorphic grammars have conflicts together.
-/

import ShiftReduce.Proofs.Items.Isomorphism
import ShiftReduce.Proofs.Table.Exactness

namespace ShiftReduce.Grammar.Isomorphism

variable {source target : Grammar} (iso : Isomorphism source target)

/-- Shifts correspond by the items of their states, and reductions by their rules. -/
inductive Image : Action → Action → Prop
  | shift {state other : Nat} (occupied : ∃ item, item ∈ source.stateItems state)
      (same : iso.Corresponds (source.stateItems state) (target.stateItems other)) :
      Image (.shift state) (.shift other)
  | reduce (index : Nat) : Image (.reduce index) (.reduce (iso.rules index))
  | accept : Image .accept .accept

variable {iso} {state other next : Nat} {symbol : Symbol} {item : Item}
  {action first second image : Action}

theorem exists_stateItems (iso : Isomorphism source target)
    (member : item ∈ source.stateItems state) :
    ∃ other, iso.Corresponds (source.stateItems state) (target.stateItems other) := by
  obtain ⟨others, listed, same⟩ := iso.exists_state (stateItems_mem_states member)
  obtain ⟨other, found⟩ := List.mem_iff_getElem?.1 listed
  exact ⟨other, by rwa [stateItems_of_getElem? found]⟩

/-- A state with a member is known by the state that it corresponds to. -/
theorem eq_of_corresponds (member : item ∈ source.stateItems state)
    (one : iso.Corresponds (source.stateItems state) (target.stateItems other))
    (two : iso.Corresponds (source.stateItems next) (target.stateItems other)) : state = next := by
  have same (item : Item) : item ∈ source.stateItems state ↔ item ∈ source.stateItems next :=
    (one item).symm.trans (two item)
  exact eq_of_same_items (getElem?_of_mem_stateItems member)
    (getElem?_of_mem_stateItems ((same item).1 member)) same

theorem Image.eq (one : iso.Image first image) (two : iso.Image second image) :
    first = second := by
  cases one with
  | shift occupied same =>
      cases two with
      | shift _ again =>
          obtain ⟨item, member⟩ := occupied
          rw [eq_of_corresponds member same again]
  | reduce index =>
      generalize reduced : Action.reduce (iso.rules index) = image at two
      cases two with
      | reduce other => rw [iso.rules.injective (Action.reduce.inj reduced)]
      | shift _ _ => cases reduced
      | accept => cases reduced
  | accept =>
      cases two with
      | accept => rfl

section Cells

variable (same : iso.Corresponds (source.stateItems state) (target.stateItems other))

include same

theorem exists_transition (moves : source.transition state symbol = some next) :
    ∃ image, target.transition other (iso.symbols symbol) = some image ∧
      iso.Corresponds (source.stateItems next) (target.stateItems image) := by
  obtain ⟨reader, inside, reads⟩ := exists_reader moves
  have moved : target.nextSymbol (iso.item reader) = some (iso.symbols symbol) := by
    rw [iso.nextSymbol_item, reads, Option.map_some]
  obtain ⟨image, leads⟩ := Grammar.exists_transition ((same reader).2 inside) moved
  refine ⟨image, leads, fun item => ?_⟩
  rw [mem_stateItems_of_transition leads, mem_stateItems_of_transition moves]
  exact same.goto symbol item

/-- Corresponding states derive corresponding actions for corresponding symbols. -/
theorem exists_image (listed : action ∈ source.derivedActions state symbol) :
    ∃ image ∈ target.derivedActions other (iso.symbols symbol), iso.Image action image := by
  rcases mem_derivedActions.1 listed with ⟨next, moves, rfl⟩ | ⟨item, member, complete, completes⟩
  · obtain ⟨image, leads, corresponds⟩ := exists_transition same moves
    have occupied : ∃ item, item ∈ source.stateItems next := by
      obtain ⟨⟨item, member⟩, _⟩ := transition_eq_some_iff.1 moves
      exact ⟨item, (mem_stateItems_of_transition moves).2 member⟩
    exact ⟨_, shift_mem_derivedActions.2 leads, .shift occupied corresponds⟩
  · have inside := (same item).2 member
    have ended : target.isComplete (iso.item item) = true := by rwa [iso.isComplete_item]
    cases completes with
    | accept added finished =>
        refine ⟨.accept, mem_derivedActions.2 (.inr ⟨_, inside, ended, ?_⟩), .accept⟩
        exact .accept (by simp [Isomorphism.item, added]) (by simp [finished])
    | reduce later found follows =>
        refine ⟨.reduce (iso.rules item.rule),
          mem_derivedActions.2 (.inr ⟨_, inside, ended, ?_⟩), .reduce item.rule⟩
        refine .reduce ?_ (iso.rule_some found) (iso.mem_follow follows)
        rw [Isomorphism.item, ← iso.rules_zero, Ne, iso.rules.apply_eq_iff_eq]
        exact later

end Cells

/-- A conflict of one grammar shows up in the other one. -/
theorem hasConflict_of (iso : Isomorphism source target)
    (conflicting : source.table.hasConflict = true) : target.table.hasConflict = true := by
  obtain ⟨state, symbol, column, first, firstListed, second, secondListed, different⟩ :=
    hasConflict_table.1 conflicting
  obtain ⟨item, member⟩ := exists_item_of_derived firstListed
  obtain ⟨other, same⟩ := iso.exists_stateItems member
  obtain ⟨firstImage, firstDerived, one⟩ := exists_image same firstListed
  obtain ⟨secondImage, secondDerived, two⟩ := exists_image same secondListed
  refine hasConflict_table.2 ⟨other, iso.symbols symbol, iso.hasColumn_iff.2 column,
    firstImage, firstDerived, secondImage, secondDerived, ?_⟩
  rintro rfl
  exact different (one.eq two)

theorem hasConflict_eq (iso : Isomorphism source target) :
    source.table.hasConflict = target.table.hasConflict := by
  rw [Bool.eq_iff_iff]
  exact ⟨iso.hasConflict_of, iso.symm.hasConflict_of⟩

end ShiftReduce.Grammar.Isomorphism
