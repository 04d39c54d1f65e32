/-
This file carries items and states along isomorphisms of grammars.
-/

import Mathlib.Data.Fintype.Card
import ShiftReduce.Proofs.Grammar.Isomorphism
import ShiftReduce.Proofs.Items.Canonical

namespace ShiftReduce.Grammar.Isomorphism

variable {source target : Grammar} (iso : Isomorphism source target)

/-- The dot keeps its place in the corresponding rule. -/
def item (item : Item) : Item :=
  ⟨iso.rules item.rule, item.dot⟩

/-- The items of one set correspond to the items of the other one. -/
def Corresponds (items others : ItemSet) : Prop :=
  ∀ item, iso.item item ∈ others ↔ item ∈ items

@[simp] theorem symm_item (item : Item) : iso.symm.item (iso.item item) = item := by
  simp [Isomorphism.item]

@[simp] theorem item_symm (item : Item) : iso.item (iso.symm.item item) = item := by
  simp [Isomorphism.item]

theorem item_eq_iff {first second : Item} : iso.item first = iso.item second ↔ first = second := by
  constructor
  · intro same
    simpa using congrArg iso.symm.item same
  · exact congrArg iso.item

@[simp] theorem item_start : iso.item ⟨0, 0⟩ = ⟨0, 0⟩ := by
  simp [Isomorphism.item]

section Items

variable {item called : Item} {items others : ItemSet} {symbol : Symbol}

theorem nextSymbol_item (item : Item) :
    target.nextSymbol (iso.item item) = (source.nextSymbol item).map iso.symbols := by
  rw [nextSymbol, nextSymbol, Isomorphism.item, iso.rule_eq]
  cases source.rules[item.rule]? <;> simp [Rule.rename]

theorem isComplete_item (item : Item) :
    target.isComplete (iso.item item) = source.isComplete item := by
  rw [isComplete, isComplete, Isomorphism.item, iso.rule_eq]
  cases source.rules[item.rule]? <;> simp [Rule.rename]

theorem mem_calledItems (calls : called ∈ source.calledItems item) :
    iso.item called ∈ target.calledItems (iso.item item) := by
  obtain ⟨rule, found, reads, start⟩ := Grammar.mem_calledItems.1 calls
  refine Grammar.mem_calledItems.2 ⟨_, iso.rule_some found, ?_, start⟩
  rw [iso.nextSymbol_item, reads]
  rfl

theorem mem_closure (kept : ∀ item ∈ items, iso.item item ∈ others)
    (member : item ∈ source.closure items) : iso.item item ∈ target.closure others := by
  have called := Grammar.mem_closure.1 member
  clear member
  induction called with
  | seed inside => exact Grammar.mem_closure.2 (.seed (kept _ inside))
  | call _ calls ih =>
      exact Grammar.mem_closure.2 (.call (Grammar.mem_closure.1 ih) (iso.mem_calledItems calls))

theorem mem_advanced (kept : ∀ item ∈ items, iso.item item ∈ others)
    (member : item ∈ source.advanced items symbol) :
    iso.item item ∈ target.advanced others (iso.symbols symbol) := by
  obtain ⟨reader, inside, reads, rfl⟩ := Grammar.mem_advanced.1 member
  refine Grammar.mem_advanced.2 ⟨iso.item reader, kept reader inside, ?_, rfl⟩
  rw [iso.nextSymbol_item, reads]
  rfl

variable {iso}

theorem Corresponds.symm (same : iso.Corresponds items others) :
    iso.symm.Corresponds others items := by
  intro item
  simpa using (same (iso.symm.item item)).symm

theorem Corresponds.closure (same : iso.Corresponds items others) :
    iso.Corresponds (source.closure items) (target.closure others) := by
  intro item
  constructor
  · intro member
    simpa using iso.symm.mem_closure (fun other => (same.symm other).2) member
  · exact iso.mem_closure fun other => (same other).2

theorem Corresponds.advanced (same : iso.Corresponds items others) :
    iso.Corresponds (source.advanced items symbol)
      (target.advanced others (iso.symbols symbol)) := by
  intro item
  constructor
  · intro member
    simpa using iso.symm.mem_advanced (fun other => (same.symm other).2) member
  · exact iso.mem_advanced fun other => (same other).2

theorem Corresponds.goto (same : iso.Corresponds items others) (symbol : Symbol) :
    iso.Corresponds (source.goto items symbol) (target.goto others (iso.symbols symbol)) :=
  same.advanced.closure

variable (iso)

theorem corresponds_startState : iso.Corresponds source.startState target.startState := by
  apply Corresponds.closure
  intro item
  rw [OrderedSet.mem_ofList, OrderedSet.mem_ofList, List.mem_singleton, List.mem_singleton]
  conv_lhs => rw [← iso.item_start, iso.item_eq_iff]

end Items

section States

variable {items : ItemSet} {state other next : Nat} {symbol : Symbol} {item : Item}

/-- Each state corresponds to a state of the other grammar. -/
theorem exists_state (listed : items ∈ source.collection.states) :
    ∃ others ∈ target.collection.states, iso.Corresponds items others := by
  have occupied := occupied_states listed
  revert items
  apply forall_mem_states fun items => (∃ item, item ∈ items) →
    ∃ others ∈ target.collection.states, iso.Corresponds items others
  · exact fun _ => ⟨_, List.mem_of_getElem? getElem?_states_zero, iso.corresponds_startState⟩
  · intro items symbol earlier occupied
    obtain ⟨item, member⟩ := occupied
    obtain ⟨reader, inside, _⟩ := exists_read_of_mem_goto member
    obtain ⟨others, listed, same⟩ := earlier ⟨reader, inside⟩
    have moved := (same.goto symbol item).2 member
    obtain ⟨state, found⟩ := exists_find_goto listed moved
    obtain ⟨_, reached, placed, equal⟩ := find_eq_some_iff.1 found
    refine ⟨reached, List.mem_of_getElem? placed, fun other => ?_⟩
    rw [equal]
    exact same.goto symbol other

include iso

/-- Different states correspond to different states. -/
theorem size_le : source.collection.size ≤ target.collection.size := by
  have each (state : Fin source.collection.size) : ∃ other : Fin target.collection.size,
      iso.Corresponds source.collection.states[state] target.collection.states[other] := by
    obtain ⟨others, listed, same⟩ := iso.exists_state (List.getElem_mem state.isLt)
    obtain ⟨other, bound, rfl⟩ := List.mem_iff_getElem.1 listed
    exact ⟨⟨other, bound⟩, same⟩
  choose image corresponds using each
  have injective : Function.Injective image := by
    intro first second equal
    apply Fin.ext
    apply eq_of_same_items (List.getElem?_eq_getElem first.isLt)
      (List.getElem?_eq_getElem second.isLt)
    intro item
    have left := corresponds first item
    have right := corresponds second item
    rw [equal] at left
    exact left.symm.trans right
  simpa using Fintype.card_le_of_injective image injective

theorem size_eq : source.collection.size = target.collection.size :=
  Nat.le_antisymm iso.size_le iso.symm.size_le

end States

end ShiftReduce.Grammar.Isomorphism
