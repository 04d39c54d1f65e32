/-
This file completes a set of items with the items that its nonterminals call for.
-/

import ShiftReduce.Items.Item

namespace ShiftReduce.Grammar

/-- An item with the dot before a nonterminal calls for every rule of it. -/
def calledItems (grammar : Grammar) (item : Item) : List Item :=
  match grammar.nextSymbol item with
  | none => []
  | some symbol =>
      if grammar.isNonterminal symbol then
        (grammar.ruleIndicesFor symbol).map fun index => ⟨index, 0⟩
      else []

def initialItems (grammar : Grammar) : List Item :=
  (List.range grammar.rules.length).map fun index => ⟨index, 0⟩

theorem calledItems_subset (grammar : Grammar) (item : Item) :
    grammar.calledItems item ⊆ grammar.initialItems := by
  unfold calledItems
  split
  · exact List.nil_subset _
  · split
    · intro called member
      obtain ⟨index, listed, rfl⟩ := List.mem_map.1 member
      obtain ⟨numbered, kept, rfl⟩ := List.mem_map.1 listed
      have found := List.mem_zipIdx' (List.mem_filter.1 kept).1
      exact List.mem_map.2 ⟨numbered.2, List.mem_range.2 found.1, rfl⟩
    · exact List.nil_subset _

/-- These are the initial items that a set still lacks. -/
def missingItems (grammar : Grammar) (items : ItemSet) : List Item :=
  grammar.initialItems.filter fun item => !items.contains item

theorem missingItems_insert {grammar : Grammar} {item : Item}
    (initial : item ∈ grammar.initialItems) (items : ItemSet) :
    (grammar.missingItems (items.insert item)).length + (items.insert item).size ≤
      (grammar.missingItems items).length + items.size := by
  by_cases present : item ∈ items.toList
  · simp [OrderedSet.insert, present]
  · have split : grammar.missingItems (items.insert item) =
        (grammar.missingItems items).filter fun other => other ≠ item := by
      simp only [missingItems, List.filter_filter]
      refine List.filter_congr fun other _ => ?_
      by_cases same : other = item <;> by_cases known : other ∈ items <;>
        simp [OrderedSet.contains, OrderedSet.mem_insert, same, known]
    have lacking : item ∈ grammar.missingItems items :=
      List.mem_filter.2 ⟨initial, by simpa [OrderedSet.contains, ← OrderedSet.mem_toList]⟩
    have fewer : ((grammar.missingItems items).filter fun other => other ≠ item).length <
        (grammar.missingItems items).length :=
      List.length_filter_lt_length_iff_exists.2 ⟨item, lacking, by simp⟩
    have larger : (items.insert item).size = items.size + 1 := by
      simp [OrderedSet.insert, OrderedSet.size, present]
    rw [split, larger]
    omega

theorem missingItems_insertAll {grammar : Grammar} {added : List Item}
    (initial : added ⊆ grammar.initialItems) (items : ItemSet) :
    (grammar.missingItems (items.insertAll added)).length + (items.insertAll added).size ≤
      (grammar.missingItems items).length + items.size := by
  induction added generalizing items with
  | nil => exact Nat.le_refl _
  | cons item rest inductionHypothesis =>
      have known := List.cons_subset.1 initial
      exact Nat.le_trans (inductionHypothesis known.2 (items.insert item))
        (missingItems_insert known.1 items)

/-- The items from the given position on still have to add what they call for. -/
def closeFrom (grammar : Grammar) (items : ItemSet) (position : Nat) : ItemSet :=
  match _ : items.toList[position]? with
  | none => items
  | some item => closeFrom grammar (items.insertAll (grammar.calledItems item)) (position + 1)
termination_by (grammar.missingItems items).length + (items.size - position)
decreasing_by
  rename_i found
  have inside : position < items.size := (List.getElem?_eq_some_iff.1 found).1
  have bounded := missingItems_insertAll (grammar.calledItems_subset item) items
  have grown := items.size_le_insertAll (grammar.calledItems item)
  omega

/-- The closure keeps the given items in front and adds the called ones as they are discovered. -/
def closure (grammar : Grammar) (items : ItemSet) : ItemSet :=
  grammar.closeFrom items 0

/-- These are the items that can read the symbol, with the dot behind it. -/
def advanced (grammar : Grammar) (items : ItemSet) (symbol : Symbol) : ItemSet :=
  .ofList ((items.toList.filter fun item => grammar.nextSymbol item == some symbol).map
    fun item => { item with dot := item.dot + 1 })

/-- An empty result means that no item can read the symbol. -/
def goto (grammar : Grammar) (items : ItemSet) (symbol : Symbol) : ItemSet :=
  grammar.closure (grammar.advanced items symbol)

end ShiftReduce.Grammar
