/-
This file builds the canonical collection of item sets.
-/

import ShiftReduce.Items.Closure

namespace ShiftReduce

/-- The position of an item set in its collection is the number of its state. -/
structure Collection where
  states : List ItemSet

namespace Collection

def size (collection : Collection) : Nat :=
  collection.states.length

/-- The order of the elements does not matter, and an empty set is never a state. -/
def find (collection : Collection) (target : ItemSet) : Option Nat :=
  if target.isEmpty then none else collection.states.findIdx? (· == target)

theorem find_congr {collection : Collection} {first second : ItemSet}
    (same : ∀ item, item ∈ first ↔ item ∈ second) :
    collection.find first = collection.find second := by
  have occupied : first.isEmpty = second.isEmpty := by
    rw [Bool.eq_iff_iff, OrderedSet.isEmpty, OrderedSet.isEmpty, List.isEmpty_iff, List.isEmpty_iff,
      List.eq_nil_iff_forall_not_mem, List.eq_nil_iff_forall_not_mem]
    exact forall_congr' fun item => not_congr (same item)
  have tested (items : ItemSet) : (items == first) = (items == second) := by
    rw [Bool.eq_iff_iff, OrderedSet.beq_eq_true, OrderedSet.beq_eq_true]
    simp only [same]
  rw [find, find, occupied, funext tested]

end Collection

namespace Grammar

/-- A target joins the known states unless it is empty or equal to one of them as a set. -/
def addTarget (grammar : Grammar) (source : ItemSet) (known : List ItemSet) (symbol : Symbol) :
    List ItemSet :=
  let target := grammar.goto source symbol
  if target.isEmpty || known.any (· == target) then known else known ++ [target]

/-- The targets of a state are tried in the order of the symbols, the end marker excepted. -/
def addTargets (grammar : Grammar) (known : List ItemSet) (source : ItemSet) : List ItemSet :=
  (List.range grammar.endMarker).foldl (grammar.addTarget source) known

/-- The states from the given position on still have to add their targets. -/
def collectFrom (grammar : Grammar) : Nat → Nat → List ItemSet → List ItemSet
  | 0, _, known => known
  | fuel + 1, position, known =>
      match known[position]? with
      | none => known
      | some source => collectFrom grammar fuel (position + 1) (grammar.addTargets known source)

/-- A rule has one item for each place of the dot. -/
def itemCount (grammar : Grammar) : Nat :=
  grammar.rules.foldr (fun rule count => rule.rhs.length + 1 + count) 0

def startState (grammar : Grammar) : ItemSet :=
  grammar.closure (.ofList [⟨0, 0⟩])

/-- There are no more states than sets of items, so every state is reached. -/
def collection (grammar : Grammar) : Collection :=
  ⟨grammar.collectFrom (Nat.pow 2 grammar.itemCount) 0 [grammar.startState]⟩

end Grammar

end ShiftReduce
