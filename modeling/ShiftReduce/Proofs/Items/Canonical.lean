/-
This file shows that the scan for states comes to its end and what the collection then looks like.
-/

import ShiftReduce.Proofs.Table.Derived

namespace ShiftReduce.Grammar

variable (grammar : Grammar)

/-- The scan adds the targets of one state after the other until no state is left. -/
inductive Scans : Nat → List ItemSet → List ItemSet → Prop
  | done {position : Nat} {known : List ItemSet} (scanned : known[position]? = none) :
      Scans position known known
  | next {position : Nat} {known states : List ItemSet} {source : ItemSet}
      (found : known[position]? = some source)
      (rest : Scans (position + 1) (grammar.addTargets known source) states) :
      Scans position known states

/-- Each set behind the first is the target of an earlier one. -/
def Grown (known : List ItemSet) : Prop :=
  ∀ place target, known[place]? = some target → 0 < place →
    ∃ earlier < place, ∃ source, known[earlier]? = some source ∧
      ∃ symbol < grammar.endMarker, target = grammar.goto source symbol

variable {grammar}

section Scan

variable {position : Nat} {known first second : List ItemSet}

theorem Scans.unique (one : grammar.Scans position known first)
    (two : grammar.Scans position known second) : first = second := by
  induction one with
  | done scanned =>
      cases two with
      | done _ => rfl
      | next found _ => simp [scanned] at found
  | next found _ ih =>
      cases two with
      | done scanned => simp [scanned] at found
      | next again rest =>
          obtain rfl := Option.some.inj (found.symm.trans again)
          exact ih rest

end Scan

section States

variable {items : ItemSet} {item : Item} {symbol : Symbol}

theorem Grown.concat {known : List ItemSet} {position : Nat} {source : ItemSet}
    (grown : grammar.Grown known) (found : known[position]? = some source)
    (inner : symbol < grammar.endMarker) :
    grammar.Grown (known ++ [grammar.goto source symbol]) := by
  have inside := (List.getElem?_eq_some_iff.1 found).1
  have kept {place : Nat} (old : place < known.length) (added : ItemSet) :
      (known ++ [added])[place]? = known[place]? := List.getElem?_append_left old
  intro place target listed later
  by_cases old : place < known.length
  · rw [kept old] at listed
    obtain ⟨earlier, before, other, source, reached⟩ := grown place target listed later
    exact ⟨earlier, before, other, by rw [kept (before.trans old), source], reached⟩
  · -- The set at the new place is the target that was just added.
    have placed : place = known.length := by
      have := (List.getElem?_eq_some_iff.1 listed).1
      simp only [List.length_append, List.length_singleton] at this
      omega
    subst placed
    rw [List.getElem?_concat_length, Option.some.injEq] at listed
    exact ⟨position, inside, source, by rw [kept inside, found], symbol, inner, listed.symm⟩

theorem occupied_states (listed : items ∈ grammar.collection.states) : ∃ item, item ∈ items := by
  revert items
  apply collectFrom_induction
    (motive := fun known => ∀ {items : ItemSet}, items ∈ known → ∃ item, item ∈ items)
  · intro more position source symbol occupied _ _ new items listed
    rcases List.mem_append.1 listed with old | last
    · exact occupied old
    · rw [List.mem_singleton.1 last]
      exact List.isEmpty_eq_false_iff_exists_mem.1 new.1
  · intro items listed
    rw [List.mem_singleton.1 listed, ← stateItems_zero]
    exact ⟨_, startItem_mem⟩

theorem isItem_states (listed : items ∈ grammar.collection.states) (member : item ∈ items) :
    grammar.IsItem item :=
  forall_mem_states (fun items => ∀ item ∈ items, grammar.IsItem item)
    (fun _ => isItem_startState) (fun _ _ _ _ => isItem_goto) items listed item member

theorem stateItems_of_mem (listed : items ∈ grammar.collection.states) :
    ∃ state, grammar.collection.states[state]? = some items ∧ grammar.stateItems state = items := by
  obtain ⟨state, found⟩ := List.mem_iff_getElem?.1 listed
  exact ⟨state, found, stateItems_of_getElem? found⟩

/-- A target with a member is found among the states. -/
theorem exists_find_goto (listed : items ∈ grammar.collection.states)
    (member : item ∈ grammar.goto items symbol) :
    ∃ state, grammar.collection.find (grammar.goto items symbol) = some state := by
  obtain ⟨state, _, rfl⟩ := stateItems_of_mem listed
  obtain ⟨reader, inside, reads⟩ := exists_read_of_mem_goto member
  exact exists_transition inside reads

end States

end ShiftReduce.Grammar
