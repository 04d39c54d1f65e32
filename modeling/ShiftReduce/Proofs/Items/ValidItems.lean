/-
This file relates the items that are reached along a string to the spines that spell the string.
-/

import ShiftReduce.Proofs.Items.States

namespace ShiftReduce.Grammar

variable (grammar : Grammar)

/-- The goto sets are taken one after the other along a string, from the state 0 on. -/
def gotoAlong (string : List Symbol) : ItemSet :=
  string.foldl grammar.goto (grammar.stateItems 0)

/-- An item has recognized the symbols before its dot. -/
def recognized (item : Item) : List Symbol :=
  ((grammar.rules[item.rule]?).map fun rule => rule.rhs.take item.dot).getD []

/-- The dot of an item stands before the left-hand side of another item's rule. -/
def Expects (item called : Item) : Prop :=
  ∃ rule, grammar.rules[called.rule]? = some rule ∧ grammar.nextSymbol item = some rule.lhs

/-- A spine begins with the added rule, and each item expects the rule of the next one. -/
structure IsSpine (spine : List Item) : Prop where
  added : spine.head?.map Item.rule = some 0
  expected : spine.IsChain grammar.Expects

/-- An item is valid for a string when it ends a spine that has recognized the string. -/
def Valid (string : List Symbol) (item : Item) : Prop :=
  grammar.IsItem item ∧ ∃ callers : List Item, grammar.IsSpine (callers ++ [item]) ∧
    (callers ++ [item]).flatMap grammar.recognized = string

variable {grammar} {item called : Item} {string : List Symbol} {symbol : Symbol}
  {callers : List Item}

theorem gotoAlong_append (front back : List Symbol) :
    grammar.gotoAlong (front ++ back) = back.foldl grammar.goto (grammar.gotoAlong front) :=
  List.foldl_append

theorem gotoAlong_concat (string : List Symbol) (symbol : Symbol) :
    grammar.gotoAlong (string ++ [symbol]) = grammar.goto (grammar.gotoAlong string) symbol :=
  gotoAlong_append string [symbol]

section Spines

theorem isSpine_singleton : grammar.IsSpine [item] ↔ item.rule = 0 := by
  constructor
  · exact fun spine => Option.some.inj spine.added
  · exact fun added => ⟨congrArg some added, .singleton item⟩

/-- A spine grows by an item that its last one expects. -/
theorem isSpine_concat : grammar.IsSpine (callers ++ [item] ++ [called]) ↔
    grammar.IsSpine (callers ++ [item]) ∧ grammar.Expects item called := by
  have same : (callers ++ [item] ++ [called]).head? = (callers ++ [item]).head? := by
    cases callers <;> rfl
  have chain : (callers ++ [item] ++ [called]).IsChain grammar.Expects ↔
      (callers ++ [item]).IsChain grammar.Expects ∧ grammar.Expects item called := by
    rw [List.isChain_append]
    simp
  constructor
  · intro spine
    obtain ⟨expected, expects⟩ := chain.1 spine.expected
    exact ⟨⟨same ▸ spine.added, expected⟩, expects⟩
  · intro given
    obtain ⟨spine, expects⟩ := given
    exact ⟨same ▸ spine.added, chain.2 ⟨spine.expected, expects⟩⟩

/-- The place of the dot in the last item does not matter for a spine. -/
theorem IsSpine.of_same_rule (spine : grammar.IsSpine (callers ++ [item]))
    (same : called.rule = item.rule) : grammar.IsSpine (callers ++ [called]) := by
  rcases callers.eq_nil_or_concat' with rfl | ⟨callers, caller, rfl⟩
  · exact isSpine_singleton.2 (same.trans (isSpine_singleton.1 spine))
  · obtain ⟨spine, rule, found, reads⟩ := isSpine_concat.1 spine
    exact isSpine_concat.2 ⟨spine, rule, same ▸ found, reads⟩

theorem recognized_of_start (start : item.dot = 0) : grammar.recognized item = [] := by
  rw [recognized, start]
  cases grammar.rules[item.rule]? <;> rfl

/-- An item that reads a symbol has then recognized it too. -/
theorem recognized_succ {index dot : Nat} (reads : grammar.nextSymbol ⟨index, dot⟩ = some symbol) :
    grammar.recognized ⟨index, dot + 1⟩ = grammar.recognized ⟨index, dot⟩ ++ [symbol] := by
  obtain ⟨rule, found, inside⟩ := exists_rule_of_nextSymbol reads
  rw [recognized, recognized, found, Option.map_some, Option.map_some, Option.getD_some,
    Option.getD_some, List.take_add_one, inside]
  rfl

end Spines

section Reached

/-- The added rule is valid from its beginning. -/
theorem valid_start : grammar.Valid [] ⟨0, 0⟩ := by
  refine ⟨⟨_, grammar.rules_zero, Nat.zero_le _⟩, [], isSpine_singleton.2 rfl, ?_⟩
  rw [List.nil_append, List.flatMap_singleton, recognized_of_start rfl]

/-- Validity passes on to the items that a valid item calls for. -/
theorem Valid.call (valid : grammar.Valid string item) (calls : called ∈ grammar.calledItems item) :
    grammar.Valid string called := by
  obtain ⟨_, callers, spine, spelled⟩ := valid
  obtain ⟨rule, found, reads, start⟩ := mem_calledItems.1 calls
  refine ⟨⟨rule, found, start ▸ Nat.zero_le _⟩, callers ++ [item],
    isSpine_concat.2 ⟨spine, rule, found, reads⟩, ?_⟩
  rw [List.flatMap_append, spelled, List.flatMap_singleton, recognized_of_start start,
    List.append_nil]

/-- A valid item that reads a symbol is valid for the string with this symbol. -/
theorem Valid.read {index dot : Nat} (valid : grammar.Valid string ⟨index, dot⟩)
    (reads : grammar.nextSymbol ⟨index, dot⟩ = some symbol) :
    grammar.Valid (string ++ [symbol]) ⟨index, dot + 1⟩ := by
  obtain ⟨_, callers, spine, spelled⟩ := valid
  obtain ⟨rule, found, inside⟩ := exists_rule_of_nextSymbol reads
  refine ⟨⟨rule, found, (List.getElem?_eq_some_iff.1 inside).1⟩, callers,
    spine.of_same_rule rfl, ?_⟩
  rw [List.flatMap_append, List.flatMap_singleton] at spelled ⊢
  rw [recognized_succ reads, ← List.append_assoc, spelled]

theorem valid_of_mem_gotoAlong (member : item ∈ grammar.gotoAlong string) :
    grammar.Valid string item := by
  induction string using List.reverseRecOn generalizing item with
  | nil =>
      rw [gotoAlong, List.foldl_nil, stateItems_zero] at member
      have called := mem_closure.1 member
      clear member
      induction called with
      | seed inside =>
          rw [OrderedSet.mem_ofList, List.mem_singleton] at inside
          exact inside ▸ valid_start
      | call _ calls ih => exact ih.call calls
  | append_singleton string symbol ih =>
      rw [gotoAlong_concat] at member
      have called := mem_closure.1 member
      clear member
      -- The inner induction follows the calls, which add to the spine but read nothing.
      induction called with
      | seed inside =>
          obtain ⟨⟨index, dot⟩, member, reads, rfl⟩ := mem_advanced.1 inside
          exact (ih member).read reads
      | call _ calls again => exact again.call calls

/-- A set that is reached along a string is closed under calls. -/
theorem called_mem_gotoAlong (member : item ∈ grammar.gotoAlong string)
    (calls : called ∈ grammar.calledItems item) : called ∈ grammar.gotoAlong string := by
  rcases string.eq_nil_or_concat' with rfl | ⟨front, symbol, rfl⟩
  · exact called_mem_stateItems member calls
  · rw [gotoAlong_concat] at member ⊢
    exact mem_closure.2 (.call (mem_closure.1 member) calls)

/-- The dot moves through a rule along the symbols that it recognizes. -/
theorem mem_gotoAlong_recognized {index dot : Nat} (valid : grammar.IsItem ⟨index, dot⟩)
    (member : (⟨index, 0⟩ : Item) ∈ grammar.gotoAlong string) :
    (⟨index, dot⟩ : Item) ∈ grammar.gotoAlong (string ++ grammar.recognized ⟨index, dot⟩) := by
  induction dot with
  | zero => rwa [recognized_of_start rfl, List.append_nil]
  | succ dot ih =>
      obtain ⟨rule, found, bound⟩ := valid
      have reads : grammar.nextSymbol ⟨index, dot⟩ = some rule.rhs[dot] := by
        rw [nextSymbol_of_rule found, List.getElem?_eq_getElem bound]
      rw [recognized_succ reads, ← List.append_assoc, gotoAlong_concat]
      exact mem_goto_succ.2 ⟨ih ⟨rule, found, Nat.le_of_succ_le bound⟩, reads⟩

theorem mem_gotoAlong_of_isSpine (valid : grammar.IsItem item)
    (spine : grammar.IsSpine (callers ++ [item])) :
    item ∈ grammar.gotoAlong ((callers ++ [item]).flatMap grammar.recognized) := by
  rw [List.flatMap_append, List.flatMap_singleton]
  -- Each caller is reached by what the callers before it and itself have recognized.
  induction callers using List.reverseRecOn generalizing item with
  | nil =>
      have added : item.rule = 0 := isSpine_singleton.1 spine
      refine mem_gotoAlong_recognized valid ?_
      rw [added]
      exact startItem_mem
  | append_singleton callers caller ih =>
      obtain ⟨spine, expects⟩ := isSpine_concat.1 spine
      obtain ⟨rule, found, reads⟩ := expects
      obtain ⟨calling, callingFound, inside⟩ := exists_rule_of_nextSymbol reads
      have bound := Nat.le_of_lt (List.getElem?_eq_some_iff.1 inside).1
      have member := ih ⟨calling, callingFound, bound⟩ spine
      refine mem_gotoAlong_recognized valid ?_
      rw [List.flatMap_append, List.flatMap_singleton]
      exact called_mem_gotoAlong member (mem_calledItems.2 ⟨rule, found, reads, rfl⟩)

/-- Along a string exactly the valid items are reached. -/
theorem mem_gotoAlong_iff : item ∈ grammar.gotoAlong string ↔ grammar.Valid string item := by
  constructor
  · exact valid_of_mem_gotoAlong
  · intro given
    obtain ⟨valid, callers, spine, rfl⟩ := given
    exact mem_gotoAlong_of_isSpine valid spine

end Reached

section States

/-- Goto does not depend on the order of the items. -/
theorem goto_congr {first second : ItemSet} (same : ∀ item, item ∈ first ↔ item ∈ second)
    (item : Item) : item ∈ grammar.goto first symbol ↔ item ∈ grammar.goto second symbol :=
  ⟨goto_mono (fun item => (same item).1) item, goto_mono (fun item => (same item).2) item⟩

theorem find_gotoAlong_nil : grammar.collection.find (grammar.gotoAlong []) = some 0 := by
  refine find_eq_some_iff.2 ⟨⟨_, startItem_mem⟩, grammar.startState, getElem?_states_zero, ?_⟩
  intro item
  rw [gotoAlong, List.foldl_nil, stateItems_zero]

/-- From the state of a string the transition leads to the state of the longer string. -/
theorem transition_eq_find {state : Nat}
    (reached : grammar.collection.find (grammar.gotoAlong string) = some state) :
    grammar.transition state symbol =
      grammar.collection.find (grammar.gotoAlong (string ++ [symbol])) := by
  obtain ⟨_, items, found, same⟩ := find_eq_some_iff.1 reached
  rw [transition, gotoAlong_concat, stateItems_of_getElem? found]
  exact Collection.find_congr fun item => goto_congr same item

/-- What is reached along a string is a state unless it is empty. -/
theorem exists_find (member : item ∈ grammar.gotoAlong string) :
    ∃ state, grammar.collection.find (grammar.gotoAlong string) = some state := by
  induction string using List.reverseRecOn generalizing item with
  | nil => exact ⟨0, find_gotoAlong_nil⟩
  | append_singleton string symbol ih =>
      rw [gotoAlong_concat] at member
      obtain ⟨reader, inside, reads⟩ := exists_read_of_mem_goto member
      obtain ⟨state, reached⟩ := ih inside
      obtain ⟨_, items, found, same⟩ := find_eq_some_iff.1 reached
      have listed : reader ∈ grammar.stateItems state := by
        rw [stateItems_of_getElem? found]
        exact (same reader).2 inside
      rw [← transition_eq_find reached]
      exact exists_transition listed reads

end States

end ShiftReduce.Grammar
