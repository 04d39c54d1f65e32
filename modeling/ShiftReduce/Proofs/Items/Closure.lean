/-
This file describes the members of closures and of goto sets.
-/

import ShiftReduce.Items.Closure
import ShiftReduce.Proofs.Grammar.Symbols

namespace ShiftReduce.Grammar

variable (grammar : Grammar)

/-- A chain of calls leads from the seed to the item. -/
inductive CalledFrom (seed : ItemSet) : Item → Prop
  | seed {item : Item} (member : item ∈ seed) : CalledFrom seed item
  | call {item called : Item} (caller : CalledFrom seed item)
      (calls : called ∈ grammar.calledItems item) : CalledFrom seed called

section Calls

variable {grammar} {item : Item} {items : ItemSet} {symbol : Symbol}

theorem mem_ruleIndicesFor {index : Nat} {lhs : Symbol} :
    index ∈ grammar.ruleIndicesFor lhs ↔
      ∃ rule, grammar.rules[index]? = some rule ∧ rule.lhs = lhs := by
  simp only [ruleIndicesFor, List.mem_map, List.mem_filter, Prod.exists, beq_iff_eq,
    List.mk_mem_zipIdx_iff_getElem?]
  constructor
  · intro given
    obtain ⟨rule, place, ⟨found, head⟩, rfl⟩ := given
    exact ⟨rule, found, head⟩
  · intro given
    obtain ⟨rule, found, head⟩ := given
    exact ⟨rule, index, ⟨found, head⟩, rfl⟩

/-- An item calls for the rules of its next symbol, each from the beginning. -/
theorem mem_calledItems {called : Item} : called ∈ grammar.calledItems item ↔
    ∃ rule, grammar.rules[called.rule]? = some rule ∧ grammar.nextSymbol item = some rule.lhs ∧
      called.dot = 0 := by
  rw [calledItems]
  constructor
  · intro member
    split at member
    · exact absurd member List.not_mem_nil
    · next symbol next =>
        split at member
        · obtain ⟨index, listed, rfl⟩ := List.mem_map.1 member
          obtain ⟨rule, found, rfl⟩ := mem_ruleIndicesFor.1 listed
          exact ⟨rule, found, next, rfl⟩
        · exact absurd member List.not_mem_nil
  · intro given
    obtain ⟨rule, found, next, start⟩ := given
    have listed := List.mem_of_getElem? found
    rw [next]
    dsimp only
    rw [if_pos (grammar.isNonterminal_lhs listed)]
    refine List.mem_map.2 ⟨called.rule, mem_ruleIndicesFor.2 ⟨rule, found, rfl⟩, ?_⟩
    rw [← start]

theorem nextSymbol_of_rule {rule : Rule} {dot index : Nat}
    (found : grammar.rules[index]? = some rule) :
    grammar.nextSymbol ⟨index, dot⟩ = rule.rhs[dot]? := by
  simp [nextSymbol, found]

theorem exists_rule_of_nextSymbol (next : grammar.nextSymbol item = some symbol) :
    ∃ rule, grammar.rules[item.rule]? = some rule ∧ rule.rhs[item.dot]? = some symbol :=
  Option.bind_eq_some_iff.1 next

theorem nextSymbol_lt_endMarker (next : grammar.nextSymbol item = some symbol) :
    symbol < grammar.endMarker := by
  obtain ⟨rule, found, inside⟩ := exists_rule_of_nextSymbol next
  exact grammar.rhs_lt_endMarker (List.mem_of_getElem? found) (List.mem_of_getElem? inside)

end Calls

section Closure

variable {grammar} {item : Item} {items seed : ItemSet}

theorem calledFrom_of_mem_closeFrom {position : Nat}
    (known : ∀ item ∈ items, grammar.CalledFrom seed item)
    (member : item ∈ grammar.closeFrom items position) : grammar.CalledFrom seed item := by
  fun_induction closeFrom grammar items position with
  | case1 items position done => exact known item member
  | case2 items position caller found ih =>
      apply ih _ member
      intro other either
      rcases OrderedSet.mem_insertAll.1 either with old | called
      · exact known other old
      · exact .call (known caller (List.mem_of_getElem? found)) called

/-- The scan keeps all items and leaves no call of a scanned item open. -/
theorem closeFrom_closed {position : Nat}
    (scanned : ∀ item ∈ items.toList.take position, ∀ called ∈ grammar.calledItems item,
      called ∈ items) :
    (∀ item ∈ items, item ∈ grammar.closeFrom items position) ∧
      ∀ item ∈ grammar.closeFrom items position, ∀ called ∈ grammar.calledItems item,
        called ∈ grammar.closeFrom items position := by
  fun_induction closeFrom grammar items position with
  | case1 items position done =>
      constructor
      · exact fun item member => member
      · intro item member
        apply scanned item
        rw [List.take_of_length_le (List.getElem?_eq_none_iff.1 done)]
        exact member
  | case2 items position caller found ih =>
      have inside := (List.getElem?_eq_some_iff.1 found).1
      obtain ⟨added, grown⟩ := items.toList_prefix_insertAll (grammar.calledItems caller)
      have taken : (items.insertAll (grammar.calledItems caller)).toList.take (position + 1) =
          items.toList.take position ++ [caller] := by
        rw [← grown, List.take_append_of_le_length inside, List.take_add_one, found]
        rfl
      obtain ⟨kept, closed⟩ := ih (by
        intro item member called calls
        rw [taken] at member
        apply OrderedSet.mem_insertAll.2
        rcases List.mem_append.1 member with old | last
        · exact .inl (scanned item old called calls)
        · exact .inr (List.mem_singleton.1 last ▸ calls))
      exact ⟨fun item member => kept item (OrderedSet.mem_insertAll.2 (.inl member)), closed⟩

/-- The closure holds exactly what the seed calls for. -/
theorem mem_closure : item ∈ grammar.closure seed ↔ grammar.CalledFrom seed item := by
  have scanned : ∀ item ∈ seed.toList.take 0, ∀ called ∈ grammar.calledItems item,
      called ∈ seed := by simp
  obtain ⟨kept, closed⟩ := closeFrom_closed scanned
  constructor
  · exact calledFrom_of_mem_closeFrom fun item member => .seed member
  · intro called
    induction called with
    | seed member => exact kept _ member
    | call _ calls ih => exact closed _ ih _ calls

/-- A member of a closure that is not in the seed is called for by another member. -/
theorem mem_seed_or_called (member : item ∈ grammar.closure seed) :
    item ∈ seed ∨ ∃ caller ∈ grammar.closure seed, item ∈ grammar.calledItems caller := by
  cases mem_closure.1 member with
  | seed inside => exact .inl inside
  | call caller calls => exact .inr ⟨_, mem_closure.2 caller, calls⟩

theorem closure_mono {first second : ItemSet} (included : ∀ item ∈ first, item ∈ second) :
    ∀ item ∈ grammar.closure first, item ∈ grammar.closure second := by
  intro item member
  have called := mem_closure.1 member
  clear member
  induction called with
  | seed inside => exact mem_closure.2 (.seed (included _ inside))
  | call _ calls ih => exact mem_closure.2 (.call (mem_closure.1 ih) calls)

end Closure

section Goto

variable {grammar} {items : ItemSet} {symbol : Symbol} {rule dot : Nat}

theorem mem_advanced {item : Item} : item ∈ grammar.advanced items symbol ↔
    ∃ source ∈ items, grammar.nextSymbol source = some symbol ∧
      item = ⟨source.rule, source.dot + 1⟩ := by
  simp only [advanced, OrderedSet.mem_ofList, List.mem_map, List.mem_filter, beq_iff_eq,
    OrderedSet.mem_toList]
  constructor
  · intro given
    obtain ⟨source, ⟨member, next⟩, rfl⟩ := given
    exact ⟨source, member, next, rfl⟩
  · intro given
    obtain ⟨source, member, next, rfl⟩ := given
    exact ⟨source, ⟨member, next⟩, rfl⟩

theorem goto_mono {first second : ItemSet} (included : ∀ item ∈ first, item ∈ second) :
    ∀ item ∈ grammar.goto first symbol, item ∈ grammar.goto second symbol := by
  apply closure_mono
  intro item member
  obtain ⟨source, inside, next, rfl⟩ := mem_advanced.1 member
  exact mem_advanced.2 ⟨source, included source inside, next, rfl⟩

/-- A goto set holds an advanced item exactly when the source can read the symbol with it. -/
theorem mem_goto_succ : (⟨rule, dot + 1⟩ : Item) ∈ grammar.goto items symbol ↔
    (⟨rule, dot⟩ : Item) ∈ items ∧ grammar.nextSymbol ⟨rule, dot⟩ = some symbol := by
  constructor
  · intro member
    rcases mem_seed_or_called member with seed | ⟨caller, _, calls⟩
    · obtain ⟨source, inside, next, same⟩ := mem_advanced.1 seed
      obtain ⟨rfl, moved⟩ := Item.mk.inj same
      obtain rfl := Nat.succ.inj moved
      exact ⟨inside, next⟩
    · obtain ⟨_, _, _, start⟩ := mem_calledItems.1 calls
      exact absurd start (Nat.succ_ne_zero dot)
  · intro given
    obtain ⟨inside, next⟩ := given
    exact mem_closure.2 (.seed (mem_advanced.2 ⟨⟨rule, dot⟩, inside, next, rfl⟩))

/-- An initial item of a goto set is called for by another item of the set. -/
theorem called_of_mem_goto_zero (member : (⟨rule, 0⟩ : Item) ∈ grammar.goto items symbol) :
    ∃ caller ∈ grammar.goto items symbol, (⟨rule, 0⟩ : Item) ∈ grammar.calledItems caller := by
  rcases mem_seed_or_called member with seed | called
  · obtain ⟨source, _, _, same⟩ := mem_advanced.1 seed
    exact absurd (Item.mk.inj same).2 (Nat.succ_ne_zero source.dot).symm
  · exact called

/-- A goto set with any member holds an advanced item. -/
theorem exists_read_of_mem_goto {item : Item} (member : item ∈ grammar.goto items symbol) :
    ∃ source ∈ items, grammar.nextSymbol source = some symbol := by
  have called := mem_closure.1 member
  clear member
  induction called with
  | seed inside =>
      obtain ⟨source, inside, next, _⟩ := mem_advanced.1 inside
      exact ⟨source, inside, next⟩
  | call _ _ ih => exact ih

end Goto

end ShiftReduce.Grammar
