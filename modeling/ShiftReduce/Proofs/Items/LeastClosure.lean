/-
This file shows that closures and goto sets are the least closed sets above the items they begin
with.
-/

import Mathlib.Data.Set.Operations
import Mathlib.Order.Bounds.Defs
import ShiftReduce.CompiledGrammar
import ShiftReduce.Proofs.Items.Closure

namespace ShiftReduce.Grammar

variable (grammar : Grammar)

/-- A closed set has the beginning of each rule whose left-hand side one of its items reads next. -/
def Closed (items : Set Item) : Prop :=
  ∀ item ∈ items, ∀ (index : Nat) (rule : Rule), grammar.rules[index]? = some rule →
    grammar.nextSymbol item = some rule.lhs → (⟨index, 0⟩ : Item) ∈ items

/--
The scan looks at one item after the other, those included that it has added itself, and it has to
find the rule of each item.
-/
inductive Saturates : Nat → ItemSet → ItemSet → Prop
  | done {position : Nat} {items : ItemSet} (scanned : items.toList[position]? = none) :
      Saturates position items items
  | next {position : Nat} {items result : ItemSet} {item : Item} {rule : Rule}
      (found : items.toList[position]? = some item)
      (listed : grammar.rules[item.rule]? = some rule)
      (rest : Saturates (position + 1) (items.insertAll (grammar.calledItems item)) result) :
      Saturates position items result

variable {grammar} {item : Item} {items seed first second : ItemSet} {symbol : Symbol}

section Scan

variable {position : Nat}

theorem Saturates.unique (one : grammar.Saturates position items first)
    (two : grammar.Saturates position items second) : first = second := by
  induction one with
  | done scanned =>
      cases two with
      | done _ => rfl
      | next found _ _ => simp [scanned] at found
  | next found _ _ ih =>
      cases two with
      | done scanned => simp [scanned] at found
      | next again _ rest =>
          obtain rfl := Option.some.inj (found.symm.trans again)
          exact ih rest

/-- Called items name rules of the grammar, so the scan finds every rule when the seed does. -/
theorem saturates_closeFrom (known : ∀ item ∈ items, item.rule < grammar.rules.length) :
    grammar.Saturates position items (grammar.closeFrom items position) := by
  fun_induction closeFrom grammar items position with
  | case1 items position scanned => exact .done scanned
  | case2 items position item found ih =>
      have inside := known item (List.mem_of_getElem? found)
      apply Saturates.next found (List.getElem?_eq_getElem inside)
      apply ih
      intro other either
      rcases OrderedSet.mem_insertAll.1 either with old | called
      · exact known other old
      · obtain ⟨rule, listed, _⟩ := mem_calledItems.1 called
        exact (List.getElem?_eq_some_iff.1 listed).1

/-- The scan keeps the items that it was given in front. -/
theorem toList_prefix_closeFrom (items : ItemSet) (position : Nat) :
    items.toList <+: (grammar.closeFrom items position).toList := by
  fun_induction closeFrom grammar items position with
  | case1 items position scanned => exact List.prefix_refl _
  | case2 items position item found ih =>
      exact (items.toList_prefix_insertAll (grammar.calledItems item)).trans ih

theorem closeFrom_of_closed
    (closed : ∀ item ∈ items, ∀ called ∈ grammar.calledItems item, called ∈ items) :
    grammar.closeFrom items position = items := by
  fun_induction closeFrom grammar items position with
  | case1 items position scanned => rfl
  | case2 items position item found ih =>
      have same := OrderedSet.insertAll_of_subset (closed item (List.mem_of_getElem? found))
      rw [same] at ih ⊢
      exact ih closed

end Scan

section Least

theorem closed_closure (seed : ItemSet) : grammar.Closed {item | item ∈ grammar.closure seed} := by
  intro item member index rule found reads
  have called : (⟨index, 0⟩ : Item) ∈ grammar.calledItems item :=
    mem_calledItems.2 ⟨rule, found, reads, rfl⟩
  exact mem_closure.2 (.call (mem_closure.1 member) called)

/-- Chains of calls do not leave a closed set. -/
theorem CalledFrom.mem_of_closed {bound : Set Item} (closed : grammar.Closed bound)
    (included : ∀ item ∈ seed, item ∈ bound) (called : grammar.CalledFrom seed item) :
    item ∈ bound := by
  induction called with
  | seed member => exact included _ member
  | @call caller called _ calls ih =>
      obtain ⟨index, dot⟩ := called
      obtain ⟨rule, found, reads, rfl⟩ := mem_calledItems.1 calls
      exact closed caller ih index rule found reads

/-- The closure is the least closed set above its seed. -/
theorem isLeast_closure (seed : ItemSet) :
    IsLeast {bound : Set Item | (∀ item ∈ seed, item ∈ bound) ∧ grammar.Closed bound}
      {item | item ∈ grammar.closure seed} := by
  constructor
  · exact ⟨fun item member => mem_closure.2 (.seed member), closed_closure seed⟩
  · intro bound above item member
    exact (mem_closure.1 member).mem_of_closed above.2 above.1

/-- A closed set is its own closure, also in the order of its items. -/
theorem closure_closure (seed : ItemSet) :
    grammar.closure (grammar.closure seed) = grammar.closure seed := by
  apply closeFrom_of_closed
  intro item member called calls
  exact mem_closure.2 (.call (mem_closure.1 member) calls)

theorem closure_beq (same : (first == second) = true) :
    (grammar.closure first == grammar.closure second) = true := by
  rw [OrderedSet.beq_eq_true] at same ⊢
  intro item
  exact ⟨closure_mono (fun item => (same item).1) item,
    closure_mono (fun item => (same item).2) item⟩

end Least

section Goto

/-- The goto set is the least closed set above the items that have read the symbol. -/
theorem isLeast_goto (items : ItemSet) (symbol : Symbol) :
    IsLeast {bound : Set Item | (∀ item ∈ items, grammar.nextSymbol item = some symbol →
        (⟨item.rule, item.dot + 1⟩ : Item) ∈ bound) ∧ grammar.Closed bound}
      {item | item ∈ grammar.goto items symbol} := by
  obtain ⟨⟨above, closed⟩, least⟩ := @isLeast_closure grammar (grammar.advanced items symbol)
  constructor
  · refine ⟨fun item member reads => above _ ?_, closed⟩
    exact mem_advanced.2 ⟨item, member, reads, rfl⟩
  · intro bound given
    apply least
    refine ⟨fun item member => ?_, given.2⟩
    obtain ⟨source, inside, reads, rfl⟩ := mem_advanced.1 member
    exact given.1 source inside reads

theorem goto_beq (same : (first == second) = true) :
    (grammar.goto first symbol == grammar.goto second symbol) = true := by
  rw [OrderedSet.beq_eq_true] at same ⊢
  intro item
  exact ⟨goto_mono (fun item => (same item).1) item, goto_mono (fun item => (same item).2) item⟩

end Goto

/--
The scan of a seed comes to its end with the closure, which begins with the seed and repeats no
item. It is the least closed set above the seed, so closing it again changes nothing, a larger seed
has a larger closure, and the order of the seed does not matter. A goto set is the least closed set
above the items that have read its symbol, in whatever order the items stand.
-/
theorem closure_least (known : ∀ item ∈ seed, item.rule < grammar.rules.length) :
    (∀ items, grammar.Saturates 0 seed items ↔ items = grammar.closure seed) ∧
    (grammar.closure seed).toList.Nodup ∧
    seed.toList <+: (grammar.closure seed).toList ∧
    IsLeast {bound : Set Item | (∀ item ∈ seed, item ∈ bound) ∧ grammar.Closed bound}
      {item | item ∈ grammar.closure seed} ∧
    grammar.closure (grammar.closure seed) = grammar.closure seed ∧
    (∀ larger : ItemSet, (∀ item ∈ seed, item ∈ larger) →
      ∀ item ∈ grammar.closure seed, item ∈ grammar.closure larger) ∧
    (∀ other : ItemSet, (seed == other) = true →
      (grammar.closure seed == grammar.closure other) = true) ∧
    ∀ symbol,
      IsLeast {bound : Set Item | (∀ item ∈ seed, grammar.nextSymbol item = some symbol →
          (⟨item.rule, item.dot + 1⟩ : Item) ∈ bound) ∧ grammar.Closed bound}
        {item | item ∈ grammar.goto seed symbol} ∧
      ∀ other : ItemSet, (seed == other) = true →
        (grammar.goto seed symbol == grammar.goto other symbol) = true := by
  have saturates : grammar.Saturates 0 seed (grammar.closure seed) := saturates_closeFrom known
  refine ⟨?_, (grammar.closure seed).nodup, toList_prefix_closeFrom seed 0, isLeast_closure seed,
    closure_closure seed, fun larger => closure_mono, fun other => closure_beq, ?_⟩
  · intro items
    constructor
    · exact fun other => other.unique saturates
    · rintro rfl
      exact saturates
  · exact fun symbol => ⟨isLeast_goto seed symbol, fun other => goto_beq⟩

/-- The closure of a seed with a dot beyond the end of its rule, in a left-recursive grammar. -/
theorem closure_least_left_recursion :
    ∃ compiled, CompiledGrammar.ofText "E E + T\nE T\nT a" = .ok compiled ∧
      (compiled.grammar.closure (.ofList [⟨1, 2⟩, ⟨3, 7⟩, ⟨0, 0⟩])).toList =
        [⟨1, 2⟩, ⟨3, 7⟩, ⟨0, 0⟩, ⟨3, 0⟩, ⟨1, 0⟩, ⟨2, 0⟩] ∧
      ∀ larger : ItemSet, (∀ item ∈ OrderedSet.ofList [⟨1, 2⟩, ⟨3, 7⟩, ⟨0, 0⟩], item ∈ larger) →
        (⟨2, 0⟩ : Item) ∈ compiled.grammar.closure larger := by
  let seed : ItemSet := .ofList [⟨1, 2⟩, ⟨3, 7⟩, ⟨0, 0⟩]
  let listed : List Item := [⟨1, 2⟩, ⟨3, 7⟩, ⟨0, 0⟩, ⟨3, 0⟩, ⟨1, 0⟩, ⟨2, 0⟩]
  obtain ⟨compiled, compiles, evaluated⟩ := CompiledGrammar.exists_of_ofText
    "E E + T\nE T\nT a"
    (fun compiled => decide ((compiled.grammar.closure seed).toList = listed ∧
      ∀ item ∈ seed.toList, item.rule < compiled.grammar.rules.length))
    (by decide +kernel)
  obtain ⟨closed, named⟩ := of_decide_eq_true evaluated
  have known : ∀ item ∈ seed, item.rule < compiled.grammar.rules.length := named
  obtain ⟨_, _, _, _, _, monotone, _⟩ := closure_least known
  have inside : (⟨2, 0⟩ : Item) ∈ (compiled.grammar.closure seed).toList := by
    rw [closed]
    decide
  exact ⟨compiled, compiles, closed, fun larger included => monotone larger included _ inside⟩

end ShiftReduce.Grammar
