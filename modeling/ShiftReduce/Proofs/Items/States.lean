/-
This file describes the states of the canonical collection and the transitions between them.
-/

import ShiftReduce.Proofs.Items.Collection

namespace ShiftReduce.Grammar

variable (grammar : Grammar)

/-- A number that names no state stands for the empty set. -/
def stateItems (state : Nat) : ItemSet :=
  (grammar.collection.states[state]?).getD .empty

/-- The transition of a state on a symbol leads to the state of its goto set. -/
def transition (state : Nat) (symbol : Symbol) : Option Nat :=
  grammar.collection.find (grammar.goto (grammar.stateItems state) symbol)

variable {grammar} {item : Item} {state next : Nat} {symbol : Symbol}

theorem stateItems_of_getElem? {items : ItemSet}
    (found : grammar.collection.states[state]? = some items) :
    grammar.stateItems state = items := by
  rw [stateItems, found, Option.getD_some]

theorem getElem?_of_mem_stateItems (member : item ∈ grammar.stateItems state) :
    grammar.collection.states[state]? = some (grammar.stateItems state) := by
  cases found : grammar.collection.states[state]? with
  | none =>
      rw [stateItems, found] at member
      exact absurd member List.not_mem_nil
  | some items => rw [stateItems_of_getElem? found]

theorem stateItems_mem_states (member : item ∈ grammar.stateItems state) :
    grammar.stateItems state ∈ grammar.collection.states :=
  List.mem_of_getElem? (getElem?_of_mem_stateItems member)

theorem getElem?_states_zero : grammar.collection.states[0]? = some grammar.startState := by
  have first : [grammar.startState] <+: grammar.collection.states := prefix_collectFrom
  exact List.prefix_iff_getElem?.1 first 0 (by simp)

theorem stateItems_zero : grammar.stateItems 0 = grammar.startState :=
  stateItems_of_getElem? getElem?_states_zero

/-- A property of the start state that goto establishes holds of every state. -/
theorem forall_mem_states (property : ItemSet → Prop) (start : property grammar.startState)
    (kept : ∀ items symbol, property items → property (grammar.goto items symbol)) :
    ∀ items ∈ grammar.collection.states, property items := by
  apply collectFrom_induction (motive := fun known => ∀ items ∈ known, property items)
  · intro more position source symbol holds found _ _
    have moved := kept source symbol (holds source (List.mem_of_getElem? found))
    simpa [or_imp, forall_and, moved] using holds
  · simpa using start

theorem distinct_states (grammar : Grammar) :
    grammar.collection.states.Pairwise fun first second => (first == second) = false :=
  collectFrom_induction (fun _ _ _ _ distinct _ _ new => distinct_concat distinct new)
    (List.pairwise_singleton _ _)

/-- Two states with the same items are the same state. -/
theorem eq_of_same_items {first second : ItemSet} {other : Nat}
    (firstFound : grammar.collection.states[state]? = some first)
    (secondFound : grammar.collection.states[other]? = some second)
    (same : ∀ item, item ∈ first ↔ item ∈ second) : state = other := by
  have distinct := List.pairwise_iff_getElem.1 grammar.distinct_states
  obtain ⟨firstInside, rfl⟩ := List.getElem?_eq_some_iff.1 firstFound
  obtain ⟨secondInside, rfl⟩ := List.getElem?_eq_some_iff.1 secondFound
  rcases Nat.lt_trichotomy state other with before | equal | behind
  · have apart := distinct state other firstInside secondInside before
    rw [OrderedSet.beq_eq_true.2 same] at apart
    cases apart
  · exact equal
  · have apart := distinct other state secondInside firstInside behind
    rw [OrderedSet.beq_eq_true.2 fun item => (same item).symm] at apart
    cases apart

/-- Only a set with a member is found, and only as the one state with the same items. -/
theorem find_eq_some_iff {target : ItemSet} : grammar.collection.find target = some state ↔
    (∃ item, item ∈ target) ∧ ∃ items, grammar.collection.states[state]? = some items ∧
      ∀ item, item ∈ items ↔ item ∈ target := by
  have occupied : target.isEmpty = false ↔ ∃ item, item ∈ target := by
    rw [OrderedSet.isEmpty, List.isEmpty_eq_false_iff_exists_mem]
    rfl
  rw [Collection.find]
  constructor
  · intro found
    split at found
    · cases found
    · next filled =>
        obtain ⟨inside, same, _⟩ := List.findIdx?_eq_some_iff_getElem.1 found
        exact ⟨occupied.1 (Bool.eq_false_iff.2 filled), _, List.getElem?_eq_getElem inside,
          OrderedSet.beq_eq_true.1 same⟩
  · intro given
    obtain ⟨filled, items, listed, same⟩ := given
    rw [occupied.2 filled, if_neg (by decide)]
    have present : (grammar.collection.states.findIdx? (· == target)).isSome = true := by
      rw [List.findIdx?_isSome, List.any_eq_true]
      exact ⟨items, List.mem_of_getElem? listed, OrderedSet.beq_eq_true.2 same⟩
    obtain ⟨place, found⟩ := Option.isSome_iff_exists.1 present
    obtain ⟨inside, equal, _⟩ := List.findIdx?_eq_some_iff_getElem.1 found
    rw [found, eq_of_same_items listed (List.getElem?_eq_getElem inside) fun item =>
      (same item).trans (OrderedSet.beq_eq_true.1 equal item).symm]

theorem mem_stateItems_of_transition (moves : grammar.transition state symbol = some next) :
    item ∈ grammar.stateItems next ↔ item ∈ grammar.goto (grammar.stateItems state) symbol := by
  obtain ⟨_, items, found, same⟩ := find_eq_some_iff.1 moves
  rw [stateItems_of_getElem? found]
  exact same item

/-- A transition takes some item of its state along. -/
theorem exists_reader (moves : grammar.transition state symbol = some next) :
    ∃ reader ∈ grammar.stateItems state, grammar.nextSymbol reader = some symbol := by
  obtain ⟨⟨_, member⟩, _⟩ := find_eq_some_iff.1 moves
  exact exists_read_of_mem_goto member

/-- Every goto set with a member is a state. -/
theorem exists_transition (member : item ∈ grammar.stateItems state)
    (reads : grammar.nextSymbol item = some symbol) :
    ∃ next, grammar.transition state symbol = some next := by
  have bound := nextSymbol_lt_endMarker reads
  have moved : (⟨item.rule, item.dot + 1⟩ : Item) ∈
      grammar.goto (grammar.stateItems state) symbol := mem_goto_succ.2 ⟨member, reads⟩
  have occupied : (grammar.goto (grammar.stateItems state) symbol).isEmpty = false := by
    rw [OrderedSet.isEmpty, List.isEmpty_eq_false_iff]
    exact List.ne_nil_of_mem moved
  have start : grammar.Scanned 0 [grammar.startState] := by
    intro source listed
    exact absurd listed (by simp)
  have target := hasTarget_collectFrom (Nat.pow 2 grammar.itemCount)
    (fun _ listed _ inside => isItem_startState (List.mem_singleton.1 listed ▸ inside))
    (List.pairwise_singleton _ _) (by rw [Nat.zero_add]; rfl) start _
    (stateItems_mem_states member) symbol bound
  rcases target with empty | ⟨items, listed, same⟩
  · rw [occupied] at empty
    exact absurd empty (by decide)
  · obtain ⟨next, found⟩ := List.mem_iff_getElem?.1 listed
    exact ⟨next, find_eq_some_iff.2 ⟨⟨_, moved⟩, items, found, OrderedSet.beq_eq_true.1 same⟩⟩

/-- The transition advances the items that read its symbol. -/
theorem mem_stateItems_succ {rule dot : Nat} (moves : grammar.transition state symbol = some next) :
    (⟨rule, dot + 1⟩ : Item) ∈ grammar.stateItems next ↔
      (⟨rule, dot⟩ : Item) ∈ grammar.stateItems state ∧
        grammar.nextSymbol ⟨rule, dot⟩ = some symbol :=
  (mem_stateItems_of_transition moves).trans mem_goto_succ

/-- A state is the closure of a seed in which only the added rule begins. -/
theorem exists_seed (grammar : Grammar) (state : Nat) :
    ∃ seed : ItemSet, (∀ item ∈ seed, item.dot = 0 → item.rule = 0) ∧
      ∀ item, item ∈ grammar.stateItems state ↔ grammar.CalledFrom seed item := by
  cases found : grammar.collection.states[state]? with
  | none =>
      have unknown : grammar.stateItems state = .empty := by
        rw [stateItems, found, Option.getD_none]
      rw [unknown]
      refine ⟨.empty, nofun, fun item => ⟨nofun, fun called => ?_⟩⟩
      induction called with
      | seed member => exact member
      | call _ _ ih => exact absurd ih List.not_mem_nil
  | some items =>
      rw [stateItems_of_getElem? found]
      refine forall_mem_states (fun items => ∃ seed : ItemSet,
        (∀ item ∈ seed, item.dot = 0 → item.rule = 0) ∧
          ∀ item, item ∈ items ↔ grammar.CalledFrom seed item) ?_ ?_ items
        (List.mem_of_getElem? found)
      · refine ⟨.ofList [⟨0, 0⟩], ?_, fun _ => mem_closure⟩
        intro item member _
        rw [OrderedSet.mem_ofList, List.mem_singleton] at member
        rw [member]
      · intro source symbol _
        refine ⟨grammar.advanced source symbol, ?_, fun _ => mem_closure⟩
        intro item member start
        obtain ⟨before, _, _, rfl⟩ := mem_advanced.1 member
        exact absurd start (Nat.succ_ne_zero before.dot)

/-- A state holds all items that its items call for. -/
theorem called_mem_stateItems (member : item ∈ grammar.stateItems state) {called : Item}
    (calls : called ∈ grammar.calledItems item) : called ∈ grammar.stateItems state := by
  obtain ⟨seed, _, members⟩ := exists_seed grammar state
  exact (members called).2 (.call ((members item).1 member) calls)

/-- Only the added rule begins without being called for. -/
theorem exists_caller {rule : Nat} (later : rule ≠ 0)
    (member : (⟨rule, 0⟩ : Item) ∈ grammar.stateItems state) :
    ∃ caller ∈ grammar.stateItems state, (⟨rule, 0⟩ : Item) ∈ grammar.calledItems caller := by
  obtain ⟨seed, initial, members⟩ := exists_seed grammar state
  cases (members _).1 member with
  | seed inside => exact absurd (initial _ inside rfl) later
  | call caller calls => exact ⟨_, (members _).2 caller, calls⟩

theorem dot_of_mem_startState (member : item ∈ grammar.stateItems 0) : item.dot = 0 := by
  rw [stateItems_zero] at member
  cases mem_closure.1 member with
  | seed inside =>
      rw [OrderedSet.mem_ofList, List.mem_singleton] at inside
      rw [inside]
  | call _ calls =>
      obtain ⟨_, _, _, start⟩ := mem_calledItems.1 calls
      exact start

theorem startItem_mem : (⟨0, 0⟩ : Item) ∈ grammar.stateItems 0 := by
  rw [stateItems_zero]
  exact mem_closure.2 (.seed (OrderedSet.mem_ofList.2 List.mem_cons_self))

/-- The added rule begins in no goto set. -/
theorem startItem_not_mem_goto (items : ItemSet) (symbol : Symbol) :
    (⟨0, 0⟩ : Item) ∉ grammar.goto items symbol := by
  intro member
  obtain ⟨caller, _, calls⟩ := called_of_mem_goto_zero member
  obtain ⟨rule, found, reads, _⟩ := mem_calledItems.1 calls
  rw [grammar.rules_zero, Option.some.injEq] at found
  subst found
  obtain ⟨reader, listed, inside⟩ := exists_rule_of_nextSymbol reads
  exact grammar.rhs_ne_zero (List.mem_of_getElem? listed) (List.mem_of_getElem? inside) rfl

/-- No transition leads to a state in which the added rule begins. -/
theorem startItem_not_mem_of_transition (moves : grammar.transition state symbol = some next) :
    (⟨0, 0⟩ : Item) ∉ grammar.stateItems next := by
  rw [mem_stateItems_of_transition moves]
  exact startItem_not_mem_goto _ _

end ShiftReduce.Grammar
