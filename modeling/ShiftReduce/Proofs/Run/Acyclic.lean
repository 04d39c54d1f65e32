/-
This file shows that without conflicts a cycle of unit reductions needs a reachable symbol that
derives no terminal string.
-/

import ShiftReduce.Proofs.Run.Entered

namespace ShiftReduce.Grammar

variable (grammar : Grammar)

/-- A reachable symbol occurs in a derivation from the declared start symbol. -/
def Reachable (symbol : Symbol) : Prop :=
  ∃ front back, Derives grammar.declaredRules [grammar.declaredStart] (front ++ symbol :: back)

/-- In a barren grammar some reachable nonterminal derives no terminal string. -/
def Barren : Prop :=
  ∃ symbol, grammar.isNonterminal symbol = true ∧ grammar.Reachable symbol ∧
    ¬ grammar.Productive symbol

/-- A live rule has reachable symbols, and something can follow its left-hand side. -/
structure Live (rule : Rule) : Prop where
  reachable : ∀ symbol ∈ rule.rhs, grammar.Reachable symbol
  followed : ∃ found, grammar.HasColumn found ∧ found ∈ grammar.follow rule.lhs

section Live

variable {grammar} {state : Nat} {item : Item} {rule : Rule} {symbol : Symbol}

theorem reachable_declaredStart : grammar.Reachable grammar.declaredStart :=
  ⟨[], [], Derives.refl _⟩

theorem Reachable.of_rule (reachable : grammar.Reachable rule.lhs)
    (declared : rule ∈ grammar.declaredRules) (inside : symbol ∈ rule.rhs) :
    grammar.Reachable symbol := by
  obtain ⟨front, back, derives⟩ := reachable
  obtain ⟨before, after, split⟩ := List.append_of_mem inside
  have expanded := derives.trans (Relation.ReflTransGen.single (.step front back rule declared))
  rw [split] at expanded
  refine ⟨front ++ before, after ++ back, ?_⟩
  simpa only [List.append_assoc, List.cons_append] using expanded

/-- Derivations from the declared start symbol bring up neither the added one nor the end marker. -/
theorem inner_of_derives {symbols : List Symbol}
    (derives : Derives grammar.declaredRules [grammar.declaredStart] symbols) :
    ∀ symbol ∈ symbols, symbol ≠ 0 ∧ symbol < grammar.endMarker := by
  induction derives with
  | refl =>
      intro symbol listed
      have start := grammar.isNonterminal_iff.1 grammar.isNonterminal_declaredStart
      rw [List.mem_singleton.1 listed]
      constructor
      · simp [declaredStart_eq]
      · exact Nat.lt_of_lt_of_le start grammar.nonterminalCount_le_endMarker
  | tail _ rewrites ih =>
      cases rewrites with
      | step front back rule declared =>
          intro symbol listed
          have known := grammar.declaredRules_subset declared
          simp only [List.mem_append] at listed
          rcases listed with before | inside | behind
          · exact ih symbol (by simp [before])
          · exact ⟨grammar.rhs_ne_zero known inside, grammar.rhs_lt_endMarker known inside⟩
          · exact ih symbol (by simp [behind])

theorem Reachable.inner (reachable : grammar.Reachable symbol) :
    symbol ≠ 0 ∧ symbol < grammar.endMarker := by
  obtain ⟨front, back, derives⟩ := reachable
  exact inner_of_derives derives symbol (by simp)

theorem productive_of_isTerminal (terminal : grammar.isTerminal symbol = true) :
    grammar.Productive symbol :=
  ⟨[symbol], Derives.refl _, by simpa using terminal⟩

/-- Only a nonterminal can be reachable without being productive. -/
theorem Reachable.productive (reachable : grammar.Reachable symbol) (fruitful : ¬ grammar.Barren) :
    grammar.Productive symbol := by
  by_cases nonterminal : symbol < grammar.nonterminalCount
  · by_contra unproductive
    exact fruitful ⟨symbol, grammar.isNonterminal_iff.2 nonterminal, reachable, unproductive⟩
  · exact productive_of_isTerminal
      (grammar.isTerminal_iff.2 ⟨Nat.not_lt.1 nonterminal, reachable.inner.2⟩)

theorem live_zero : grammar.Live ⟨0, [1]⟩ := by
  constructor
  · intro symbol inside
    rw [List.mem_singleton.1 inside, ← grammar.declaredStart_eq]
    exact reachable_declaredStart
  · exact ⟨grammar.endMarker, grammar.hasColumn_endMarker, grammar.endMarker_mem_follow_zero⟩

/-- A terminal begins what a productive symbol derives, and it has a column. -/
theorem exists_terminal_mem_first (productive : grammar.Productive symbol) :
    ∃ found, grammar.HasColumn found ∧ found ∈ grammar.first symbol := by
  obtain ⟨tree, rfl, derivation⟩ := productive_iff.1 productive
  obtain ⟨leaf, leaves, nonempty⟩ := List.exists_cons_of_ne_nil derivation.leaves_ne_nil
  have terminal := derivation.leaves_terminal leaf (by rw [nonempty]; exact List.mem_cons_self)
  exact ⟨leaf, grammar.hasColumn_of_isTerminal terminal,
    grammar.head_leaves_mem_first derivation (by rw [nonempty, List.head?_cons])⟩

variable (useful : ∀ symbol, grammar.Reachable symbol → grammar.Productive symbol)

include useful

/-- Whatever reads a symbol behind a dot passes on that something can follow it. -/
theorem Live.followed_of_mem (live : grammar.Live rule) (listed : rule ∈ grammar.rules)
    (inside : symbol ∈ rule.rhs) :
    ∃ found, grammar.HasColumn found ∧ found ∈ grammar.follow symbol := by
  obtain ⟨front, back, split⟩ := List.append_of_mem inside
  cases back with
  | nil =>
      obtain ⟨found, column, follows⟩ := live.followed
      exact ⟨found, column, grammar.mem_follow_of_last listed split follows⟩
  | cons next back =>
      have behind : next ∈ rule.rhs := by simp [split]
      obtain ⟨found, column, first⟩ :=
        exists_terminal_mem_first (useful next (live.reachable next behind))
      exact ⟨found, column, grammar.mem_follow_of_next listed split first⟩

/-- Calls lead from live rules to live rules. -/
theorem live_of_calledFrom {seed : ItemSet} (called : grammar.CalledFrom seed item)
    (known : ∀ item ∈ seed, ∀ rule, grammar.rules[item.rule]? = some rule → grammar.Live rule)
    (found : grammar.rules[item.rule]? = some rule) : grammar.Live rule := by
  induction called generalizing rule with
  | seed member => exact known _ member rule found
  | @call caller called _ calls ih =>
      obtain ⟨other, again, reads, _⟩ := mem_calledItems.1 calls
      obtain rfl := Option.some.inj (again.symm.trans found)
      obtain ⟨calling, located, here⟩ := exists_rule_of_nextSymbol reads
      have live := ih located
      have listed := List.mem_of_getElem? located
      have inside := List.mem_of_getElem? here
      have later : called.rule ≠ 0 := by
        intro added
        rw [added, grammar.rules_zero, Option.some.injEq] at again
        rw [← again] at inside
        exact grammar.rhs_ne_zero listed inside rfl
      have declared := grammar.mem_declaredRules.2 ⟨called.rule, later, found⟩
      exact ⟨fun symbol within => (live.reachable _ inside).of_rule declared within,
        live.followed_of_mem useful listed inside⟩

/-- All rules of the items in states are live. -/
theorem live_of_mem_stateItems (member : item ∈ grammar.stateItems state)
    (found : grammar.rules[item.rule]? = some rule) : grammar.Live rule := by
  refine forall_mem_states (fun items => ∀ item ∈ items, ∀ rule,
    grammar.rules[item.rule]? = some rule → grammar.Live rule) ?_ ?_ _
    (stateItems_mem_states member) item member rule found
  · intro item member rule found
    apply live_of_calledFrom useful (mem_closure.1 member) _ found
    intro first inside rule found
    rw [OrderedSet.mem_ofList, List.mem_singleton] at inside
    rw [inside, grammar.rules_zero, Option.some.injEq] at found
    exact found ▸ live_zero
  · intro items symbol known item member rule found
    apply live_of_calledFrom useful (mem_closure.1 member) _ found
    intro first inside rule found
    obtain ⟨source, before, _, rfl⟩ := mem_advanced.1 inside
    exact known source before rule found

end Live

section Cycle

variable {grammar} {state : Nat} {lookahead symbol : Symbol}

/-- An item that reads the root of a derivation tree lets its state shift the first leaf. -/
theorem exists_shift {tree : Tree} (derivation : tree.IsDerivation grammar) {item : Item}
    (member : item ∈ grammar.stateItems state)
    (reads : grammar.nextSymbol item = some tree.symbol) :
    ∃ found next, tree.leaves.head? = some found ∧ grammar.transition state found = some next := by
  induction derivation generalizing item with
  | @leaf terminal _ =>
      obtain ⟨next, moves⟩ := exists_transition member reads
      exact ⟨terminal, next, by rw [Tree.leaves_leaf, List.head?_cons], moves⟩
  | @node rule children declared instantiated below ih =>
      have inner := Tree.children_ne_nil declared instantiated
      obtain ⟨child, rest, rfl⟩ := List.exists_cons_of_ne_nil inner
      obtain ⟨index, _, found⟩ := grammar.mem_declaredRules.1 declared
      have start : (⟨index, 0⟩ : Item) ∈ grammar.stateItems state :=
        called_mem_stateItems member (mem_calledItems.2 ⟨rule, found, reads, rfl⟩)
      have first : grammar.nextSymbol ⟨index, 0⟩ = some child.symbol := by
        rw [nextSymbol_of_rule found, ← instantiated]
        rfl
      obtain ⟨leaf, next, leading, moves⟩ := ih child List.mem_cons_self start first
      refine ⟨leaf, next, ?_, moves⟩
      rw [Tree.leaves_node inner, Tree.leavesOf, List.head?_append, leading]
      rfl

/-- What follows a symbol follows everything that unit reductions lead back to. -/
theorem follow_of_unitSteps {before after : Symbol}
    (units : Relation.TransGen (grammar.UnitStep state lookahead) before after) {found : Symbol}
    (follows : found ∈ grammar.follow after) : found ∈ grammar.follow before := by
  induction units using Relation.TransGen.head_induction_on with
  | single unit =>
      obtain ⟨_, _, _, _, listed⟩ := unit
      exact grammar.mem_follow_of_unit (List.mem_of_getElem? listed) follows
  | head unit _ ih =>
      obtain ⟨_, _, _, _, listed⟩ := unit
      exact grammar.mem_follow_of_unit (List.mem_of_getElem? listed) ih

/-- The item of a unit rule by which the table reduces to a symbol on a cycle. -/
def Cyclic (grammar : Grammar) (state : Nat) (lookahead : Symbol) (item : Item) : Prop :=
  item.dot = 0 ∧ ∃ before after next, grammar.transition state before = some next ∧
    grammar.table.action next lookahead = some (.reduce item.rule) ∧
    grammar.rules[item.rule]? = some ⟨after, [before]⟩ ∧
    grammar.UnitCycle state lookahead after

variable (conflictFree : grammar.table.hasConflict = false)

include conflictFree

/-- The calls of a state enter each cycle of unit reductions from an item outside. -/
theorem exists_outside {item : Item} (member : item ∈ grammar.stateItems state)
    (cyclic : grammar.Cyclic state lookahead item) :
    ∃ outside ∈ grammar.stateItems state, ¬ grammar.Cyclic state lookahead outside ∧
      ∃ symbol, grammar.nextSymbol outside = some symbol ∧
        grammar.UnitCycle state lookahead symbol := by
  obtain ⟨seed, initial, members⟩ := exists_seed grammar state
  have called := (members item).1 member
  clear member
  induction called with
  | seed inside =>
      obtain ⟨start, _, _, _, moves, action, found, _⟩ := cyclic
      exact absurd (initial _ inside start) (justified_of_unit conflictFree moves action found).1
  | @call caller item chain calls ih =>
      by_cases inner : grammar.Cyclic state lookahead caller
      · exact ih inner
      · obtain ⟨_, _, after, _, _, _, found, cycle⟩ := cyclic
        obtain ⟨rule, again, reads, _⟩ := mem_calledItems.1 calls
        obtain rfl := Option.some.inj (again.symm.trans found)
        exact ⟨caller, (members caller).2 chain, inner, after, reads, cycle⟩

/--
When a state reduces by one rule on everything that can follow a symbol, an item that has just read
this symbol is the complete item of this rule.
-/
theorem eq_of_reduces (useful : ∀ symbol, grammar.Reachable symbol → grammar.Productive symbol)
    {number dot index : Nat} {rule : Rule} (located : grammar.rules[number]? = some rule)
    (here : rule.rhs[dot]? = some symbol)
    (advanced : (⟨number, dot + 1⟩ : Item) ∈ grammar.stateItems state)
    (reduces : ∀ found ∈ grammar.follow symbol,
      .reduce index ∈ grammar.derivedActions state found) :
    number = index ∧ dot + 1 = rule.rhs.length := by
  have listed := List.mem_of_getElem? located
  have live := live_of_mem_stateItems useful advanced located
  obtain ⟨bound, current⟩ := List.getElem?_eq_some_iff.1 here
  have split : rule.rhs = rule.rhs.take dot ++ symbol :: rule.rhs.drop (dot + 1) := by
    rw [← current, List.getElem_cons_drop, List.take_append_drop]
  cases behind : rule.rhs.drop (dot + 1) with
  | nil =>
      have ending : dot + 1 = rule.rhs.length :=
        Nat.le_antisymm bound (List.drop_eq_nil_iff.1 behind)
      rw [behind] at split
      refine ⟨?_, ending⟩
      by_cases added : number = 0
      · rw [added, grammar.rules_zero, Option.some.injEq] at located
        rw [← located] at ending split
        have accepts : .accept ∈ grammar.derivedActions state grammar.endMarker := by
          rw [ending, added] at advanced
          exact accept_mem_derivedActions.2 ⟨advanced, rfl⟩
        have follows := grammar.mem_follow_of_last (located ▸ listed) split
          grammar.endMarker_mem_follow_zero
        have same := derivedActions_unique conflictFree grammar.hasColumn_endMarker
          (reduces _ follows) accepts
        cases same
      · obtain ⟨found, column, followed⟩ := live.followed
        have follows := grammar.mem_follow_of_last listed split followed
        have competes : .reduce number ∈ grammar.derivedActions state found :=
          reduce_mem_derivedActions.2 ⟨rule, added, located, ending ▸ advanced, followed⟩
        have same := derivedActions_unique conflictFree column competes (reduces _ follows)
        exact Action.reduce.inj same
  | cons next rest =>
      rw [behind] at split
      have inside : next ∈ rule.rhs := by rw [split]; simp
      obtain ⟨tree, root, derivation⟩ :=
        productive_iff.1 (useful next (live.reachable next inside))
      have reads : grammar.nextSymbol ⟨number, dot + 1⟩ = some tree.symbol := by
        rw [nextSymbol_of_rule located, ← List.head?_drop, behind, root]
        rfl
      obtain ⟨found, target, leading, moves⟩ := exists_shift derivation advanced reads
      have first := grammar.head_leaves_mem_first derivation leading
      have follows := grammar.mem_follow_of_next listed split (root ▸ first)
      have terminal := derivation.leaves_terminal found (List.mem_of_mem_head? leading)
      have same := derivedActions_unique conflictFree (grammar.hasColumn_of_isTerminal terminal)
        (reduces _ follows) (shift_mem_derivedActions.2 moves)
      cases same

/-- When all reachable symbols are productive, an item outside the cycle would make a conflict. -/
theorem not_unitCycle (useful : ∀ symbol, grammar.Reachable symbol → grammar.Productive symbol) :
    ¬ grammar.UnitCycle state lookahead symbol := by
  intro cycle
  obtain ⟨earlier, _, before, entry, entering, reducing, unitRule⟩ :=
    Relation.TransGen.tail'_iff.1 cycle
  have inside := (justified_of_unit conflictFree entering reducing unitRule).2.1
  obtain ⟨⟨number, dot⟩, member, outside, read, reads, again⟩ := exists_outside conflictFree inside
    ⟨rfl, earlier, symbol, before, entering, reducing, unitRule, cycle⟩
  -- From here on the cycle is looked at from the symbol that the item outside reads.
  obtain ⟨target, unit, back⟩ := Relation.TransGen.head'_iff.1 again
  have around := Relation.TransGen.tail' back unit
  obtain ⟨next, index, moves, action, found⟩ := unit
  obtain ⟨later, start, _⟩ := justified_of_unit conflictFree moves action found
  have unitReads : grammar.nextSymbol ⟨index, 0⟩ = some read := by
    rw [nextSymbol_of_rule found]
    rfl
  have complete : (⟨index, 1⟩ : Item) ∈ grammar.stateItems next :=
    (mem_stateItems_succ moves).2 ⟨start, unitReads⟩
  have reduces : ∀ other ∈ grammar.follow read,
      .reduce index ∈ grammar.derivedActions next other := by
    intro other follows
    have follows := follow_of_unitSteps (around.trans_left back) follows
    exact reduce_mem_derivedActions.2 ⟨_, later, found, complete, follows⟩
  have advanced : (⟨number, dot + 1⟩ : Item) ∈ grammar.stateItems next :=
    (mem_stateItems_succ moves).2 ⟨member, reads⟩
  obtain ⟨rule, located, here⟩ := exists_rule_of_nextSymbol reads
  obtain ⟨rfl, ending⟩ := eq_of_reduces conflictFree useful located here advanced reduces
  obtain rfl := Option.some.inj (located.symm.trans found)
  obtain rfl : dot = 0 := Nat.succ.inj ending
  exact outside ⟨rfl, read, target, next, moves, action, found, around⟩

end Cycle

end ShiftReduce.Grammar
