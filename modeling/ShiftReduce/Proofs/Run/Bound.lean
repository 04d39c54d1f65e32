/-
This file bounds the steps of a run that never comes back to an earlier configuration.
-/

import Mathlib.Data.Finset.NAry
import Mathlib.Data.Finset.Option
import Mathlib.Data.Finset.Prod
import ShiftReduce.Proofs.Run.Trajectory

namespace ShiftReduce.Configuration

variable (grammar : Grammar)

/-- A nonterminal on top is told apart by the height below it, and a terminal is not. -/
def topKey (frame : Frame) (rest : List Frame) : Option (Nat × Nat) :=
  if grammar.isNonterminal frame.symbol then some (rest.length, frame.symbol) else none

/-- The key of a configuration consists of the input that is left and the top of the stack. -/
def key (configuration : Configuration) : Option (Nat × Option (Nat × Nat)) :=
  match configuration.stack with
  | [] => none
  | frame :: rest => some (configuration.input.length, topKey grammar frame rest)

/-- These are the keys of all configurations with at most so many frames and terminals. -/
def keys (size : Nat) : Finset (Option (Nat × Option (Nat × Nat))) :=
  Finset.insertNone (Finset.range size ×ˢ
    Finset.insertNone (Finset.range size ×ˢ Finset.range grammar.nonterminalCount))

/-- No configuration of a run is larger than its input. -/
def size (configuration : Configuration) : Nat :=
  configuration.stack.length + configuration.input.length

variable {grammar} {before after : Configuration}

theorem card_keys (count : Nat) : (keys grammar count).card = grammar.stepLimit count := by
  rw [keys, Finset.card_insertNone, Finset.card_product, Finset.card_insertNone,
    Finset.card_product, Finset.card_range, Finset.card_range, Grammar.stepLimit, Nat.mul_comm count
    grammar.nonterminalCount]

theorem key_mem_keys {count : Nat} (fits : before.size ≤ count) :
    key grammar before ∈ keys grammar count := by
  obtain ⟨stack, input⟩ := before
  cases stack with
  | nil => simp [key, keys]
  | cons frame rest =>
      simp only [size, List.length_cons] at fits
      have inputBound : input.length < count := by omega
      have heightBound : rest.length < count := by omega
      by_cases nonterminal : grammar.isNonterminal frame.symbol = true
      · have symbolBound := grammar.isNonterminal_iff.1 nonterminal
        simp [key, keys, topKey, nonterminal, inputBound, heightBound, symbolBound]
      · simp [key, keys, topKey, nonterminal, inputBound]

/-- A reduction takes at least one frame and no more than there are. -/
theorem length_rhs_bounds (linked : Linked grammar before.stack) {index : Nat} {rule : Rule}
    (found : grammar.rules[index]? = some rule)
    (complete : (⟨index, rule.rhs.length⟩ : Item) ∈ grammar.stateItems before.top) :
    1 ≤ rule.rhs.length ∧ rule.rhs.length ≤ before.stack.length := by
  have inner := grammar.rhs_ne_nil (List.mem_of_getElem? found)
  obtain ⟨_, covered, _⟩ := spelled_of_item linked found complete
  exact ⟨List.length_pos_iff.2 inner, covered⟩

variable (conflictFree : grammar.table.hasConflict = false)

include conflictFree

theorem Consistent.size_step (consistent : Consistent grammar before)
    (continues : Step grammar before after) : after.size ≤ before.size := by
  have moves := consistent.moves conflictFree continues
  generalize before.move grammar grammar.table = move at moves
  cases moves with
  | shift _ =>
      simp only [size, List.length_cons]
      omega
  | reduce _ found complete _ _ =>
      have bounds := length_rhs_bounds consistent.linked found complete
      simp only [size, List.length_cons, List.length_drop] at bounds ⊢
      omega

theorem Consistent.size_reaches (consistent : Consistent grammar before)
    (reaches : Reaches grammar before after) : after.size ≤ before.size := by
  induction reaches with
  | refl => exact Nat.le_refl _
  | tail earlier continues ih =>
      have middle := consistent.reaches conflictFree earlier
      exact Nat.le_trans (middle.size_step conflictFree continues) ih

/--
As long as no terminal is read, the stack does not grow, and everything below the top stays as it
is while the height does.
-/
theorem Consistent.shape_reaches (consistent : Consistent grammar before)
    (reaches : Reaches grammar before after) :
    after.input.length ≤ before.input.length ∧
      (after.input.length = before.input.length → after.input = before.input ∧
        after.stack.length ≤ before.stack.length ∧
        (after.stack.length = before.stack.length → after.stack.tail = before.stack.tail)) := by
  induction reaches with
  | refl => exact ⟨Nat.le_refl _, fun _ => ⟨rfl, Nat.le_refl _, fun _ => rfl⟩⟩
  | @tail middle last earlier continues ih =>
      have consistentMiddle := consistent.reaches conflictFree earlier
      have moves := consistentMiddle.moves conflictFree continues
      obtain ⟨shorter, kept⟩ := ih
      generalize middle.move grammar grammar.table = move at moves
      cases moves with
      | shift _ =>
          simp only [List.length_cons] at shorter
          constructor
          · exact Nat.le_of_succ_le shorter
          · intro same
            exact absurd same (Nat.ne_of_lt shorter)
      | @reduce stack input index state rule _ found complete _ _ =>
          have bounds := length_rhs_bounds consistentMiddle.linked found complete
          refine ⟨shorter, fun same => ?_⟩
          obtain ⟨sameInput, lower, sameTail⟩ := kept same
          simp only [List.length_cons, List.length_drop, List.tail_cons] at bounds lower ⊢
          refine ⟨sameInput, by omega, fun sameHeight => ?_⟩
          have single : rule.rhs.length = 1 := by omega
          rw [single, List.drop_one]
          exact sameTail (by simp only; omega)

/-- Behind a step the stack has a top frame, and it is a nonterminal unless a terminal was read. -/
theorem Consistent.top_of_steps (consistent : Consistent grammar before)
    (steps : Relation.TransGen (Step grammar) before after) :
    ∃ frame rest, after.stack = frame :: rest ∧
      (grammar.isNonterminal frame.symbol = true ∨ after.input.length < before.input.length) := by
  obtain ⟨middle, earlier, continues⟩ := Relation.TransGen.tail'_iff.1 steps
  have moves := (consistent.reaches conflictFree earlier).moves conflictFree continues
  have shorter := (consistent.shape_reaches conflictFree earlier).1
  generalize middle.move grammar grammar.table = move at moves
  cases moves with
  | shift _ => exact ⟨_, _, rfl, .inr shorter⟩
  | reduce _ found _ _ _ =>
      exact ⟨_, _, rfl, .inl (grammar.isNonterminal_lhs (List.mem_of_getElem? found))⟩

/-- Two configurations of a run with the same key are the same. -/
theorem Consistent.eq_of_key (consistent : Consistent grammar before)
    (steps : Relation.TransGen (Step grammar) before after)
    (same : key grammar before = key grammar after) : before = after := by
  have reaches : Reaches grammar before after := steps.to_reflTransGen
  have consistentAfter := consistent.reaches conflictFree reaches
  have shape := (consistent.shape_reaches conflictFree reaches).2
  obtain ⟨frame, rest, stacked, topmost⟩ := consistent.top_of_steps conflictFree steps
  obtain ⟨stack, input⟩ := before
  obtain ⟨newStack, newInput⟩ := after
  cases stacked
  cases stack with
  | nil => cases same
  | cons other below =>
      obtain ⟨symbol, state⟩ := other
      obtain ⟨newSymbol, newState⟩ := frame
      simp only [key, Option.some.injEq, Prod.mk.injEq] at same
      obtain ⟨sameLength, sameTop⟩ := same
      have nonterminal := topmost.resolve_right (by simp only; omega)
      simp only [topKey, nonterminal, if_true] at sameTop
      split at sameTop
      · obtain ⟨sameHeight, sameSymbol⟩ := Prod.mk.inj (Option.some.inj sameTop)
        obtain ⟨sameInput, _, sameTail⟩ := shape sameLength.symm
        have inputs : newInput = input := sameInput
        have tails : rest = below := sameTail (congrArg Nat.succ sameHeight.symm)
        have entered := consistent.linked.1
        have enteredAfter := consistentAfter.linked.1
        simp only [tails, ← sameSymbol] at entered enteredAfter
        have sameState : state = newState := Option.some.inj (entered.symm.trans enteredAfter)
        rw [sameSymbol, sameState, tails, inputs]
      · cases sameTop

/-- The configurations of a run that does not come back to an earlier one have different keys. -/
theorem Consistent.nodup_keys (consistent : Consistent grammar before)
    {visited : List Configuration} {last : Configuration}
    (passes : Passes grammar before visited last)
    (onward : ∀ between, Reaches grammar before between → ¬ Recurs grammar between) :
    ((visited ++ [last]).map (key grammar)).Nodup := by
  rw [List.Nodup, List.pairwise_map]
  apply passes.pairwise.imp_of_mem
  intro first second listed _ steps same
  have early := passes.reaches_of_mem listed
  have again := (consistent.reaches conflictFree early).eq_of_key conflictFree steps same
  subst again
  exact onward first early steps

/-- A run that does not come back to an earlier configuration stays below the step limit. -/
theorem length_lt_stepLimit {terminals : List Symbol}
    (terminal : ∀ symbol ∈ terminals, grammar.isTerminal symbol = true)
    {visited : List Configuration} {last : Configuration}
    (passes : Passes grammar (.initial terminals) visited last)
    (onward : ∀ between, Reaches grammar (.initial terminals) between → ¬ Recurs grammar between) :
    visited.length < grammar.stepLimit terminals.length := by
  have consistent := consistent_initial terminal
  have distinct := consistent.nodup_keys conflictFree passes onward
  have covered : ((visited ++ [last]).map (key grammar)).toFinset ⊆
      keys grammar terminals.length := by
    intro found listed
    obtain ⟨between, inside, rfl⟩ := List.mem_map.1 (List.mem_toFinset.1 listed)
    have fits := consistent.size_reaches conflictFree (passes.reaches_of_mem inside)
    exact key_mem_keys (by simpa [size, initial] using fits)
  have bound := Finset.card_le_card covered
  rw [List.toFinset_card_of_nodup distinct, card_keys, List.length_map, List.length_append] at bound
  exact bound

end ShiftReduce.Configuration
