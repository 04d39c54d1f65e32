/-
This file bounds the reductions that a run makes between two shifts.
-/

import Mathlib.Order.Interval.Finset.Nat
import ShiftReduce.Proofs.Run.Halting
import ShiftReduce.Proofs.Run.Prefixes

namespace ShiftReduce

/-- The symbols of a stack stand between its states. -/
def StackEntry.isSymbol : StackEntry → Bool
  | .symbol _ => true
  | .state _ => false

/-- So many symbols are on the stack before the move. -/
def TraceStep.height (step : TraceStep) : Nat :=
  step.stack.countP StackEntry.isSymbol

def TraceStep.reduces (step : TraceStep) : Bool :=
  step.reduced.isSome

/-- So many reductions come before the next shift, or before the end when no shift comes. -/
def reductionsToShift (steps : List TraceStep) : Nat :=
  (steps.takeWhile fun step => !step.shifts).countP TraceStep.reduces

namespace Configuration

variable {grammar : Grammar} {first before after last : Configuration}
  {visited : List Configuration}

/-- These are the keys behind reductions with so many terminals left and so many frames. -/
def reducedKeys (grammar : Grammar) (left height : Nat) :
    Finset (Option (Nat × Option (Nat × Nat))) :=
  (Finset.range height ×ˢ Finset.Ico 1 grammar.nonterminalCount).image
    fun top => some (left, some top)

theorem card_reducedKeys_le (left height : Nat) :
    (reducedKeys grammar left height).card ≤ (grammar.nonterminalCount - 1) * height := by
  apply Finset.card_image_le.trans
  rw [Finset.card_product, Finset.card_range, Nat.card_Ico, Nat.mul_comm]

theorem reducedKeys_mono {left lower upper : Nat} (shorter : lower ≤ upper) :
    reducedKeys grammar left lower ⊆ reducedKeys grammar left upper := by
  apply Finset.image_subset_image
  exact Finset.product_subset_product_left (Finset.range_mono shorter)

theorem height_step (configuration : Configuration) :
    (configuration.step grammar).height = configuration.stack.length := by
  obtain ⟨stack, input⟩ := configuration
  simp only [TraceStep.height, step]
  induction stack with
  | nil => rfl
  | cons frame rest ih =>
      rw [Driver.entries_cons, Driver.push, List.countP_append, ih]
      rfl

theorem reduces_step_iff {configuration : Configuration} :
    (configuration.step grammar).reduces = true ↔
      ∃ index, configuration.move grammar grammar.table = .reduce index := by
  rw [TraceStep.reduces, TraceStep.reduced, step]
  cases configuration.move grammar grammar.table <;> simp

theorem shifts_step_iff {configuration : Configuration} :
    (configuration.step grammar).shifts = true ↔
      ∃ state, configuration.move grammar grammar.table = .shift state := by
  rw [TraceStep.shifts, step]
  cases configuration.move grammar grammar.table <;> simp

/-- The last configuration does not shift, since a shift always leads on. -/
theorem shifts_of_ends (ends : last.next grammar = none) :
    (last.step grammar).shifts = false := by
  rw [← Bool.not_eq_true, shifts_step_iff]
  rintro ⟨state, shifting⟩
  simp [next, shifting, apply] at ends

theorem reductionsToShift_cons (step : TraceStep) (rest : List TraceStep) :
    reductionsToShift (step :: rest) = match step.move with
      | .shift _ => 0
      | .reduce _ => reductionsToShift rest + 1
      | _ => reductionsToShift rest := by
  obtain ⟨stack, input, move⟩ := step
  cases move with
  | reduce _ => exact List.countP_cons_of_pos rfl
  | shift _ | accept | refuse _ => rfl

variable (conflictFree : grammar.table.hasConflict = false)

include conflictFree

/-- A reduction keeps the input, it leaves the stack no higher, and its nonterminal is on top. -/
theorem Consistent.key_of_reduces (consistent : before.Consistent grammar)
    (continues : Step grammar before after) (reduces : (before.step grammar).reduces = true) :
    after.input = before.input ∧ after.stack.length ≤ before.stack.length ∧
      key grammar after ∈ reducedKeys grammar before.input.length before.stack.length := by
  have linked := consistent.linked
  have moves := consistent.moves conflictFree continues
  obtain ⟨index, reducing⟩ := reduces_step_iff.1 reduces
  rw [reducing] at moves
  cases moves with
  | @reduce stack input _ state rule later found complete _ _ =>
      have bounds := length_rhs_bounds linked found complete
      have listed := List.mem_of_getElem? found
      have declared := grammar.mem_declaredRules.2 ⟨index, later, found⟩
      have positive := Nat.one_le_iff_ne_zero.2 (grammar.lhs_ne_zero declared)
      have inner := grammar.wellFormed.lhs_nonterminal rule listed
      have nonterminal := grammar.isNonterminal_lhs listed
      simp only at bounds
      refine ⟨rfl, ?_, ?_⟩
      · simp only [List.length_cons, List.length_drop]
        omega
      · have lower : stack.length - rule.rhs.length < stack.length := by omega
        simp [key, topKey, reducedKeys, nonterminal, positive, inner, lower]

/-- Behind each of some reductions the key is one of those that the first stack leaves room for. -/
theorem Consistent.keys_of_reductions (consistent : first.Consistent grammar)
    (passes : Passes grammar first visited last)
    (reduce : ∀ between ∈ visited, (between.step grammar).reduces = true) :
    ∀ between ∈ visited ++ [last], between = first ∨
      key grammar between ∈ reducedKeys grammar first.input.length first.stack.length := by
  induction passes with
  | stay configuration => simp
  | @step before after last visited continues _ ih =>
      rw [List.forall_mem_cons] at reduce
      obtain ⟨sameInput, shorter, reduced⟩ :=
        consistent.key_of_reduces conflictFree continues reduce.1
      have later := ih (consistent.step conflictFree continues) reduce.2
      intro between listed
      rcases List.mem_cons.1 listed with same | behind
      · exact .inl same
      · right
        rcases later between behind with rfl | known
        · exact reduced
        · rw [sameInput] at known
          exact reducedKeys_mono shorter known

/-- Some reductions in a row are no more than the nonterminals that fit on each height. -/
theorem Consistent.length_le_of_reductions (consistent : first.Consistent grammar)
    (passes : Passes grammar first visited last)
    (reduce : ∀ between ∈ visited, (between.step grammar).reduces = true)
    (onward : ∀ between, Reaches grammar first between → ¬ Recurs grammar between) :
    visited.length ≤ (grammar.nonterminalCount - 1) * first.stack.length := by
  have distinct := consistent.nodup_keys conflictFree passes onward
  have known := consistent.keys_of_reductions conflictFree passes reduce
  cases passes with
  | stay _ => exact Nat.zero_le _
  | @step _ after _ visited continues passes =>
      rw [List.cons_append, List.map_cons] at distinct
      have covered : ((visited ++ [last]).map (key grammar)).toFinset ⊆
          reducedKeys grammar first.input.length first.stack.length := by
        intro found listed
        obtain ⟨between, inside, rfl⟩ := List.mem_map.1 (List.mem_toFinset.1 listed)
        rcases known between (List.mem_cons_of_mem _ inside) with rfl | reduced
        · have again := Relation.TransGen.head' continues (passes.reaches_of_mem inside)
          exact absurd again (onward _ Relation.ReflTransGen.refl)
        · exact reduced
      have bound := Finset.card_le_card covered
      rw [List.toFinset_card_of_nodup distinct.of_cons] at bound
      simpa using bound.trans (card_reducedKeys_le _ _)

/-- Up to the next shift a run makes reductions in a row. -/
theorem Consistent.exists_reductions (consistent : first.Consistent grammar)
    (passes : Passes grammar first visited last) (ends : last.next grammar = none) :
    ∃ reducing stop, Passes grammar first reducing stop ∧
      (∀ between ∈ reducing, (between.step grammar).reduces = true) ∧
      reductionsToShift ((visited ++ [last]).map (Configuration.step grammar)) =
        reducing.length := by
  induction passes with
  | stay configuration =>
      refine ⟨[], configuration, .stay _, by simp, ?_⟩
      rw [List.nil_append, List.map_singleton, reductionsToShift_cons, Configuration.step]
      rcases moves_or_ends conflictFree consistent.linked consistent.readable with
        ⟨after, moves⟩ | accepts | refuses
      · rw [moves.next conflictFree consistent.readable] at ends
        cases ends
      · rw [accepts]
        rfl
      · rw [refuses]
        rfl
  | @step before after last visited continues _ ih =>
      have moves := consistent.moves conflictFree continues
      rw [List.cons_append, List.map_cons, reductionsToShift_cons, Configuration.step]
      cases decided : before.move grammar grammar.table with
      | shift state => exact ⟨[], before, .stay _, by simp, rfl⟩
      | reduce index =>
          obtain ⟨reducing, stop, passes, reduce, count⟩ :=
            ih (consistent.step conflictFree continues) ends
          refine ⟨before :: reducing, stop, .step continues passes, ?_, congrArg Nat.succ count⟩
          rw [List.forall_mem_cons]
          exact ⟨reduces_step_iff.2 ⟨index, decided⟩, reduce⟩
      | accept | refuse _ =>
          rw [decided] at moves
          cases moves

theorem Consistent.reductionsToShift_le (consistent : first.Consistent grammar)
    (passes : Passes grammar first visited last) (ends : last.next grammar = none) :
    reductionsToShift ((visited ++ [last]).map (Configuration.step grammar)) ≤
      (grammar.nonterminalCount - 1) * first.stack.length := by
  obtain ⟨reducing, stop, reductions, reduce, count⟩ :=
    consistent.exists_reductions conflictFree passes ends
  have halts : Halts grammar first := ⟨last, passes.reaches, ends⟩
  rw [count]
  apply consistent.length_le_of_reductions conflictFree reductions reduce
  exact fun between reaches recurs => recurs.not_halts (halts.of_reaches reaches)

end Configuration

namespace CompiledGrammar

open ShiftReduce.Configuration

variable {compiled : CompiledGrammar} {sentence : String} {terminals : List Symbol}

/--
The reductions before the first shift, and behind each shift those before the next one, of a run
that halts.
-/
theorem reductions_of_halts (conflictFree : compiled.hasConflict = false)
    (spells : compiled.grammar.Spells sentence terminals)
    (halts : Halts compiled.grammar (.initial terminals)) :
    reductionsToShift (compiled.run sentence).steps = 0 ∧
    ∀ front shifted later, (compiled.run sentence).steps = front ++ shifted :: later →
      shifted.shifts = true → ∃ next rest, later = next :: rest ∧
        reductionsToShift later ≤ (compiled.grammar.nonterminalCount - 1) * next.height := by
  have unblocked := table_hasConflict conflictFree
  have consistent := consistent_initial spells.terminal
  obtain ⟨last, reaches, ends⟩ := halts
  obtain ⟨visited, passes⟩ := reaches.passes
  rw [run_of_ends conflictFree spells passes ends]
  constructor
  · simpa [initial] using consistent.reductionsToShift_le unblocked passes ends
  · intro front shifted later split shifts
    obtain ⟨between, rest, reached, onward, rfl, same⟩ := passes.of_steps split
    cases onward with
    | stay _ =>
        rw [shifts_of_ends ends] at shifts
        cases shifts
    | @step _ next _ visited continues onward =>
        rw [List.cons_append, List.map_cons, List.cons.injEq] at same
        obtain ⟨_, rfl⟩ := same
        have consistentNext := (consistent.reaches unblocked reached).step unblocked continues
        obtain ⟨rest, first⟩ := onward.exists_cons
        refine ⟨next.step _, rest.map (Configuration.step _), by rw [first, List.map_cons], ?_⟩
        rw [height_step]
        exact consistentNext.reductionsToShift_le unblocked onward ends

/--
Without conflicts a run over a tokenized sentence makes no reduction before its first shift, and
behind a shift it makes at most as many as there are symbols on the stack for each declared
nonterminal, unless a reachable nonterminal derives no terminal string. So a run comes to a cycle of
unit reductions only beside such a nonterminal.
-/
theorem reductions_bounded (compiled : CompiledGrammar)
    (conflictFree : compiled.hasConflict = false) {sentence : String} {tokens : List Symbol}
    (tokenized : compiled.grammar.tokenize sentence = .ok tokens) :
    (compiled.grammar.Barren ∨ Halts compiled.grammar (.initial tokens.dropLast) ∧
      reductionsToShift (compiled.run sentence).steps = 0 ∧
      ∀ front shifted later, (compiled.run sentence).steps = front ++ shifted :: later →
        shifted.shifts = true → ∃ next rest, later = next :: rest ∧
          reductionsToShift later ≤ (compiled.grammar.nonterminalCount - 1) * next.height) ∧
    ((∃ between, Reaches compiled.grammar (.initial tokens.dropLast) between ∧
        between.OnUnitCycle compiled.grammar) → compiled.grammar.Barren) := by
  have unblocked := table_hasConflict conflictFree
  obtain ⟨terminals, spells, rfl⟩ := Grammar.exists_spells_of_tokenize tokenized
  rw [List.dropLast_concat]
  by_cases barren : compiled.grammar.Barren
  · exact ⟨.inl barren, fun _ => barren⟩
  · have useful : ∀ symbol, compiled.grammar.Reachable symbol →
        compiled.grammar.Productive symbol :=
      fun symbol reachable => reachable.productive barren
    have acyclic : ¬ ∃ between, Reaches compiled.grammar (.initial terminals) between ∧
        between.OnUnitCycle compiled.grammar := by
      rintro ⟨between, _, frame, rest, _, cycle⟩
      exact Grammar.not_unitCycle unblocked useful cycle
    have halts : Halts compiled.grammar (.initial terminals) := by
      rw [← endless_iff unblocked spells.terminal, endless_iff_not_halts, not_not] at acyclic
      exact acyclic
    exact ⟨.inr ⟨halts, reductions_of_halts conflictFree spells halts⟩,
      fun cycle => absurd cycle acyclic⟩

/-- Behind the only shift of a chain of unit rules there is no room for one more reduction. -/
theorem reductions_bounded_units : ∃ compiled shifted next rest,
    ofText "S A\nA B\nB x" = .ok compiled ∧
      (compiled.run "x").steps = shifted :: next :: rest ∧ shifted.shifts = true ∧
      reductionsToShift (next :: rest) = 3 ∧
      reductionsToShift (next :: rest) ≤ (compiled.grammar.nonterminalCount - 1) * next.height ∧
      (compiled.grammar.nonterminalCount - 1) * next.height = 3 := by
  let lowest : Tree := .node 3 [.leaf 4]
  let middle : Tree := .node 2 [lowest]
  let highest : Tree := .node 1 [middle]
  obtain ⟨compiled, compiles, evaluated⟩ := exists_of_ofText "S A\nA B\nB x"
    (fun compiled => !compiled.hasConflict &&
      decide ((compiled.grammar.tokenize "x").toOption = some [4, 5] ∧
        compiled.grammar.nonterminalCount = 4 ∧ lowest.IsDerivation compiled.grammar ∧
        middle.IsDerivation compiled.grammar ∧ highest.IsDerivation compiled.grammar ∧
        (compiled.run "x").steps.map TraceStep.shifts = [true, false, false, false, false] ∧
        (compiled.run "x").steps.tail.map TraceStep.height = [1, 1, 1, 1] ∧
        reductionsToShift (compiled.run "x").steps.tail = 3))
    (by decide +kernel)
  simp only [Bool.and_eq_true, Bool.not_eq_true', decide_eq_true_eq] at evaluated
  obtain ⟨conflictFree, tokens, count, low, mid, high, moves, heights, reductions⟩ := evaluated
  have tokenized := toOption_eq_some_iff.1 tokens
  have fruitful : ¬ compiled.grammar.Barren := by
    rintro ⟨(symbol : Nat), nonterminal, reachable, unproductive⟩
    have later : symbol ≠ 0 := reachable.inner.1
    have bound : symbol < 4 := count ▸ compiled.grammar.isNonterminal_iff.1 nonterminal
    apply unproductive
    obtain rfl | rfl | rfl : symbol = 1 ∨ symbol = 2 ∨ symbol = 3 := by omega
    · exact Grammar.productive_iff.2 ⟨highest, rfl, high⟩
    · exact Grammar.productive_iff.2 ⟨middle, rfl, mid⟩
    · exact Grammar.productive_iff.2 ⟨lowest, rfl, low⟩
  obtain ⟨_, _, bounded⟩ :=
    (reductions_bounded compiled conflictFree tokenized).1.resolve_left fruitful
  obtain ⟨shifted, later, shown, shifts, _⟩ := List.map_eq_cons_iff.1 moves
  obtain ⟨next, rest, behind, bound⟩ := bounded [] shifted later shown shifts
  rw [shown, List.tail_cons, behind] at heights reductions
  rw [behind] at shown bound
  have height : next.height = 1 := (List.cons.inj heights).1
  exact ⟨compiled, shifted, next, rest, compiles, shown, shifts, reductions, bound,
    by rw [count, height]⟩

end CompiledGrammar

end ShiftReduce
