/-
This file states when the runs without conflicts end.
-/

import ShiftReduce.Proofs.Run.Acyclic
import ShiftReduce.Proofs.Run.Outcome

namespace ShiftReduce.CompiledGrammar

open ShiftReduce.Configuration

variable {compiled : CompiledGrammar} {sentence : String} {terminals : List Symbol}

/-- A sentence with a word that names no terminal is refused before the run. -/
theorem state_of_not_spells (conflictFree : compiled.hasConflict = false)
    (unspelled : ∀ terminals, ¬ compiled.grammar.Spells sentence terminals) :
    (compiled.run sentence).state = .invalidInput := by
  cases known : compiled.grammar.terminals sentence with
  | error error => exact run_of_error conflictFree known
  | ok terminals => exact absurd (Grammar.terminals_eq_ok_iff.1 known) (unspelled terminals)

variable (conflictFree : compiled.hasConflict = false)
  (spells : compiled.grammar.Spells sentence terminals)

include conflictFree spells

/-- A run that ends accepts the sentence or finds a syntax error. -/
theorem state_of_halts (halts : Halts compiled.grammar (.initial terminals)) :
    (compiled.run sentence).state = .accepted ∨ (compiled.run sentence).state = .syntaxError := by
  rcases run_verdict conflictFree spells with
    ⟨visited, last, passes, recorded, accepts | refuses⟩ | ⟨never, _⟩
  · rw [recorded, Trace.state, lastMove_of_steps, accepts]
    exact .inl rfl
  · rw [recorded, Trace.state, lastMove_of_steps, refuses]
    exact .inr rfl
  · exact absurd halts never

theorem state_of_endless (endless : Endless compiled.grammar (.initial terminals)) :
    (compiled.run sentence).state = .running := by
  have never := endless_iff_not_halts.1 endless
  rcases run_outcome conflictFree spells with ⟨visited, last, passes, ends, _⟩ | ⟨_, running⟩
  · exact absurd ⟨last, passes.reaches, ends⟩ never
  · exact running

omit spells

/--
Without conflicts the run of a tokenized sentence ends with an accept or a syntax error unless it
comes to a cycle of unit reductions, and then it is endless. A grammar has an endless run exactly
when there is such a cycle on a productive symbol above an entered state. This does not happen when
every reachable symbol derives some terminal string.
-/
theorem endless_iff_unitCycle :
    (∀ sentence terminals, compiled.grammar.Spells sentence terminals →
      (Endless compiled.grammar (.initial terminals) ↔
        ∃ between, Reaches compiled.grammar (.initial terminals) between ∧
          between.OnUnitCycle compiled.grammar) ∧
      (¬ Endless compiled.grammar (.initial terminals) →
        (compiled.run sentence).state = .accepted ∨
          (compiled.run sentence).state = .syntaxError) ∧
      (Endless compiled.grammar (.initial terminals) →
        (compiled.run sentence).state = .running)) ∧
    (∀ sentence, (∀ terminals, ¬ compiled.grammar.Spells sentence terminals) →
      (compiled.run sentence).state = .invalidInput) ∧
    ((∃ terminals, (∀ symbol ∈ terminals, compiled.grammar.isTerminal symbol = true) ∧
        Endless compiled.grammar (.initial terminals)) ↔
      ∃ state lookahead symbol, compiled.grammar.Entered state ∧
        compiled.grammar.Productive symbol ∧
        compiled.grammar.UnitCycle state lookahead symbol) ∧
    ((∀ symbol, compiled.grammar.Reachable symbol → compiled.grammar.Productive symbol) →
      ∀ terminals, (∀ symbol ∈ terminals, compiled.grammar.isTerminal symbol = true) →
        ¬ Endless compiled.grammar (.initial terminals)) := by
  have unblocked := table_hasConflict conflictFree
  refine ⟨?_, ?_, exists_endless_iff unblocked, ?_⟩
  · intro sentence terminals spells
    refine ⟨endless_iff unblocked spells.terminal, ?_, state_of_endless conflictFree spells⟩
    intro ending
    rw [endless_iff_not_halts, not_not] at ending
    exact state_of_halts conflictFree spells ending
  · exact fun sentence => state_of_not_spells conflictFree
  · intro useful terminals terminal endless
    obtain ⟨state, lookahead, symbol, _, _, cycle⟩ :=
      (exists_endless_iff unblocked).1 ⟨terminals, terminal, endless⟩
    exact Grammar.not_unitCycle unblocked useful cycle

omit conflictFree

/-- Here C derives no terminal string, and behind y the rule A A is reduced again and again. -/
theorem endless_iff_unitCycle_unproductive :
    ∃ compiled terminals, ofText "S A C\nC C x\nA A\nA y\nY A t" = .ok compiled ∧
      compiled.hasConflict = false ∧ compiled.grammar.Spells "y t" terminals ∧
      Endless compiled.grammar (.initial terminals) := by
  obtain ⟨compiled, compiles, evaluated⟩ := exists_of_ofText "S A C\nC C x\nA A\nA y\nY A t"
    (fun compiled => !compiled.hasConflict && (compiled.run "y t").state == .running)
    (by decide +kernel)
  simp only [Bool.and_eq_true, Bool.not_eq_true', beq_iff_eq] at evaluated
  obtain ⟨conflictFree, running⟩ := evaluated
  obtain ⟨outcome, unspelled, _⟩ := endless_iff_unitCycle conflictFree
  obtain ⟨terminals, spells⟩ : ∃ terminals, compiled.grammar.Spells "y t" terminals := by
    by_contra none
    rw [unspelled "y t" (not_exists.1 none)] at running
    cases running
  refine ⟨compiled, terminals, compiles, conflictFree, spells, ?_⟩
  by_contra ends
  rcases (outcome "y t" terminals spells).2.1 ends with accepted | failed
  · rw [accepted] at running
    cases running
  · rw [failed] at running
    cases running

end ShiftReduce.CompiledGrammar
