/-
This file relates the recorded steps of a run to the configurations that it passes.
-/

import Mathlib.Logic.Relation
import ShiftReduce.Proofs.Run.Stack

namespace ShiftReduce.Configuration

variable (grammar : Grammar)

/-- The driver goes from one configuration to the next. -/
def Step (before after : Configuration) : Prop :=
  before.next grammar = some after

/-- The driver reaches a configuration in any number of steps. -/
def Reaches : Configuration → Configuration → Prop :=
  Relation.ReflTransGen (Step grammar)

/-- A configuration recurs when some steps lead back to it. -/
def Recurs (configuration : Configuration) : Prop :=
  Relation.TransGen (Step grammar) configuration configuration

/-- The run from a configuration halts when it reaches one without a next configuration. -/
def Halts (configuration : Configuration) : Prop :=
  ∃ last, Reaches grammar configuration last ∧ last.next grammar = none

/-- An endless run goes on from each of its configurations. -/
def Endless (configuration : Configuration) : Prop :=
  ∃ run : Nat → Configuration, run 0 = configuration ∧
    ∀ time, Step grammar (run time) (run (time + 1))

/-- A run passes the visited configurations, in this order, before it reaches the last one. -/
inductive Passes : Configuration → List Configuration → Configuration → Prop
  | stay (configuration : Configuration) : Passes configuration [] configuration
  | step {before after last : Configuration} {visited : List Configuration}
      (continues : Step grammar before after) (rest : Passes after visited last) :
      Passes before (before :: visited) last

/-- The stack follows the transitions, and the input holds terminals. -/
structure Consistent (configuration : Configuration) : Prop where
  linked : Linked grammar configuration.stack
  readable : configuration.Readable grammar

section Passes

variable {grammar} {first middle last : Configuration} {visited : List Configuration}

theorem Passes.append {more : List Configuration} (front : Passes grammar first visited middle)
    (back : Passes grammar middle more last) : Passes grammar first (visited ++ more) last := by
  induction front with
  | stay _ => exact back
  | step continues _ ih => exact .step continues (ih back)

theorem Passes.reaches (passes : Passes grammar first visited last) :
    Reaches grammar first last := by
  induction passes with
  | stay _ => exact Relation.ReflTransGen.refl
  | step continues _ ih => exact Relation.ReflTransGen.head continues ih

theorem Reaches.passes (reaches : Reaches grammar first last) :
    ∃ visited, Passes grammar first visited last := by
  induction reaches using Relation.ReflTransGen.head_induction_on with
  | refl => exact ⟨[], .stay last⟩
  | head continues _ ih =>
      obtain ⟨visited, passes⟩ := ih
      exact ⟨_, .step continues passes⟩

/-- Each visited configuration lies on the way, and at least one step before the last. -/
theorem Passes.of_mem (passes : Passes grammar first visited last) {between : Configuration}
    (listed : between ∈ visited) :
    Reaches grammar first between ∧ Relation.TransGen (Step grammar) between last := by
  induction passes with
  | stay _ => exact absurd listed List.not_mem_nil
  | step continues rest ih =>
      rcases List.mem_cons.1 listed with rfl | later
      · exact ⟨Relation.ReflTransGen.refl, Relation.TransGen.head' continues rest.reaches⟩
      · obtain ⟨front, back⟩ := ih later
        exact ⟨Relation.ReflTransGen.head continues front, back⟩

theorem Passes.exists_cons (passes : Passes grammar first visited last) :
    ∃ rest, visited ++ [last] = first :: rest := by
  cases passes with
  | stay _ => exact ⟨[], rfl⟩
  | step _ _ => exact ⟨_, rfl⟩

theorem Passes.reaches_of_mem (passes : Passes grammar first visited last)
    {between : Configuration} (listed : between ∈ visited ++ [last]) :
    Reaches grammar first between := by
  rcases List.mem_append.1 listed with inside | ending
  · exact (passes.of_mem inside).1
  · exact List.mem_singleton.1 ending ▸ passes.reaches

/-- A run that passes some configurations goes on from each of them as it did before. -/
theorem Passes.suffix (passes : Passes grammar first visited last)
    {front later : List Configuration} {between : Configuration} (split : visited ++ [last] = front ++ between :: later) :
    ∃ rest, Passes grammar between rest last ∧ between :: later = rest ++ [last] := by
  induction passes generalizing front with
  | stay configuration =>
      cases front with
      | nil =>
          obtain ⟨rfl, rfl⟩ := List.cons.inj split
          exact ⟨[], .stay _, rfl⟩
      | cons _ _ => simp at split
  | @step before after last visited continues passes ih =>
      cases front with
      | nil =>
          obtain ⟨rfl, rfl⟩ := List.cons.inj split
          exact ⟨before :: visited, .step continues passes, rfl⟩
      | cons _ front => exact ih (List.cons.inj split).2

/-- Each step that is shown belongs to a configuration from which the run goes on. -/
theorem Passes.of_steps (passes : Passes grammar first visited last) {front later : List TraceStep}
    {shown : TraceStep}
    (split : (visited ++ [last]).map (Configuration.step grammar) = front ++ shown :: later) :
    ∃ between rest, Reaches grammar first between ∧ Passes grammar between rest last ∧
      shown = between.step grammar ∧
      shown :: later = (rest ++ [last]).map (Configuration.step grammar) := by
  obtain ⟨earlier, others, whole, _, tail⟩ := List.map_eq_append_iff.1 split
  obtain ⟨between, behind, rfl, rfl, rfl⟩ := List.map_eq_cons_iff.1 tail
  obtain ⟨rest, onward, same⟩ := passes.suffix whole
  have reached : Reaches grammar first between := passes.reaches_of_mem (by simp [whole])
  exact ⟨between, rest, reached, onward, rfl, by rw [← List.map_cons, same]⟩

/-- Earlier configurations lead to later ones. -/
theorem Passes.pairwise (passes : Passes grammar first visited last) :
    (visited ++ [last]).Pairwise (Relation.TransGen (Step grammar)) := by
  induction passes with
  | stay _ => exact List.pairwise_singleton _ _
  | @step before after last visited continues rest ih =>
      apply List.pairwise_cons.2
      constructor
      · intro later listed
        exact Relation.TransGen.head' continues (rest.reaches_of_mem listed)
      · exact ih

/-- The steps of a configuration are determined, so a recurring configuration never halts. -/
theorem Recurs.of_reaches (recurs : Recurs grammar first) (reaches : Reaches grammar first last) :
    Recurs grammar last := by
  induction reaches with
  | refl => exact recurs
  | @tail before after _ continues ih =>
      obtain ⟨other, again, back⟩ := Relation.TransGen.head'_iff.1 ih
      rw [Step] at again continues
      rw [again, Option.some.injEq] at continues
      subst continues
      exact Relation.TransGen.tail' back again

/-- Every configuration on the way of a run that halts leads to its end. -/
theorem Halts.of_reaches (halts : Halts grammar first) (reaches : Reaches grammar first last) :
    Halts grammar last := by
  induction reaches with
  | refl => exact halts
  | @tail before after _ continues ih =>
      obtain ⟨final, onward, ends⟩ := ih
      rw [Step] at continues
      rcases Relation.ReflTransGen.cases_head onward with rfl | ⟨other, again, rest⟩
      · rw [ends] at continues
        cases continues
      · rw [Step, continues, Option.some.injEq] at again
        exact ⟨final, again ▸ rest, ends⟩

/-- The steps are determined, so a run has one end. -/
theorem eq_of_ends (one : Reaches grammar first middle) (ends : middle.next grammar = none)
    (two : Reaches grammar first last) (done : last.next grammar = none) : middle = last := by
  have determined : Relator.RightUnique (Step grammar) :=
    fun _ _ _ step other => Option.some.inj (step.symm.trans other)
  rcases Relation.ReflTransGen.total_of_right_unique determined one two with onward | onward
  · rcases Relation.ReflTransGen.cases_head onward with same | ⟨_, continues, _⟩
    · exact same
    · rw [Step, ends] at continues
      cases continues
  · rcases Relation.ReflTransGen.cases_head onward with same | ⟨_, continues, _⟩
    · exact same.symm
    · rw [Step, done] at continues
      cases continues

theorem Recurs.next_ne_none (recurs : Recurs grammar first) : first.next grammar ≠ none := by
  obtain ⟨other, continues, _⟩ := Relation.TransGen.head'_iff.1 recurs
  rw [Step] at continues
  rw [continues]
  exact Option.some_ne_none other

theorem Recurs.not_halts (recurs : Recurs grammar first) : ¬ Halts grammar first := by
  intro given
  obtain ⟨last, reaches, ends⟩ := given
  exact (recurs.of_reaches reaches).next_ne_none ends

theorem Endless.of_step (endless : Endless grammar first) (continues : Step grammar first last) :
    Endless grammar last := by
  obtain ⟨run, rfl, steps⟩ := endless
  have second := steps 0
  rw [Step, continues, Option.some.injEq] at second
  exact ⟨fun time => run (time + 1), second.symm, fun time => steps (time + 1)⟩

/-- Since the steps are determined, a run halts or is endless. -/
theorem endless_iff_not_halts : Endless grammar first ↔ ¬ Halts grammar first := by
  constructor
  · rintro endless ⟨last, reaches, ends⟩
    induction reaches using Relation.ReflTransGen.head_induction_on with
    | refl =>
        obtain ⟨run, rfl, steps⟩ := endless
        have continues := steps 0
        rw [Step, ends] at continues
        cases continues
    | head continues _ ih => exact ih (endless.of_step continues)
  · intro never
    let run : Nat → Configuration :=
      Nat.rec first fun _ earlier => (earlier.next grammar).getD earlier
    have steps (time : Nat) (reached : Reaches grammar first (run time)) :
        Step grammar (run time) (run (time + 1)) := by
      cases continues : (run time).next grammar with
      | none => exact absurd ⟨run time, reached, continues⟩ never
      | some after =>
          have advanced : run (time + 1) = after :=
            congrArg (fun next => Option.getD next (run time)) continues
          rw [Step, advanced, continues]
    have reached (time : Nat) : Reaches grammar first (run time) := by
      induction time with
      | zero => exact Relation.ReflTransGen.refl
      | succ time ih => exact Relation.ReflTransGen.tail ih (steps time ih)
    exact ⟨run, rfl, fun time => steps time (reached time)⟩

end Passes

section Consistent

variable {grammar} {before after : Configuration}

/-- A run begins with an empty stack and a terminal input. -/
theorem consistent_initial {terminals : List Symbol}
    (terminal : ∀ symbol ∈ terminals, grammar.isTerminal symbol = true) :
    Consistent grammar (.initial terminals) :=
  ⟨trivial, terminal⟩

variable (conflictFree : grammar.table.hasConflict = false)

include conflictFree

theorem Consistent.moves (consistent : Consistent grammar before)
    (continues : Step grammar before after) :
    Moves grammar before (before.move grammar grammar.table) after :=
  moves_of_next conflictFree consistent.linked consistent.readable continues

theorem Consistent.step (consistent : Consistent grammar before)
    (continues : Step grammar before after) : Consistent grammar after := by
  have moves := consistent.moves conflictFree continues
  exact ⟨moves.linked consistent.linked, moves.readable consistent.readable⟩

theorem Consistent.reaches (consistent : Consistent grammar before)
    (reaches : Reaches grammar before after) : Consistent grammar after := by
  induction reaches with
  | refl => exact consistent
  | tail _ continues ih => exact ih.step conflictFree continues

/-- A rule by which the driver reduces is listed under one number. -/
theorem Consistent.single (consistent : Consistent grammar before) {index : Nat}
    (moves : Moves grammar before (.reduce index) after) {other : Nat}
    (same : grammar.rules[other]? = grammar.rules[index]?) : other = index := by
  have linked := consistent.linked
  have decided := moves.move_eq conflictFree consistent.readable
  cases moves with
  | @reduce stack input _ state rule later found complete follows _ =>
      rw [found] at same
      have otherLater : other ≠ 0 := by
        intro same
        subst same
        rw [grammar.rules_zero, Option.some.injEq] at same
        apply grammar.lhs_ne_zero (grammar.mem_declaredRules.2 ⟨index, later, found⟩)
        rw [← same]
      have twin := item_mem_of_same_rule linked later found same complete
      have alternative := Grammar.move_eq conflictFree consistent.readable
        (.reduce otherLater same twin follows)
      rw [decided] at alternative
      exact (Move.reduce.inj alternative).symm

end Consistent

section Record

variable {grammar}

theorem record_succ (fuel : Nat) (configuration : Configuration) :
    grammar.record grammar.table (fuel + 1) configuration =
      configuration.step grammar ::
        match configuration.next grammar with
        | none => []
        | some next => grammar.record grammar.table fuel next := rfl

/-- A record shows the whole run, or as many steps as the fuel allows. -/
theorem record_cases (grammar : Grammar) (fuel : Nat) (first : Configuration) :
    ∃ visited last, Passes grammar first visited last ∧
      (last.next grammar = none ∧ visited.length < fuel ∧
          grammar.record grammar.table fuel first = (visited ++ [last]).map (step grammar) ∨
        visited.length = fuel ∧
          grammar.record grammar.table fuel first = visited.map (step grammar)) := by
  induction fuel generalizing first with
  | zero => exact ⟨[], first, .stay first, .inr ⟨rfl, rfl⟩⟩
  | succ fuel ih =>
      rw [record_succ]
      cases continues : first.next grammar with
      | none => exact ⟨[], first, .stay first, .inl ⟨continues, Nat.succ_pos fuel, rfl⟩⟩
      | some second =>
          obtain ⟨visited, last, passes, recorded⟩ := ih second
          refine ⟨first :: visited, last, .step continues passes, ?_⟩
          rcases recorded with ⟨ends, inside, same⟩ | ⟨full, same⟩
          · exact .inl ⟨ends, Nat.succ_lt_succ inside, congrArg (_ :: ·) same⟩
          · exact .inr ⟨congrArg Nat.succ full, congrArg (_ :: ·) same⟩

/-- A record with enough fuel shows all steps up to the last configuration. -/
theorem record_of_passes {first last : Configuration} {visited : List Configuration}
    (passes : Passes grammar first visited last) (ends : last.next grammar = none) {fuel : Nat}
    (enough : visited.length < fuel) :
    grammar.record grammar.table fuel first = (visited ++ [last]).map (step grammar) := by
  induction passes generalizing fuel with
  | stay configuration =>
      obtain ⟨more, rfl⟩ := Nat.exists_eq_succ_of_ne_zero (Nat.ne_zero_of_lt enough)
      rw [record_succ, ends]
      rfl
  | step continues _ ih =>
      obtain ⟨more, rfl⟩ := Nat.exists_eq_succ_of_ne_zero (Nat.ne_zero_of_lt enough)
      rw [record_succ, continues]
      exact congrArg (_ :: ·) (ih ends (Nat.lt_of_succ_lt_succ enough))

end Record

end ShiftReduce.Configuration
