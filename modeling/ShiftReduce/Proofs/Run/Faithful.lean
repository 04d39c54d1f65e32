/-
This file shows that the steps of a run that ends are the only faithful log of it.
-/

import ShiftReduce.Proofs.Run.Driver

namespace ShiftReduce

/-- Such a move is the last one. -/
def Move.isFinal : Move → Bool
  | .shift _ | .reduce _ => false
  | .accept | .refuse _ => true

namespace TraceStep

/-- The cell for the top state and the first symbol decides the move. -/
def Decided (table : ParseTable) (step : TraceStep) : Prop :=
  ∃ state lookahead rest, step.stack.getLast? = some (.state state) ∧
    step.input = lookahead :: rest ∧
    Driver.moveOf state lookahead (table.action state lookahead) = .ok step.move

/--
A shift takes the first symbol from the input to the stack. A reduction takes two entries for each
symbol of the rule from the stack, and the goto of the state below decides what comes in their
place.
-/
inductive Leads (grammar : Grammar) (table : ParseTable) : TraceStep → TraceStep → Prop
  | shift {stack : List StackEntry} {symbol : Symbol} {rest : List Symbol} {state : Nat}
      {move : Move} :
      Leads grammar table ⟨stack, symbol :: rest, .shift state⟩
        ⟨stack ++ [.symbol symbol, .state state], rest, move⟩
  | reduce {kept taken : List StackEntry} {input : List Symbol} {index state next : Nat}
      {rule : Rule} {move : Move} (found : grammar.rules[index]? = some rule)
      (size : taken.length = 2 * rule.rhs.length) (below : kept.getLast? = some (.state state))
      (entered : table.goto state rule.lhs = some next) :
      Leads grammar table ⟨kept ++ taken, input, .reduce index⟩
        ⟨kept ++ [.symbol rule.lhs, .state next], input, move⟩

variable {grammar : Grammar} {table : ParseTable} {step other next : TraceStep}

/-- The stack and the input leave no choice for the move. -/
theorem Decided.unique (one : step.Decided table) (two : other.Decided table)
    (sameStack : step.stack = other.stack) (sameInput : step.input = other.input) :
    step = other := by
  obtain ⟨state, lookahead, rest, top, shown, decided⟩ := one
  obtain ⟨number, symbol, tail, topAgain, shownAgain, decidedAgain⟩ := two
  rw [← sameStack] at topAgain
  rw [← sameInput] at shownAgain
  obtain rfl := StackEntry.state.inj (Option.some.inj (top.symm.trans topAgain))
  obtain ⟨rfl, rfl⟩ := List.cons.inj (shown.symm.trans shownAgain)
  have sameMove := Except.ok.inj (decided.symm.trans decidedAgain)
  cases step
  cases other
  simp only [TraceStep.mk.injEq]
  exact ⟨sameStack, sameInput, sameMove⟩

theorem Leads.unique (one : Leads grammar table step next) (two : Leads grammar table step other) :
    next.stack = other.stack ∧ next.input = other.input := by
  cases one with
  | shift =>
      cases two with
      | shift => exact ⟨rfl, rfl⟩
  | @reduce kept taken input index state goal rule move found size below entered =>
      generalize whole : (⟨kept ++ taken, input, .reduce index⟩ : TraceStep) = shown at two
      cases two with
      | shift => cases whole
      | reduce again sameSize sameBelow sameEntered =>
          obtain ⟨split, rfl, same⟩ := TraceStep.mk.inj whole
          obtain rfl := Move.reduce.inj same
          obtain rfl := Option.some.inj (found.symm.trans again)
          obtain ⟨rfl, _⟩ := List.append_inj' split (size.trans sameSize.symm)
          rw [below, Option.some.injEq, StackEntry.state.injEq] at sameBelow
          subst sameBelow
          rw [entered, Option.some.injEq] at sameEntered
          subst sameEntered
          exact ⟨rfl, rfl⟩

end TraceStep

/-- Each step follows from the one before it, the table decides all moves, and the last is final. -/
structure Coherent (grammar : Grammar) (table : ParseTable) (steps : List TraceStep) : Prop where
  decided : ∀ step ∈ steps, step.Decided table
  leads : steps.IsChain (TraceStep.Leads grammar table)
  ends : ∀ front step later, steps = front ++ step :: later →
    (step.move.isFinal = true ↔ later = [])

/-- A faithful log begins with state 0 and all tokens. -/
structure Trace.Faithful (grammar : Grammar) (table : ParseTable) (tokens : List Symbol)
    (trace : Trace) : Prop extends Coherent grammar table trace.steps where
  first : ∃ move later, trace.steps = ⟨[.state 0], tokens, move⟩ :: later

section Coherent

variable {grammar : Grammar} {table : ParseTable} {tokens : List Symbol}

theorem Coherent.tail {step : TraceStep} {later : List TraceStep}
    (coherent : Coherent grammar table (step :: later)) : Coherent grammar table later where
  decided other listed := coherent.decided other (List.mem_cons_of_mem _ listed)
  leads := coherent.leads.tail
  ends front other rest split := coherent.ends (step :: front) other rest (congrArg _ split)

theorem Coherent.eq_of_head {step other : TraceStep} {later others : List TraceStep}
    (one : Coherent grammar table (step :: later)) (two : Coherent grammar table (other :: others))
    (sameStack : step.stack = other.stack) (sameInput : step.input = other.input) :
    step = other :=
  (one.decided step List.mem_cons_self).unique (two.decided other List.mem_cons_self)
    sameStack sameInput

/-- The first step leaves no choice for those behind it. -/
theorem Coherent.unique {step other : TraceStep} {later others : List TraceStep}
    (one : Coherent grammar table (step :: later)) (two : Coherent grammar table (other :: others))
    (sameStack : step.stack = other.stack) (sameInput : step.input = other.input) :
    step :: later = other :: others := by
  induction later generalizing step other others with
  | nil =>
      obtain rfl := one.eq_of_head two sameStack sameInput
      rw [(two.ends [] step others rfl).1 ((one.ends [] step [] rfl).2 rfl)]
  | cons next later ih =>
      obtain rfl := one.eq_of_head two sameStack sameInput
      cases others with
      | nil => cases (one.ends [] step _ rfl).1 ((two.ends [] step [] rfl).2 rfl)
      | cons following others =>
          obtain ⟨nextStack, nextInput⟩ :=
            (List.isChain_cons_cons.1 one.leads).1.unique (List.isChain_cons_cons.1 two.leads).1
          exact congrArg (step :: ·) (ih one.tail two.tail nextStack nextInput)

/-- There is only one faithful log from the same tokens on. -/
theorem Trace.Faithful.unique {trace other : Trace}
    (one : trace.Faithful grammar table tokens) (two : other.Faithful grammar table tokens) :
    trace = other := by
  obtain ⟨steps⟩ := trace
  obtain ⟨others⟩ := other
  obtain ⟨coherent, _, _, rfl⟩ := one
  obtain ⟨again, _, _, rfl⟩ := two
  exact congrArg Trace.mk (coherent.unique again rfl rfl)

end Coherent

namespace Configuration

variable {grammar : Grammar} {first before after last : Configuration}
  {visited : List Configuration} {move : Move}

theorem getLast?_entries (configuration : Configuration) :
    configuration.entries.getLast? = some (.state configuration.top) := by
  obtain ⟨stack, input⟩ := configuration
  cases stack with
  | nil => rfl
  | cons frame rest => simp [Driver.entries_cons, Driver.push, top, topState]

/-- The entries that a reduction takes are those of its frames. -/
theorem exists_taken {stack : List Frame} {input : List Symbol} {count : Nat}
    (enough : count ≤ stack.length) : ∃ taken : List StackEntry, taken.length = 2 * count ∧
      (⟨stack, input⟩ : Configuration).entries =
        (⟨stack.drop count, input⟩ : Configuration).entries ++ taken := by
  have split := Driver.entries_append (stack.take count) (stack.drop count) input
  have whole := Driver.length_entries stack input
  have kept := Driver.length_entries (stack.drop count) input
  rw [List.take_append_drop] at split
  refine ⟨_, ?_, split⟩
  rw [split, List.length_append, kept, List.length_drop] at whole
  omega

theorem Moves.leads (moves : Moves grammar before move after) (linked : Linked grammar before.stack)
    (decided : before.move grammar grammar.table = move) :
    TraceStep.Leads grammar grammar.table (before.step grammar) (after.step grammar) := by
  rw [step, step, decided]
  cases moves with
  | @shift stack symbol rest state _ =>
      rw [Driver.entries_cons]
      exact .shift
  | @reduce stack input index state rule _ found complete _ moves =>
      have enough := (spelled_of_item linked found complete).2.1
      have column := grammar.wellFormed.lhs_nonterminal rule (List.mem_of_getElem? found)
      obtain ⟨taken, size, split⟩ := @exists_taken stack input _ enough
      rw [split, Driver.entries_cons]
      exact .reduce found size (getLast?_entries _)
        ((Grammar.goto_eq_transition column).trans moves)

variable (conflictFree : grammar.table.hasConflict = false)

include conflictFree

theorem decided_step (configuration : Configuration) :
    (configuration.step grammar).Decided grammar.table := by
  obtain ⟨rest, shown⟩ : ∃ rest,
      configuration.input ++ [grammar.endMarker] = configuration.lookahead grammar :: rest := by
    rw [lookahead]
    cases configuration.input with
    | nil => exact ⟨[], rfl⟩
    | cons symbol rest => exact ⟨rest ++ [grammar.endMarker], rfl⟩
  exact ⟨configuration.top, configuration.lookahead grammar, rest, getLast?_entries _, shown,
    Driver.moveOf_action conflictFree configuration⟩

/-- The final moves are those behind which there is no configuration. -/
theorem Consistent.isFinal_iff (consistent : before.Consistent grammar) :
    (before.move grammar grammar.table).isFinal = true ↔ before.next grammar = none := by
  rcases moves_or_ends conflictFree consistent.linked consistent.readable with
    ⟨after, moves⟩ | accepts | refuses
  · rw [moves.next conflictFree consistent.readable]
    generalize before.move grammar grammar.table = move at moves
    cases moves <;> simp [Move.isFinal]
  · rw [accepts, next_of_accept accepts]
    simp [Move.isFinal]
  · rw [refuses, next_of_refuse refuses]
    simp [Move.isFinal]

theorem Consistent.isChain (consistent : first.Consistent grammar)
    (passes : Passes grammar first visited last) :
    ((visited ++ [last]).map (Configuration.step grammar)).IsChain
      (TraceStep.Leads grammar grammar.table) := by
  induction passes with
  | stay _ => exact List.isChain_singleton _
  | @step before after last visited continues passes ih =>
      have moves := consistent.moves conflictFree continues
      have later := ih (consistent.step conflictFree continues)
      obtain ⟨rest, split⟩ := passes.exists_cons
      rw [split, List.map_cons] at later
      rw [List.cons_append, split, List.map_cons, List.map_cons]
      exact later.cons_cons (moves.leads consistent.linked rfl)

/-- All steps of a run that ends make a faithful log. -/
theorem faithful_of_ends {terminals : List Symbol}
    (terminal : ∀ symbol ∈ terminals, grammar.isTerminal symbol = true)
    (passes : Passes grammar (.initial terminals) visited last) (ends : last.next grammar = none) :
    Trace.Faithful grammar grammar.table (terminals ++ [grammar.endMarker])
      ⟨(visited ++ [last]).map (step grammar)⟩ := by
  have consistent := consistent_initial terminal
  refine ⟨⟨?decided, ?leads, ?ends⟩, ?first⟩
  case first =>
    obtain ⟨rest, split⟩ := passes.exists_cons
    exact ⟨_, rest.map (step grammar), by rw [split]; rfl⟩
  case decided =>
    intro shown listed
    obtain ⟨between, _, rfl⟩ := List.mem_map.1 listed
    exact decided_step conflictFree between
  case leads => exact consistent.isChain conflictFree passes
  case ends =>
    intro front shown later split
    obtain ⟨between, rest, reached, onward, rfl, same⟩ := passes.of_steps split
    have final := (consistent.reaches conflictFree reached).isFinal_iff conflictFree
    change (between.move grammar grammar.table).isFinal = true ↔ _
    rw [final]
    cases onward with
    | stay _ =>
        rw [List.nil_append, List.map_singleton, List.cons.injEq] at same
        exact ⟨fun _ => same.2, fun _ => ends⟩
    | step continues onward =>
        rw [List.cons_append, List.map_cons, List.cons.injEq] at same
        rw [Step] at continues
        simp [continues, same.2]

end Configuration

end ShiftReduce
