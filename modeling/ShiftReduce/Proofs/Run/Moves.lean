/-
This file states which moves the table of a grammar decides without conflicts.
-/

import ShiftReduce.Proofs.Table.Cells

namespace ShiftReduce

namespace Configuration

variable (grammar : Grammar) (configuration : Configuration)

/-- The state on top of the stack decides the next move. -/
def top : Nat :=
  topState configuration.stack

/-- The move that the canonical table decides leads to the next configuration, if there is one. -/
def next : Option Configuration :=
  configuration.apply grammar grammar.table (configuration.move grammar grammar.table)

/-- The step that a trace records in a configuration. -/
def step : TraceStep :=
  ⟨configuration.entries, configuration.input ++ [grammar.endMarker],
    configuration.move grammar grammar.table⟩

/-- Only terminals are left in the input. -/
def Readable : Prop :=
  ∀ symbol ∈ configuration.input, grammar.isTerminal symbol = true

/-- The items of the top state and the lookahead justify each kind of move. -/
inductive Decides : Move → Prop
  | shift {state : Nat}
      (moves : grammar.transition configuration.top (configuration.lookahead grammar) =
        some state) : Decides (.shift state)
  | reduce {index : Nat} {rule : Rule} (later : index ≠ 0)
      (found : grammar.rules[index]? = some rule)
      (complete : (⟨index, rule.rhs.length⟩ : Item) ∈ grammar.stateItems configuration.top)
      (follows : configuration.lookahead grammar ∈ grammar.follow rule.lhs) :
      Decides (.reduce index)
  | accept (complete : (⟨0, 1⟩ : Item) ∈ grammar.stateItems configuration.top)
      (finished : configuration.lookahead grammar = grammar.endMarker) : Decides .accept
  | refuse
      (absent : grammar.table.action configuration.top (configuration.lookahead grammar) = none) :
      Decides (.refuse (.unexpected configuration.top (configuration.lookahead grammar)))

variable {grammar} {configuration}

theorem next_of_accept (accepting : configuration.move grammar grammar.table = .accept) :
    configuration.next grammar = none := by
  rw [next, accepting]
  rfl

theorem next_of_refuse {error : RunError}
    (refusing : configuration.move grammar grammar.table = .refuse error) :
    configuration.next grammar = none := by
  rw [next, refusing]
  rfl

end Configuration

namespace Grammar

variable {grammar : Grammar} {configuration : Configuration} {move : Move}

theorem lookahead_cons (stack : List Frame) (symbol : Symbol) (rest : List Symbol) :
    (⟨stack, symbol :: rest⟩ : Configuration).lookahead grammar = symbol := rfl

/-- The lookahead is a terminal or the end marker, so it has a column. -/
theorem hasColumn_lookahead (readable : configuration.Readable grammar) :
    grammar.HasColumn (configuration.lookahead grammar) := by
  obtain ⟨stack, input⟩ := configuration
  cases input with
  | nil => exact grammar.hasColumn_endMarker
  | cons symbol rest => exact grammar.hasColumn_of_isTerminal (readable symbol List.mem_cons_self)

/-- Some input has the symbol of any column as its lookahead. -/
theorem exists_input {symbol : Symbol} (column : grammar.HasColumn symbol) :
    ∃ input : List Symbol, (∀ other ∈ input, grammar.isTerminal other = true) ∧
      input.head?.getD grammar.endMarker = symbol := by
  rcases grammar.hasColumn_iff.1 column with terminal | last
  · refine ⟨[symbol], ?_, rfl⟩
    intro other listed
    rw [List.mem_singleton.1 listed]
    exact terminal
  · exact ⟨[], nofun, last.symm⟩

theorem lookahead_eq_endMarker_iff (readable : configuration.Readable grammar) :
    configuration.lookahead grammar = grammar.endMarker ↔ configuration.input = [] := by
  obtain ⟨stack, input⟩ := configuration
  cases input with
  | nil => exact ⟨fun _ => rfl, fun _ => rfl⟩
  | cons symbol rest =>
      rw [lookahead_cons]
      constructor
      · intro finished
        have terminal := readable symbol List.mem_cons_self
        rw [finished, isTerminal_endMarker] at terminal
        exact absurd terminal (by decide)
      · exact nofun

variable (conflictFree : grammar.table.hasConflict = false)

include conflictFree

/-- Every move of a table without conflicts is justified. -/
theorem decides_move :
    configuration.Decides grammar (configuration.move grammar grammar.table) := by
  rw [Configuration.move]
  have derived {action : Action}
      (found : grammar.table.action configuration.top (configuration.lookahead grammar) =
        some action) := ((action_eq_some_iff conflictFree).1 found).2
  split
  · next absent => exact .refuse absent
  · next found => exact .shift (shift_mem_derivedActions.1 (derived found))
  · next found =>
      obtain ⟨rule, later, listed, complete, follows⟩ :=
        reduce_mem_derivedActions.1 (derived found)
      exact .reduce later listed complete follows
  · next found =>
      obtain ⟨complete, finished⟩ := accept_mem_derivedActions.1 (derived found)
      exact .accept complete finished
  · next found => cases isConflict_eq_false conflictFree found

/-- A justified move is the move that the table decides. -/
theorem move_eq (readable : configuration.Readable grammar)
    (decided : configuration.Decides grammar move) :
    configuration.move grammar grammar.table = move := by
  have column := hasColumn_lookahead readable
  have decide {action : Action} (listed : action ∈
      grammar.derivedActions configuration.top (configuration.lookahead grammar)) :
      grammar.table.action (topState configuration.stack) (configuration.lookahead grammar) =
        some action :=
    (action_eq_some_iff conflictFree).2 ⟨column, listed⟩
  rw [Configuration.move]
  cases decided with
  | shift moves => rw [decide (shift_mem_derivedActions.2 moves)]
  | reduce later found complete follows =>
      rw [decide (reduce_mem_derivedActions.2 ⟨_, later, found, complete, follows⟩)]
  | accept complete finished => rw [decide (accept_mem_derivedActions.2 ⟨complete, finished⟩)]
  | refuse absent =>
      rw [Configuration.top] at absent
      rw [absent]
      rfl

end Grammar

end ShiftReduce
