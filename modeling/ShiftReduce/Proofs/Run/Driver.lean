/-
This file runs the driver on the entries of its stack and names every place where it could break.
-/

import ShiftReduce.Proofs.Run.Trajectory

namespace ShiftReduce

/-- The driver breaks down when something is missing on which it relies. -/
inductive Breakdown
  | noState
  | noInput
  | conflictCell
  | unknownRule
  | shortStack
  | missingGoto

/-- The last entry is the top of the stack, and the position counts the tokens that were read. -/
structure Driver where
  stack : List StackEntry
  position : Nat

namespace Driver

def start : Driver := ⟨[.state 0], 0⟩

def topOf (stack : List StackEntry) : Except Breakdown Nat :=
  match stack.getLast? with
  | some (.state number) => .ok number
  | _ => .error .noState

/-- Each symbol takes its state along from the top of the stack. -/
def uncover (stack : List StackEntry) (count : Nat) : Except Breakdown (List StackEntry) :=
  if 2 * count ≤ stack.length then .ok (stack.take (stack.length - 2 * count))
  else .error .shortStack

def push (stack : List StackEntry) (symbol : Symbol) (state : Nat) : List StackEntry :=
  stack ++ [.symbol symbol, .state state]

def reduce (table : ParseTable) (rule : Rule) (driver : Driver) : Except Breakdown Driver := do
  let uncovered ← uncover driver.stack rule.rhs.length
  let state ← topOf uncovered
  match table.goto state rule.lhs with
  | none => .error .missingGoto
  | some next => .ok { driver with stack := push uncovered rule.lhs next }

/-- A conflict cell decides no move. -/
def moveOf (state : Nat) (lookahead : Symbol) : Option Action → Except Breakdown Move
  | none => .ok (.refuse (.unexpected state lookahead))
  | some (.shift next) => .ok (.shift next)
  | some (.reduce index) => .ok (.reduce index)
  | some .accept => .ok .accept
  | some (.conflict _) => .error .conflictCell

/-- Accepting and refusing end the run. -/
def perform (grammar : Grammar) (table : ParseTable) (lookahead : Symbol) (driver : Driver) :
    Move → Except Breakdown (Option Driver)
  | .shift next => .ok (some ⟨push driver.stack lookahead next, driver.position + 1⟩)
  | .reduce index =>
      match grammar.rules[index]? with
      | none => .error .unknownRule
      | some rule => some <$> driver.reduce table rule
  | .accept => .ok none
  | .refuse _ => .ok none

/-- The state on top and the token under the position decide a round. -/
def advance (grammar : Grammar) (table : ParseTable) (tokens : List Symbol) (driver : Driver) :
    Except Breakdown (Move × Option Driver) := do
  let state ← topOf driver.stack
  match tokens[driver.position]? with
  | none => .error .noInput
  | some lookahead => do
      let move ← moveOf state lookahead (table.action state lookahead)
      let after ← driver.perform grammar table lookahead move
      .ok (move, after)

/-- A record shows at most the given number of rounds. -/
def record (grammar : Grammar) (table : ParseTable) (tokens : List Symbol) :
    Nat → Driver → Except Breakdown (List TraceStep)
  | 0, _ => .ok []
  | rounds + 1, driver =>
      match driver.advance grammar table tokens with
      | .error breakdown => .error breakdown
      | .ok (move, after) =>
          let step : TraceStep := ⟨driver.stack, tokens.drop driver.position, move⟩
          match after with
          | none => .ok [step]
          | some after => (step :: ·) <$> record grammar table tokens rounds after

/-- The driver is reached from its start by any number of rounds. -/
inductive Reached (grammar : Grammar) (table : ParseTable) (tokens : List Symbol) : Driver → Prop
  | start : Reached grammar table tokens start
  | round {before after : Driver} {move : Move} (reached : Reached grammar table tokens before)
      (advances : before.advance grammar table tokens = .ok (move, some after)) :
      Reached grammar table tokens after

/-- The driver has the entries of a configuration, and the end marker is behind the input. -/
structure Shows (grammar : Grammar) (tokens : List Symbol) (configuration : Configuration)
    (driver : Driver) : Prop where
  stack : driver.stack = configuration.entries
  input : tokens.drop driver.position = configuration.input ++ [grammar.endMarker]

section Entries

variable {stack : List Frame} {input : List Symbol}

theorem entries_append (front rest : List Frame) (input : List Symbol) :
    (⟨front ++ rest, input⟩ : Configuration).entries =
      (⟨rest, input⟩ : Configuration).entries ++
        front.reverse.flatMap fun frame => [.symbol frame.symbol, .state frame.state] := by
  simp [Configuration.entries]

theorem entries_cons (frame : Frame) (rest : List Frame) (input : List Symbol) :
    (⟨frame :: rest, input⟩ : Configuration).entries =
      push (⟨rest, input⟩ : Configuration).entries frame.symbol frame.state :=
  entries_append [frame] rest input

theorem length_entries (stack : List Frame) (input : List Symbol) :
    (⟨stack, input⟩ : Configuration).entries.length = 2 * stack.length + 1 := by
  induction stack with
  | nil => rfl
  | cons frame rest ih =>
      rw [entries_cons, push, List.length_append, ih]
      simp only [List.length_cons, List.length_nil]
      omega

/-- The state of the last frame is on top. -/
theorem topOf_entries (stack : List Frame) (input : List Symbol) :
    topOf (⟨stack, input⟩ : Configuration).entries = .ok (topState stack) := by
  cases stack with
  | nil => rfl
  | cons frame rest => simp [topOf, entries_cons, push, topState]

/-- The entries of so many frames are taken off. -/
theorem uncover_entries {count : Nat} (enough : count ≤ stack.length) :
    uncover (⟨stack, input⟩ : Configuration).entries count =
      .ok (⟨stack.drop count, input⟩ : Configuration).entries := by
  have length := length_entries stack input
  have remaining := length_entries (stack.drop count) input
  rw [List.length_drop] at remaining
  rw [uncover, if_pos (by omega)]
  have split := entries_append (stack.take count) (stack.drop count) input
  rw [List.take_append_drop] at split
  rw [split, List.take_left']
  rw [← split]
  omega

end Entries

section Rounds

variable {grammar : Grammar} {tokens : List Symbol} {before after : Configuration}
  {driver : Driver} {move : Move}

theorem Shows.start (terminals : List Symbol) :
    Shows grammar (terminals ++ [grammar.endMarker]) (.initial terminals) .start :=
  ⟨rfl, rfl⟩

/-- The token under the position is the lookahead. -/
theorem Shows.lookahead (shows : Shows grammar tokens before driver) :
    tokens[driver.position]? = some (before.lookahead grammar) := by
  have first : (tokens.drop driver.position)[0]? = some (before.lookahead grammar) := by
    rw [shows.input, Configuration.lookahead]
    cases before.input <;> rfl
  rwa [List.getElem?_drop, Nat.add_zero] at first

/-- The position stays inside the tokens. -/
theorem Shows.inside (shows : Shows grammar tokens before driver) :
    driver.position < tokens.length :=
  (List.getElem?_eq_some_iff.1 shows.lookahead).1

variable (conflictFree : grammar.table.hasConflict = false)

include conflictFree

theorem moveOf_action (configuration : Configuration) :
    moveOf configuration.top (configuration.lookahead grammar)
        (grammar.table.action configuration.top (configuration.lookahead grammar)) =
      .ok (configuration.move grammar grammar.table) := by
  cases found : grammar.table.action configuration.top (configuration.lookahead grammar) with
  | none =>
      rw [Configuration.top] at found
      rw [Configuration.move, found]
      rfl
  | some action =>
      have single := Grammar.isConflict_eq_false conflictFree found
      rw [Configuration.top] at found
      rw [Configuration.move, found]
      cases action with
      | conflict _ => cases single
      | shift _ | reduce _ | accept => rfl

theorem Shows.advance_eq (shows : Shows grammar tokens before driver) :
    driver.advance grammar grammar.table tokens =
      (driver.perform grammar grammar.table (before.lookahead grammar)
        (before.move grammar grammar.table)).map
          fun after => (before.move grammar grammar.table, after) := by
  have decided := moveOf_action conflictFree before
  have top : topOf driver.stack = .ok before.top := by rw [shows.stack, topOf_entries]; rfl
  simp only [advance, top, shows.lookahead, bind, Except.bind, decided]
  cases driver.perform grammar grammar.table (before.lookahead grammar)
    (before.move grammar grammar.table) <;> rfl

omit conflictFree

/-- A justified move does not break down. -/
theorem Shows.perform_of_moves (shows : Shows grammar tokens before driver)
    (linked : Linked grammar before.stack)
    (moves : Configuration.Moves grammar before move after) :
    ∃ reached, driver.perform grammar grammar.table (before.lookahead grammar) move =
        .ok (some reached) ∧ Shows grammar tokens after reached := by
  obtain ⟨entries, position⟩ := driver
  obtain ⟨same, input⟩ := shows
  cases moves with
  | @shift stack symbol rest state _ =>
      refine ⟨⟨push entries symbol state, position + 1⟩, rfl, ?_, ?_⟩
      · rw [entries_cons]
        exact congrArg (push · symbol state) same
      · dsimp only at input ⊢
        rw [← List.tail_drop, input]
        rfl
  | @reduce stack rest index state rule later found complete follows moves =>
      have enough := (spelled_of_item linked found complete).2.1
      have column := grammar.wellFormed.lhs_nonterminal rule (List.mem_of_getElem? found)
      let uncovered := (⟨stack.drop rule.rhs.length, rest⟩ : Configuration).entries
      refine ⟨⟨push uncovered rule.lhs state, position⟩, ?_, ?_, input⟩
      · dsimp only at same
        simp only [perform, found, reduce, same, uncover_entries enough, bind, Except.bind,
          topOf_entries, Grammar.goto_eq_transition column, moves]
        rfl
      · exact (entries_cons ⟨rule.lhs, state⟩ (stack.drop rule.rhs.length) rest).symm

variable (conflictFree : grammar.table.hasConflict = false)

include conflictFree

/-- A round of the driver is a step of the configuration that it shows, and it never breaks down. -/
theorem Shows.round (shows : Shows grammar tokens before driver)
    (consistent : before.Consistent grammar) :
    ∃ reached, driver.advance grammar grammar.table tokens =
        .ok (before.move grammar grammar.table, reached) ∧
      Option.Rel (Shows grammar tokens) (before.next grammar) reached := by
  rw [shows.advance_eq conflictFree]
  rcases Configuration.moves_or_ends conflictFree consistent.linked consistent.readable with
    ⟨after, moves⟩ | accepts | refuses
  · obtain ⟨reached, performed, shows⟩ := shows.perform_of_moves consistent.linked moves
    rw [performed, moves.next conflictFree consistent.readable]
    exact ⟨some reached, rfl, .some shows⟩
  · rw [Configuration.next_of_accept accepts, accepts]
    exact ⟨none, rfl, .none⟩
  · rw [Configuration.next_of_refuse refuses, refuses]
    exact ⟨none, rfl, .none⟩

/-- Every reached driver shows a reached configuration. -/
theorem Reached.shows {terminals : List Symbol}
    (terminal : ∀ symbol ∈ terminals, grammar.isTerminal symbol = true)
    (reached : Reached grammar grammar.table (terminals ++ [grammar.endMarker]) driver) :
    ∃ configuration, Configuration.Reaches grammar (.initial terminals) configuration ∧
      Shows grammar (terminals ++ [grammar.endMarker]) configuration driver := by
  induction reached with
  | start => exact ⟨_, Relation.ReflTransGen.refl, Shows.start terminals⟩
  | round _ advances ih =>
      obtain ⟨configuration, reaches, shows⟩ := ih
      have consistent := (Configuration.consistent_initial terminal).reaches conflictFree reaches
      obtain ⟨after, advanced, related⟩ := shows.round conflictFree consistent
      rw [advances, Except.ok.injEq, Prod.mk.injEq] at advanced
      obtain ⟨_, rfl⟩ := advanced
      cases continues : configuration.next grammar with
      | none =>
          rw [continues] at related
          cases related
      | some next =>
          rw [continues] at related
          cases related with
          | some shows => exact ⟨next, reaches.tail continues, shows⟩

/-- The driver records the steps of the configurations that it shows. -/
theorem Shows.record_eq (shows : Shows grammar tokens before driver)
    (consistent : before.Consistent grammar) (rounds : Nat) :
    driver.record grammar grammar.table tokens rounds =
      .ok (grammar.record grammar.table rounds before) := by
  induction rounds generalizing before driver with
  | zero => rfl
  | succ rounds ih =>
      obtain ⟨after, advanced, related⟩ := shows.round conflictFree consistent
      rw [Configuration.record_succ, record, advanced]
      dsimp only
      rw [shows.stack, shows.input]
      cases continues : before.next grammar with
      | none =>
          rw [continues] at related
          cases related
          rfl
      | some next =>
          rw [continues] at related
          cases related with
          | some later =>
              dsimp only
              rw [ih later (consistent.step conflictFree continues)]
              rfl

end Rounds

end Driver

end ShiftReduce
