/-
This file shows that a stack follows the transitions of its collection and spells the items on top.
-/

import ShiftReduce.Proofs.Run.Moves

namespace ShiftReduce

/-- Each frame holds the state to which its symbol leads from the state below. -/
def Linked (grammar : Grammar) : List Frame → Prop
  | [] => True
  | frame :: rest =>
      grammar.transition (topState rest) frame.symbol = some frame.state ∧ Linked grammar rest

/-- The symbols of some frames are read from below. -/
def spelled (frames : List Frame) : List Symbol :=
  (frames.map Frame.symbol).reverse

section Linked

variable {grammar : Grammar} {stack : List Frame}

theorem Linked.drop (linked : Linked grammar stack) (count : Nat) :
    Linked grammar (stack.drop count) := by
  induction count generalizing stack with
  | zero => exact linked
  | succ count ih =>
      cases stack with
      | nil => exact linked
      | cons frame rest => exact ih linked.2

/-- The top frames spell what the top item has recognized, and its beginning lies right below. -/
theorem spelled_of_item (linked : Linked grammar stack) {index dot : Nat} {rule : Rule}
    (found : grammar.rules[index]? = some rule)
    (member : (⟨index, dot⟩ : Item) ∈ grammar.stateItems (topState stack)) :
    spelled (stack.take dot) = rule.rhs.take dot ∧ dot ≤ stack.length ∧
      (⟨index, 0⟩ : Item) ∈ grammar.stateItems (topState (stack.drop dot)) := by
  induction dot generalizing stack with
  | zero => exact ⟨by simp [spelled], Nat.zero_le _, member⟩
  | succ dot ih =>
      cases stack with
      | nil =>
          have start := Grammar.dot_of_mem_startState member
          exact absurd start (Nat.succ_ne_zero dot)
      | cons frame rest =>
          obtain ⟨moves, below⟩ := linked
          obtain ⟨inside, reads⟩ := (Grammar.mem_stateItems_succ moves).1 member
          obtain ⟨spells, covered, start⟩ := ih below inside
          rw [Grammar.nextSymbol_of_rule found] at reads
          refine ⟨?_, Nat.succ_le_succ covered, start⟩
          rw [List.take_add_one (l := rule.rhs), reads, ← spells]
          simp [spelled]

/-- The state on top holds an item of each number under which a rule is listed. -/
theorem item_mem_of_same_rule {stack : List Frame} (linked : Linked grammar stack)
    {index other dot : Nat} {rule : Rule}
    (later : index ≠ 0)
    (found : grammar.rules[index]? = some rule) (same : grammar.rules[other]? = some rule)
    (member : (⟨index, dot⟩ : Item) ∈ grammar.stateItems (topState stack)) :
    (⟨other, dot⟩ : Item) ∈ grammar.stateItems (topState stack) := by
  induction dot generalizing stack with
  | zero =>
      obtain ⟨caller, inside, calls⟩ := Grammar.exists_caller later member
      obtain ⟨called, again, reads, _⟩ := Grammar.mem_calledItems.1 calls
      obtain rfl := Option.some.inj (again.symm.trans found)
      exact Grammar.called_mem_stateItems inside
        (Grammar.mem_calledItems.2 ⟨called, same, reads, rfl⟩)
  | succ dot ih =>
      cases stack with
      | nil => exact absurd (Grammar.dot_of_mem_startState member) (Nat.succ_ne_zero dot)
      | cons frame rest =>
          obtain ⟨inside, reads⟩ := (Grammar.mem_stateItems_succ linked.1).1 member
          apply (Grammar.mem_stateItems_succ linked.1).2
          refine ⟨ih linked.2 inside, ?_⟩
          rw [Grammar.nextSymbol_of_rule found] at reads
          rw [Grammar.nextSymbol_of_rule same, reads]

/-- The frames that a reduction takes spell its right-hand side. -/
theorem spelled_of_complete (linked : Linked grammar stack) {index : Nat} {rule : Rule}
    (found : grammar.rules[index]? = some rule)
    (complete : (⟨index, rule.rhs.length⟩ : Item) ∈ grammar.stateItems (topState stack)) :
    spelled (stack.take rule.rhs.length) = rule.rhs := by
  have spells := (spelled_of_item linked found complete).1
  rwa [List.take_length] at spells

/-- Below a complete item there is a transition on its left-hand side. -/
theorem exists_uncovered (linked : Linked grammar stack) {index : Nat} {rule : Rule}
    (later : index ≠ 0) (found : grammar.rules[index]? = some rule)
    (complete : (⟨index, rule.rhs.length⟩ : Item) ∈ grammar.stateItems (topState stack)) :
    ∃ state, grammar.transition (topState (stack.drop rule.rhs.length)) rule.lhs = some state := by
  obtain ⟨_, _, start⟩ := spelled_of_item linked found complete
  obtain ⟨caller, member, calls⟩ := Grammar.exists_caller later start
  obtain ⟨other, again, reads, _⟩ := Grammar.mem_calledItems.1 calls
  obtain rfl := Option.some.inj (again.symm.trans found)
  exact Grammar.exists_transition member reads

/-- The added rule is complete only when the declared start symbol is all that lies on the stack. -/
theorem stack_of_accepting (linked : Linked grammar stack)
    (complete : (⟨0, 1⟩ : Item) ∈ grammar.stateItems (topState stack)) :
    ∃ state, stack = [⟨grammar.declaredStart, state⟩] := by
  obtain ⟨spells, covered, start⟩ := spelled_of_item linked grammar.rules_zero complete
  cases stack with
  | nil => exact absurd covered (by simp)
  | cons frame rest =>
      cases rest with
      | nil =>
          have symbol : frame.symbol = 1 := by simpa [spelled] using spells
          refine ⟨frame.state, ?_⟩
          rw [Grammar.declaredStart_eq, ← symbol]
      | cons below rest =>
          exact absurd start (Grammar.startItem_not_mem_of_transition linked.2.1)

end Linked

namespace Configuration

variable (grammar : Grammar)

/-- A shift reads the next terminal, and a reduction replaces the frames of a right-hand side. -/
inductive Moves : Configuration → Move → Configuration → Prop
  | shift {stack : List Frame} {symbol : Symbol} {rest : List Symbol} {state : Nat}
      (moves : grammar.transition (topState stack) symbol = some state) :
      Moves ⟨stack, symbol :: rest⟩ (.shift state) ⟨⟨symbol, state⟩ :: stack, rest⟩
  | reduce {stack : List Frame} {input : List Symbol} {index state : Nat} {rule : Rule}
      (later : index ≠ 0) (found : grammar.rules[index]? = some rule)
      (complete : (⟨index, rule.rhs.length⟩ : Item) ∈ grammar.stateItems (topState stack))
      (follows : (⟨stack, input⟩ : Configuration).lookahead grammar ∈ grammar.follow rule.lhs)
      (moves : grammar.transition (topState (stack.drop rule.rhs.length)) rule.lhs =
        some state) :
      Moves ⟨stack, input⟩ (.reduce index)
        ⟨⟨rule.lhs, state⟩ :: stack.drop rule.rhs.length, input⟩

variable {grammar} {before after : Configuration} {move : Move}

theorem Moves.decides (moves : Moves grammar before move after) : before.Decides grammar move := by
  cases moves with
  | shift moves => exact .shift moves
  | reduce later found complete follows _ => exact .reduce later found complete follows

theorem Moves.linked (moves : Moves grammar before move after)
    (linked : Linked grammar before.stack) : Linked grammar after.stack := by
  cases moves with
  | shift moves => exact ⟨moves, linked⟩
  | reduce _ _ _ _ moves => exact ⟨moves, linked.drop _⟩

theorem Moves.readable (moves : Moves grammar before move after)
    (readable : before.Readable grammar) : after.Readable grammar := by
  cases moves with
  | shift _ => exact fun symbol inside => readable symbol (List.mem_cons_of_mem _ inside)
  | reduce _ _ _ _ _ => exact readable

theorem Moves.apply (moves : Moves grammar before move after) :
    before.apply grammar grammar.table move = some after := by
  cases moves with
  | shift _ => rfl
  | @reduce stack input index state rule later found _ _ moves =>
      have declared := List.mem_of_getElem? found
      have column : rule.lhs < grammar.nonterminalCount :=
        grammar.wellFormed.lhs_nonterminal rule declared
      rw [Configuration.apply, found, Option.bind_some, Configuration.reduce]
      dsimp only
      rw [Grammar.goto_eq_transition column, moves, Option.map_some]

variable (conflictFree : grammar.table.hasConflict = false)

include conflictFree

theorem Moves.move_eq (moves : Moves grammar before move after)
    (readable : before.Readable grammar) : before.move grammar grammar.table = move :=
  Grammar.move_eq conflictFree readable moves.decides

theorem Moves.next (moves : Moves grammar before move after)
    (readable : before.Readable grammar) : before.next grammar = some after := by
  rw [Configuration.next, moves.move_eq conflictFree readable, moves.apply]

/-- A move that ends the run accepts or refuses, and no other move fails. -/
theorem moves_or_ends (linked : Linked grammar before.stack) (readable : before.Readable grammar) :
    (∃ after, Moves grammar before (before.move grammar grammar.table) after) ∨
      before.move grammar grammar.table = .accept ∨
      before.move grammar grammar.table =
        .refuse (.unexpected before.top (before.lookahead grammar)) := by
  have decided : before.Decides grammar (before.move grammar grammar.table) :=
    Grammar.decides_move conflictFree
  generalize before.move grammar grammar.table = move at decided ⊢
  cases decided with
  | shift moves =>
      obtain ⟨stack, input⟩ := before
      cases input with
      | nil =>
          have bound := Grammar.lt_endMarker_of_transition moves
          exact absurd bound (Nat.lt_irrefl _)
      | cons symbol rest => exact .inl ⟨_, .shift moves⟩
  | reduce later found complete follows =>
      obtain ⟨state, moves⟩ := exists_uncovered linked later found complete
      exact .inl ⟨_, .reduce later found complete follows moves⟩
  | accept _ _ => exact .inr (.inl rfl)
  | refuse _ => exact .inr (.inr rfl)

/-- The next configuration is reached by a justified move. -/
theorem moves_of_next (linked : Linked grammar before.stack) (readable : before.Readable grammar)
    (continues : before.next grammar = some after) :
    Moves grammar before (before.move grammar grammar.table) after := by
  rcases moves_or_ends conflictFree linked readable with ⟨reached, moves⟩ | ends
  · have again := moves.next conflictFree readable
    rw [continues] at again
    exact Option.some.inj again ▸ moves
  · rw [Configuration.next] at continues
    rcases ends with accepts | refuses
    · rw [accepts] at continues
      cases continues
    · rw [refuses] at continues
      cases continues

end Configuration

end ShiftReduce
