/-
This file shows that a run reads nothing but fronts of sentential forms, and that it refuses no
token with which a word of the language could go on.
-/

import ShiftReduce.Proofs.Items.Prefixes
import ShiftReduce.Proofs.Language
import ShiftReduce.Proofs.Run.Safety

namespace ShiftReduce

/-- A shift reads one more token. -/
def TraceStep.shifts (step : TraceStep) : Bool :=
  match step.move with
  | .shift _ => true
  | _ => false

/-- So many tokens were read by the steps. -/
def shiftCount (steps : List TraceStep) : Nat :=
  steps.countP TraceStep.shifts

namespace Grammar

variable (grammar : Grammar)

/-- The words of the language are the terminal strings that the declared start symbol derives. -/
def InLanguage (word : List Symbol) : Prop :=
  (∀ symbol ∈ word, grammar.isTerminal symbol = true) ∧
    Derives grammar.declaredRules [grammar.declaredStart] word

/-- No word goes on with the token behind the front, and none ends there if the token is the end. -/
structure Excludes (front : List Symbol) (token : Symbol) : Prop where
  middle : token ≠ grammar.endMarker → ∀ word, grammar.InLanguage word → ¬ front ++ [token] <+: word
  ending : token = grammar.endMarker → ¬ grammar.InLanguage front

end Grammar

namespace Configuration

variable {grammar : Grammar} {terminals : List Symbol} {stack : List Frame}
  {first between last : Configuration}

/-- The transitions along the symbols of a stack lead to its top state. -/
theorem find_spelled (linked : Linked grammar stack) :
    grammar.collection.find (grammar.gotoAlong (spelled stack)) = some (topState stack) := by
  induction stack with
  | nil => exact Grammar.find_gotoAlong_nil
  | cons frame rest ih =>
      have moves : grammar.transition (topState rest) frame.symbol = _ :=
        Grammar.transition_eq_find (ih linked.2)
      rw [linked.1] at moves
      simpa [spelled, topState] using moves.symm

theorem beginsForm_spelled (linked : Linked grammar stack) :
    grammar.BeginsForm (spelled stack) := by
  obtain ⟨⟨_, member⟩, _⟩ := Grammar.find_eq_some_iff.1 (find_spelled linked)
  exact (Grammar.valid_of_mem_gotoAlong member).beginsForm

/-- Each recorded step shows a configuration behind the steps that are recorded before it. -/
theorem passes_of_record {fuel : Nat} {before after : List TraceStep} {here : TraceStep}
    (recorded : grammar.record grammar.table fuel first = before ++ here :: after) :
    ∃ visited between, Passes grammar first visited between ∧
      before = visited.map (step grammar) ∧ here = between.step grammar := by
  induction fuel generalizing first before with
  | zero => simp [Grammar.record] at recorded
  | succ fuel ih =>
      rw [record_succ] at recorded
      cases before with
      | nil => exact ⟨[], first, .stay first, rfl, (List.cons.inj recorded).1.symm⟩
      | cons earlier others =>
          obtain ⟨rfl, rest⟩ := List.cons.inj recorded
          split at rest
          · simp at rest
          · next second continues =>
              obtain ⟨visited, between, passes, rfl, shown⟩ := ih rest
              exact ⟨first :: visited, between, .step continues passes, rfl, shown⟩

variable (conflictFree : grammar.table.hasConflict = false)

include conflictFree

/-- Each shift takes one symbol from the input. -/
theorem Consistent.length_input (consistent : first.Consistent grammar)
    {visited : List Configuration} (passes : Passes grammar first visited last) :
    shiftCount (visited.map (Configuration.step grammar)) + last.input.length =
      first.input.length := by
  induction passes with
  | stay _ => simp [shiftCount]
  | @step before after last visited continues _ ih =>
      have moves := consistent.moves conflictFree continues
      have later := ih (consistent.step conflictFree continues)
      have taken : after.input.length + (if (before.step grammar).shifts then 1 else 0) =
          before.input.length := by
        generalize decided : before.move grammar grammar.table = move at moves
        cases moves <;> simp [TraceStep.shifts, Configuration.step, decided]
      rw [shiftCount] at later ⊢
      rw [List.map_cons, List.countP_cons]
      omega

variable (terminal : ∀ symbol ∈ terminals, grammar.isTerminal symbol = true)

include terminal

/-- As many tokens were read as there were shifts. -/
theorem shiftCount_eq {visited : List Configuration} {consumed : List Symbol}
    (passes : Passes grammar (.initial terminals) visited last)
    (whole : consumed ++ last.input = terminals) :
    shiftCount (visited.map (step grammar)) = consumed.length := by
  have count := (consistent_initial terminal).length_input conflictFree passes
  simpa [initial, ← whole] using count

/-- What was read begins a sentential form, and so does what a shift is about to read. -/
theorem exists_form (reaches : Reaches grammar (.initial terminals) between) :
    ∃ consumed, consumed ++ between.input = terminals ∧ grammar.BeginsForm consumed ∧
      ∀ state, between.move grammar grammar.table = .shift state →
        ∃ token rest, between.input = token :: rest ∧ grammar.BeginsForm (consumed ++ [token]) := by
  have consistent := (consistent_initial terminal).reaches conflictFree reaches
  obtain ⟨consumed, whole, derives⟩ := exists_consumed conflictFree terminal reaches
  refine ⟨consumed, whole, (beginsForm_spelled consistent.linked).derives derives, ?_⟩
  intro state shifts
  rcases moves_or_ends conflictFree consistent.linked consistent.readable with
    ⟨after, moves⟩ | ends | ends
  · rw [shifts] at moves
    obtain ⟨stack, input⟩ := between
    cases moves with
    | @shift _ symbol rest _ moves =>
        have linked : Linked grammar (⟨symbol, state⟩ :: stack) := ⟨moves, consistent.linked⟩
        have begins := beginsForm_spelled linked
        simp only [spelled, List.map_cons, List.reverse_cons] at begins
        exact ⟨symbol, rest, rfl, begins.derives (derives.append (Derives.refl [symbol]))⟩
  · simp [shifts] at ends
  · simp [shifts] at ends

/-- A run looks no further than at the next token, so other tokens behind it make no difference. -/
theorem exists_same_reach (reaches : Reaches grammar (.initial terminals) between) :
    ∃ consumed, consumed ++ between.input = terminals ∧
      ∀ tail : List Symbol, (∀ symbol ∈ tail, grammar.isTerminal symbol = true) →
        tail.head?.getD grammar.endMarker = between.lookahead grammar →
        Reaches grammar (.initial (consumed ++ tail)) ⟨between.stack, tail⟩ := by
  induction reaches with
  | refl => exact ⟨[], rfl, fun tail _ _ => Relation.ReflTransGen.refl⟩
  | @tail middle after earlier continues ih =>
      have consistent := (consistent_initial terminal).reaches conflictFree earlier
      have moves := consistent.moves conflictFree continues
      obtain ⟨consumed, rfl, same⟩ := ih
      generalize middle.move grammar grammar.table = move at moves
      cases moves with
      | @shift stack symbol rest state moves =>
          -- The shift looked at its own symbol only, so behind it any tail will do.
          refine ⟨consumed ++ [symbol], by simp, fun tail readable _ => ?_⟩
          have longer : ∀ other ∈ symbol :: tail, grammar.isTerminal other = true :=
            List.forall_mem_cons.2 ⟨consistent.readable symbol List.mem_cons_self, readable⟩
          have reads : Moves grammar ⟨stack, symbol :: tail⟩ (.shift state) _ := .shift moves
          rw [List.append_assoc]
          exact (same (symbol :: tail) longer rfl).tail (reads.next conflictFree longer)
      | @reduce stack input index state rule later found complete follows moves =>
          refine ⟨consumed, rfl, fun tail readable leading => ?_⟩
          have reduces : Moves grammar ⟨stack, tail⟩ (.reduce index) _ :=
            .reduce later found complete (by
              change tail.head?.getD grammar.endMarker ∈ _
              rwa [leading]) moves
          exact (same tail readable leading).tail (reduces.next conflictFree readable)

/-- Where a run refuses, no word of the language goes on with the lookahead. -/
theorem not_inLanguage_of_refuse (reaches : Reaches grammar (.initial terminals) between)
    {error : RunError} (refuses : between.move grammar grammar.table = .refuse error) :
    ∃ consumed, consumed ++ between.input = terminals ∧
      ∀ tail : List Symbol, tail.head?.getD grammar.endMarker = between.lookahead grammar →
        ¬ grammar.InLanguage (consumed ++ tail) := by
  obtain ⟨consumed, whole, same⟩ := exists_same_reach conflictFree terminal reaches
  refine ⟨consumed, whole, fun tail leading language => ?_⟩
  obtain ⟨readable, derives⟩ := language
  obtain ⟨tree, root, leaves, derivation⟩ := Tree.exists_tree_of_derives derives readable
  obtain ⟨visited, last, passes, accepts, _⟩ := accepts_leaves conflictFree ⟨derivation, root⟩
  rw [leaves] at passes
  have reached := same tail (fun symbol listed => readable symbol (List.mem_append_right _ listed))
    leading
  have refused : (⟨between.stack, tail⟩ : Configuration).move grammar grammar.table =
      .refuse error := by
    rw [← refuses]
    simp only [move, lookahead] at leading ⊢
    rw [leading]
  have final := eq_of_ends passes.reaches (next_of_accept accepts) reached (next_of_refuse refused)
  rw [final, refused] at accepts
  cases accepts

end Configuration

namespace CompiledGrammar

/-- A syntax error is the last move of a run that ends. -/
theorem exists_refuse {compiled : CompiledGrammar} (conflictFree : compiled.hasConflict = false)
    {sentence : String} {terminals : List Symbol}
    (spells : compiled.grammar.Spells sentence terminals)
    (failed : (compiled.run sentence).state = .syntaxError) : ∃ visited last,
      Configuration.Passes compiled.grammar (.initial terminals) visited last ∧
        compiled.run sentence =
          ⟨(visited ++ [last]).map (Configuration.step compiled.grammar)⟩ ∧
        last.move compiled.grammar compiled.grammar.table =
          .refuse (.unexpected last.top (last.lookahead compiled.grammar)) := by
  rcases run_verdict conflictFree spells with
    ⟨visited, last, passes, recorded, accepts | refuses⟩ | ⟨_, never⟩
  · rw [recorded, Trace.state, Configuration.lastMove_of_steps, accepts] at failed
    cases failed
  · exact ⟨visited, last, passes, recorded, refuses⟩
  · rw [never] at failed
    cases failed

/--
Each step of a run without conflicts stands behind tokens that begin a sentential form, and so do
these tokens with the one that the step shifts. When the run stops with a syntax error, no word of
the language goes on with the refused token behind the tokens that were shifted.
-/
theorem prefixes_viable (compiled : CompiledGrammar) (conflictFree : compiled.hasConflict = false)
    {sentence : String} {tokens : List Symbol}
    (tokenized : compiled.grammar.tokenize sentence = .ok tokens) :
    (∀ rounds before step after,
      compiled.grammar.record compiled.table rounds (.initial tokens.dropLast) =
        before ++ step :: after →
      step.input = tokens.drop (shiftCount before) ∧
        compiled.grammar.BeginsForm (tokens.take (shiftCount before)) ∧
        ∀ state, step.move = .shift state → ∃ token, tokens[shiftCount before]? = some token ∧
          compiled.grammar.BeginsForm (tokens.take (shiftCount before) ++ [token])) ∧
    (compiled.run sentence).steps = compiled.grammar.record compiled.table
      (compiled.grammar.stepLimit tokens.dropLast.length) (.initial tokens.dropLast) ∧
    ((compiled.run sentence).state = .syntaxError → ∃ before step state token,
      (compiled.run sentence).steps = before ++ [step] ∧
        step.move = .refuse (.unexpected state token) ∧
        tokens[shiftCount before]? = some token ∧
        compiled.grammar.Excludes (tokens.take (shiftCount before)) token) := by
  obtain ⟨terminals, spells, rfl⟩ := Grammar.exists_spells_of_tokenize tokenized
  have unblocked := table_hasConflict conflictFree
  have steps := congrArg Trace.steps (run_of_spells conflictFree spells)
  rw [table_eq_table, List.dropLast_concat]
  refine ⟨?_, steps, ?_⟩
  · intro rounds before step after recorded
    obtain ⟨visited, between, passes, rfl, rfl⟩ := Configuration.passes_of_record recorded
    obtain ⟨consumed, rfl, begins, shifts⟩ :=
      Configuration.exists_form unblocked spells.terminal passes.reaches
    have count := Configuration.shiftCount_eq unblocked spells.terminal passes rfl
    rw [count, List.append_assoc, List.drop_left, List.take_left]
    refine ⟨rfl, begins, fun state moves => ?_⟩
    obtain ⟨token, rest, left, longer⟩ := shifts state moves
    exact ⟨token, by simp [left], longer⟩
  · intro failed
    obtain ⟨visited, last, passes, recorded, refuses⟩ := exists_refuse conflictFree spells failed
    obtain ⟨consumed, rfl, outside⟩ :=
      Configuration.not_inLanguage_of_refuse unblocked spells.terminal passes.reaches refuses
    have count := Configuration.shiftCount_eq unblocked spells.terminal passes rfl
    refine ⟨visited.map (Configuration.step compiled.grammar), last.step compiled.grammar, last.top,
      last.lookahead compiled.grammar, by simp [recorded], refuses, ?_, ?_⟩
    · rw [count, List.append_assoc, List.getElem?_append_right (Nat.le_refl _), Nat.sub_self]
      cases input : last.input <;> simp [Configuration.lookahead, input]
    · rw [count, List.append_assoc, List.take_left]
      constructor
      · rintro _ word language ⟨rest, rfl⟩
        rw [List.append_assoc] at language
        exact outside (_ :: rest) rfl language
      · intro finished language
        rw [← List.append_nil consumed] at language
        exact outside [] finished.symm language

/-- The closing parenthesis is refused behind a reduction on it, and no word begins in this way. -/
theorem prefixes_viable_parentheses : ∃ compiled, ofText "S ( S )\nS x" = .ok compiled ∧
    compiled.hasConflict = false ∧ compiled.grammar.tokenize "x )" = .ok [4, 3, 5] ∧
    (compiled.run "x )").reductions = [⟨1, 2⟩] ∧ compiled.grammar.Excludes [4] 3 := by
  obtain ⟨compiled, compiles, evaluated⟩ := exists_of_ofText "S ( S )\nS x"
    (fun compiled => !compiled.hasConflict &&
      decide ((compiled.grammar.tokenize "x )").toOption = some [4, 3, 5] ∧
        (compiled.run "x )").state = .syntaxError ∧
        (compiled.run "x )").reductions = [⟨1, 2⟩] ∧
        shiftCount (compiled.run "x )").steps.dropLast = 1))
    (by decide +kernel)
  simp only [Bool.and_eq_true, Bool.not_eq_true', decide_eq_true_eq] at evaluated
  obtain ⟨conflictFree, tokens, failed, reductions, count⟩ := evaluated
  have tokenized : compiled.grammar.tokenize "x )" = .ok [4, 3, 5] := by
    cases known : compiled.grammar.tokenize "x )" with
    | error fault => rw [known] at tokens; cases tokens
    | ok found => rw [known] at tokens; exact congrArg _ (Option.some.inj tokens)
  obtain ⟨before, step, state, token, steps, _, found, excludes⟩ :=
    (prefixes_viable compiled conflictFree tokenized).2.2 failed
  rw [steps, List.dropLast_concat] at count
  rw [count] at found excludes
  obtain rfl := Option.some.inj found
  exact ⟨compiled, compiles, conflictFree, tokenized, reductions, excludes⟩

end CompiledGrammar

end ShiftReduce
