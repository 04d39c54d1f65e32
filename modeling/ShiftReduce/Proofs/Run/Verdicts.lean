/-
This file shows that the trace of a sentence tells how its run halts.
-/

import ShiftReduce.Proofs.Run.Faithful
import ShiftReduce.Proofs.Run.Halting

namespace ShiftReduce

namespace Trace

/-- A move in front of other steps does not matter for the state, and alone it leaves it running. -/
theorem state_cons {step : TraceStep} (onward : step.move.isFinal = false)
    (later : List TraceStep) : (⟨step :: later⟩ : Trace).state = (⟨later⟩ : Trace).state := by
  obtain ⟨stack, input, move⟩ := step
  cases later with
  | nil =>
      cases move with
      | shift _ | reduce _ => rfl
      | accept | refuse _ => cases onward
  | cons other later => simp only [state, lastMove, List.getLast?_cons_cons]

theorem state_eq_accepted_iff {trace : Trace} :
    trace.state = .accepted ↔ trace.lastMove = some .accept := by
  rw [← isAccepted_iff, isAccepted, beq_iff_eq]

theorem state_of_error {trace : Trace} {error : RunError} (refused : trace.error = some error) :
    trace.state = error.runState := by
  rw [Trace.error] at refused
  rw [state]
  split at refused
  · next last =>
      rw [last]
      exact congrArg RunError.runState (Option.some.inj refused)
  · cases refused

/-- A trace that does not break off is accepted, or it has an error. -/
theorem error_eq_none_iff {trace : Trace} (stopped : trace.state ≠ .running) :
    trace.error = none ↔ trace.state = .accepted := by
  rw [state_eq_accepted_iff, Trace.error]
  rw [state] at stopped
  split
  · next last => simp [last]
  · next other =>
      split at stopped
      · next last => simp [last]
      · next error last => exact absurd last (other error)
      · exact absurd rfl stopped

end Trace

/-- A logbook keeps the state of the run in a place of its own. -/
structure Logbook where
  steps : List TraceStep
  state : RunState

namespace Logbook

def blank : Logbook := ⟨[], .running⟩

/-- Before a move is made it is written down, and only a final move changes the state. -/
def enter (logbook : Logbook) (step : TraceStep) : Logbook where
  steps := logbook.steps ++ [step]
  state :=
    match step.move with
    | .shift _ | .reduce _ => logbook.state
    | .accept => .accepted
    | .refuse error => error.runState

/-- A sentence that is refused before the run leaves one step. -/
def refused (error : RunError) : Logbook :=
  blank.enter ⟨[], [], .refuse error⟩

theorem state_enter {step : TraceStep} (onward : step.move.isFinal = false) (logbook : Logbook) :
    (logbook.enter step).state = logbook.state := by
  obtain ⟨stack, input, move⟩ := step
  cases move with
  | shift _ | reduce _ => rfl
  | accept | refuse _ => cases onward

end Logbook

namespace Driver

/-- The driver writes down at most the given number of rounds. -/
def keep (grammar : Grammar) (table : ParseTable) (tokens : List Symbol) :
    Nat → Driver → Logbook → Except Breakdown Logbook
  | 0, _, logbook => .ok logbook
  | rounds + 1, driver, logbook =>
      match driver.advance grammar table tokens with
      | .error breakdown => .error breakdown
      | .ok (move, after) =>
          let logbook := logbook.enter ⟨driver.stack, tokens.drop driver.position, move⟩
          match after with
          | none => .ok logbook
          | some after => keep grammar table tokens rounds after logbook

variable {grammar : Grammar} {table : ParseTable} {tokens : List Symbol}

/-- The driver goes on only behind a move that is not final. -/
theorem isFinal_of_advance {driver after : Driver} {move : Move}
    (advances : driver.advance grammar table tokens = .ok (move, some after)) :
    move.isFinal = false := by
  have performed : ∃ lookahead, driver.perform grammar table lookahead move = .ok (some after) := by
    simp only [advance, bind, Except.bind] at advances
    grind
  obtain ⟨lookahead, performed⟩ := performed
  cases move with
  | shift _ | reduce _ => rfl
  | accept | refuse _ => cases performed

/-- The steps that are written down are those of the record, and they tell the state. -/
theorem keep_of_record {rounds : Nat} {driver : Driver} {logbook : Logbook} {steps : List TraceStep}
    (recorded : driver.record grammar table tokens rounds = .ok steps)
    (running : logbook.state = .running) :
    driver.keep grammar table tokens rounds logbook =
      .ok ⟨logbook.steps ++ steps, (⟨steps⟩ : Trace).state⟩ := by
  induction rounds generalizing driver logbook steps with
  | zero =>
      obtain ⟨written, state⟩ := logbook
      cases recorded
      cases running
      rw [keep, List.append_nil]
      rfl
  | succ rounds ih =>
      rw [record] at recorded
      rw [keep]
      cases advances : driver.advance grammar table tokens with
      | error breakdown =>
          rw [advances] at recorded
          cases recorded
      | ok round =>
          obtain ⟨move, after⟩ := round
          rw [advances] at recorded
          dsimp only at recorded ⊢
          cases after with
          | none =>
              cases recorded
              cases move <;> simp [Logbook.enter, Trace.state, Trace.lastMove, running]
          | some after =>
              have onward := isFinal_of_advance advances
              dsimp only at recorded ⊢
              cases continues : after.record grammar table tokens rounds with
              | error breakdown =>
                  rw [continues] at recorded
                  cases recorded
              | ok later =>
                  rw [continues] at recorded
                  cases recorded
                  rw [ih continues ((Logbook.state_enter onward logbook).trans running),
                    Trace.state_cons onward, Logbook.enter, List.append_assoc]
                  rfl

end Driver

/-- The words in front of the token name terminals, and the token names none. -/
def Grammar.FirstUnknown (grammar : Grammar) (sentence token : String) (position : Nat) : Prop :=
  ∃ front back, Text.wordStrings sentence.toList = front ++ token :: back ∧
    front.length = position ∧ (∀ word ∈ front, ∃ symbol, grammar.Names word symbol) ∧
    ∀ symbol, ¬ grammar.Names token symbol

theorem Grammar.exists_firstUnknown {grammar : Grammar} {sentence : String} {error : RunError}
    (failed : grammar.tokenize sentence = .error error) :
    ∃ token position, error = .invalidInput token position ∧
      grammar.FirstUnknown sentence token position := by
  rw [tokenize] at failed
  split at failed
  · next fault refused =>
      obtain ⟨front, token, back, split, known, unknown, same⟩ := exists_of_terminalsFrom refused
      rw [Nat.zero_add] at same
      exact ⟨token, front.length, (Except.error.inj failed).symm.trans same,
        front, back, split, rfl, known, unknown⟩
  · cases failed

namespace CompiledGrammar

variable {compiled : CompiledGrammar} {sentence : String} {tokens : List Symbol}

/-- A sentence that is refused before the run halts at once. -/
def RunHalts (compiled : CompiledGrammar) (sentence : String) : Prop :=
  compiled.hasConflict = false → ∀ terminals, compiled.grammar.Spells sentence terminals →
    Configuration.Halts compiled.grammar (.initial terminals)

theorem runHalts_iff :
    compiled.RunHalts sentence ↔ (compiled.run sentence).state ≠ .running := by
  constructor
  · intro halts
    cases conflicting : compiled.hasConflict with
    | true =>
        rw [run_of_conflict conflicting]
        exact nofun
    | false =>
        cases known : compiled.grammar.terminals sentence with
        | error error =>
            rw [run_of_error conflicting known]
            exact nofun
        | ok terminals =>
            have spells := Grammar.terminals_eq_ok_iff.1 known
            rcases state_of_halts conflicting spells (halts conflicting terminals spells) with
              accepted | failed
            · rw [accepted]
              exact nofun
            · rw [failed]
              exact nofun
  · intro stopped conflictFree terminals spells
    rcases run_outcome conflictFree spells with ⟨visited, last, passes, ends, _⟩ | ⟨_, running⟩
    · exact ⟨last, passes.reaches, ends⟩
    · exact absurd running stopped

/-- The driver writes down what happens to a sentence. -/
def logbook (compiled : CompiledGrammar) (rounds : Nat) (sentence : String) :
    Except Breakdown Logbook :=
  if compiled.hasConflict then .ok (.refused .tableConflict)
  else
    match compiled.grammar.tokenize sentence with
    | .error error => .ok (.refused error)
    | .ok tokens =>
        Driver.start.keep compiled.grammar compiled.table tokens rounds .blank

section ConflictFree

variable (conflictFree : compiled.hasConflict = false)

include conflictFree

theorem run_of_unknown {error : RunError}
    (failed : compiled.grammar.tokenize sentence = .error error) : compiled.run sentence = .refused error := by
  rw [Grammar.tokenize] at failed
  rw [run_eq conflictFree]
  cases known : compiled.grammar.terminals sentence with
  | error fault =>
      rw [known] at failed
      cases failed
      rfl
  | ok terminals =>
      rw [known] at failed
      cases failed

/-- The trace of a tokenized sentence shows a run that ends. -/
theorem exists_passes (halts : compiled.RunHalts sentence)
    (tokenized : compiled.grammar.tokenize sentence = .ok tokens) :
    ∃ terminals visited last, compiled.grammar.Spells sentence terminals ∧
      tokens = terminals ++ [compiled.grammar.endMarker] ∧
      Configuration.Passes compiled.grammar (.initial terminals) visited last ∧
      last.next compiled.grammar = none := by
  obtain ⟨terminals, spells, rfl⟩ := Grammar.exists_spells_of_tokenize tokenized
  obtain ⟨last, reaches, ends⟩ := halts conflictFree terminals spells
  obtain ⟨visited, passes⟩ := reaches.passes
  exact ⟨terminals, visited, last, spells, rfl, passes, ends⟩

theorem faithful_of_runHalts (halts : compiled.RunHalts sentence)
    (tokenized : compiled.grammar.tokenize sentence = .ok tokens) :
    (compiled.run sentence).Faithful compiled.grammar compiled.table tokens := by
  obtain ⟨terminals, visited, last, spells, rfl, passes, ends⟩ :=
    exists_passes conflictFree halts tokenized
  rw [run_of_ends conflictFree spells passes ends, table_eq_table]
  exact Configuration.faithful_of_ends (table_hasConflict conflictFree) spells.terminal passes ends

end ConflictFree

/-- However many more rounds there may be, the logbook has the steps and the state of the trace. -/
theorem logbook_eq (halts : compiled.RunHalts sentence) {rounds : Nat}
    (enough : (compiled.run sentence).steps.length ≤ rounds) :
    compiled.logbook rounds sentence =
      .ok ⟨(compiled.run sentence).steps, (compiled.run sentence).state⟩ := by
  rw [logbook]
  split
  · next conflicting =>
      rw [run_of_conflict conflicting]
      rfl
  · next conflictFree =>
      rw [Bool.not_eq_true] at conflictFree
      split
      · next error failed =>
          rw [run_of_unknown conflictFree failed]
          rfl
      · next tokens tokenized =>
          obtain ⟨terminals, visited, last, spells, rfl, passes, ends⟩ :=
            exists_passes conflictFree halts tokenized
          have unblocked := table_hasConflict conflictFree
          have consistent := Configuration.consistent_initial spells.terminal
          have recorded := (Driver.Shows.start terminals).record_eq unblocked consistent rounds
          rw [run_of_ends conflictFree spells passes ends] at enough ⊢
          rw [List.length_map, List.length_append] at enough
          rw [Configuration.record_of_passes passes ends enough] at recorded
          rw [table_eq_table]
          exact Driver.keep_of_record recorded rfl

end CompiledGrammar

end ShiftReduce
