/-
This file relates the trace of a sentence to the configurations that its run passes.
-/

import Mathlib.Data.List.Forall2
import ShiftReduce.Proofs.Run.Bound

namespace ShiftReduce

namespace Grammar

variable (grammar : Grammar)

/-- A word names a terminal. -/
def Names (word : String) (symbol : Symbol) : Prop :=
  grammar.vocabulary.lookup word = some symbol ∧ grammar.isTerminal symbol = true

/-- Each word of the sentence names the terminal at its place. -/
def Spells (sentence : String) (terminals : List Symbol) : Prop :=
  List.Forall₂ grammar.Names (Text.wordStrings sentence.toList) terminals

variable {grammar} {sentence : String} {terminals : List Symbol}

theorem terminal?_eq_some_iff {word : String} {symbol : Symbol} :
    grammar.terminal? word = some symbol ↔ grammar.Names word symbol := by
  rw [terminal?, Option.filter_eq_some_iff]
  exact Iff.rfl

theorem terminalsFrom_eq_ok_iff {position : Nat} {words : List String} :
    grammar.terminalsFrom position words = .ok terminals ↔
      List.Forall₂ grammar.Names words terminals := by
  induction words generalizing position terminals with
  | nil =>
      rw [terminalsFrom, List.forall₂_nil_left_iff, Except.ok.injEq]
      exact eq_comm
  | cons word rest ih =>
      rw [terminalsFrom, List.forall₂_cons_left_iff]
      cases named : grammar.terminal? word with
      | none =>
          refine ⟨nofun, ?_⟩
          intro given
          obtain ⟨symbol, _, names, _⟩ := given
          rw [terminal?_eq_some_iff.2 names] at named
          cases named
      | some symbol =>
          have names := terminal?_eq_some_iff.1 named
          cases later : grammar.terminalsFrom (position + 1) rest with
          | error fault =>
              refine ⟨nofun, ?_⟩
              intro given
              obtain ⟨_, symbols, _, all, _⟩ := given
              rw [ih.2 all] at later
              cases later
          | ok symbols =>
              constructor
              · intro same
                exact ⟨symbol, symbols, names, ih.1 later, (Except.ok.inj same).symm⟩
              · intro given
                obtain ⟨other, others, again, all, rfl⟩ := given
                obtain rfl := Option.some.inj (names.1.symm.trans again.1)
                rw [ih.2 all] at later
                rw [Except.ok.inj later]

theorem terminals_eq_ok_iff :
    grammar.terminals sentence = .ok terminals ↔ grammar.Spells sentence terminals :=
  terminalsFrom_eq_ok_iff

theorem Spells.tokenize (spells : grammar.Spells sentence terminals) :
    grammar.tokenize sentence = .ok (terminals ++ [grammar.endMarker]) := by
  rw [Grammar.tokenize, terminals_eq_ok_iff.2 spells]

/-- The end marker closes the tokens behind the terminals that the sentence spells. -/
theorem exists_spells_of_tokenize {tokens : List Symbol}
    (tokenized : grammar.tokenize sentence = .ok tokens) :
    ∃ terminals, grammar.Spells sentence terminals ∧ tokens = terminals ++ [grammar.endMarker] := by
  rw [Grammar.tokenize] at tokenized
  split at tokenized
  · cases tokenized
  · next terminals known =>
      exact ⟨terminals, terminals_eq_ok_iff.1 known, (Except.ok.inj tokenized).symm⟩

theorem Spells.terminal (spells : grammar.Spells sentence terminals) :
    ∀ symbol ∈ terminals, grammar.isTerminal symbol = true := by
  intro symbol listed
  rw [Spells] at spells
  generalize Text.wordStrings sentence.toList = words at spells
  induction spells with
  | nil => exact absurd listed List.not_mem_nil
  | cons names _ ih =>
      rcases List.mem_cons.1 listed with rfl | later
      · exact names.2
      · exact ih later

/-- The first word that names no terminal is reported with its position. -/
theorem exists_of_terminalsFrom {position : Nat} {words : List String} {error : RunError}
    (failed : grammar.terminalsFrom position words = .error error) :
    ∃ front word back, words = front ++ word :: back ∧
      (∀ known ∈ front, ∃ symbol, grammar.Names known symbol) ∧
      (∀ symbol, ¬ grammar.Names word symbol) ∧
      error = .invalidInput word (position + front.length) := by
  fun_induction terminalsFrom grammar position words with
  | case1 => cases failed
  | case2 position word rest unnamed =>
      refine ⟨[], word, rest, rfl, by simp, ?_, (Except.error.inj failed).symm⟩
      intro symbol names
      rw [terminal?_eq_some_iff.2 names] at unnamed
      cases unnamed
  | case3 position word rest symbol named fault later ih =>
      obtain ⟨front, bad, back, rfl, known, unknown, same⟩ := ih (later.trans failed)
      refine ⟨word :: front, bad, back, rfl, ?_, unknown, ?_⟩
      · exact List.forall_mem_cons.2 ⟨⟨symbol, terminal?_eq_some_iff.1 named⟩, known⟩
      · rw [same, List.length_cons, Nat.add_right_comm, Nat.add_assoc]
  | case4 => cases failed

/-- A sentence with another word is refused before the run. -/
theorem error_of_terminalsFrom {position : Nat} {words : List String} {error : RunError}
    (failed : grammar.terminalsFrom position words = .error error) :
    error.runState = .invalidInput := by
  obtain ⟨_, _, _, _, _, _, rfl⟩ := exists_of_terminalsFrom failed
  rfl

end Grammar

namespace Configuration

variable {grammar : Grammar} {terminals : List Symbol} {visited : List Configuration}
  {last : Configuration}

theorem Passes.next_ne_none {first between : Configuration}
    (passes : Passes grammar first visited last) (listed : between ∈ visited) :
    between.next grammar ≠ none := by
  obtain ⟨after, continues, _⟩ := Relation.TransGen.head'_iff.1 (passes.of_mem listed).2
  rw [Step] at continues
  rw [continues]
  exact Option.some_ne_none after

theorem lastMove_of_steps (front : List Configuration) :
    (⟨(front ++ [last]).map (step grammar)⟩ : Trace).lastMove =
      some (last.move grammar grammar.table) := by
  simp [Trace.lastMove, step]

variable (conflictFree : grammar.table.hasConflict = false)
  (terminal : ∀ symbol ∈ terminals, grammar.isTerminal symbol = true)

include conflictFree terminal

/-- A run that ends is recorded as a whole. -/
theorem record_of_ends (passes : Passes grammar (.initial terminals) visited last)
    (ends : last.next grammar = none) :
    grammar.record grammar.table (grammar.stepLimit terminals.length) (.initial terminals) =
      (visited ++ [last]).map (step grammar) := by
  apply record_of_passes passes ends
  apply length_lt_stepLimit conflictFree terminal passes
  intro between reaches recurs
  have halts : Halts grammar (.initial terminals) := ⟨last, passes.reaches, ends⟩
  exact recurs.not_halts (halts.of_reaches reaches)

/-- A record shows an ended run as a whole, or it breaks off in a run that never ends. -/
theorem record_outcome :
    (∃ visited last, Passes grammar (.initial terminals) visited last ∧
        last.next grammar = none ∧
        grammar.record grammar.table (grammar.stepLimit terminals.length) (.initial terminals) =
          (visited ++ [last]).map (step grammar)) ∨
      ¬ Halts grammar (.initial terminals) ∧ ∃ front between, between.next grammar ≠ none ∧
        grammar.record grammar.table (grammar.stepLimit terminals.length) (.initial terminals) =
          (front ++ [between]).map (step grammar) := by
  obtain ⟨visited, last, passes, recorded⟩ :=
    record_cases grammar (grammar.stepLimit terminals.length) (.initial terminals)
  rcases recorded with ⟨ends, _, same⟩ | ⟨full, same⟩
  · exact .inl ⟨visited, last, passes, ends, same⟩
  · have nonempty : visited ≠ [] := by
      rw [← List.length_pos_iff, full]
      exact Nat.succ_pos _
    obtain ⟨front, between, rfl⟩ := (List.eq_nil_or_concat' visited).resolve_left nonempty
    have continues := passes.next_ne_none (List.mem_append_right front List.mem_cons_self)
    have never : ¬ Halts grammar (.initial terminals) := by
      intro halts
      have short := length_lt_stepLimit conflictFree terminal passes fun between reaches recurs =>
        recurs.not_halts (halts.of_reaches reaches)
      omega
    exact .inr ⟨never, front, between, continues, same⟩

end Configuration

namespace CompiledGrammar

variable {compiled : CompiledGrammar} {sentence : String} {terminals : List Symbol}

theorem run_of_conflict (conflicting : compiled.hasConflict = true) (sentence : String) :
    compiled.run sentence = .refused .tableConflict :=
  if_pos conflicting

theorem table_hasConflict (conflictFree : compiled.hasConflict = false) :
    compiled.grammar.table.hasConflict = false := by
  rw [← table_eq_table]
  exact conflictFree

variable (conflictFree : compiled.hasConflict = false)

include conflictFree

theorem run_eq : compiled.run sentence = match compiled.grammar.terminals sentence with
    | .error error => .refused error
    | .ok terminals => ⟨compiled.grammar.record compiled.grammar.table
        (compiled.grammar.stepLimit terminals.length) (.initial terminals)⟩ := by
  rw [run, table_eq_table, Grammar.run, table_hasConflict conflictFree]
  rfl

theorem run_of_error {error : RunError}
    (refused : compiled.grammar.terminals sentence = .error error) :
    (compiled.run sentence).state = .invalidInput := by
  rw [run_eq conflictFree, refused]
  exact Grammar.error_of_terminalsFrom refused

theorem run_of_spells (spells : compiled.grammar.Spells sentence terminals) :
    compiled.run sentence = ⟨compiled.grammar.record compiled.grammar.table
      (compiled.grammar.stepLimit terminals.length) (.initial terminals)⟩ := by
  rw [run_eq conflictFree, Grammar.terminals_eq_ok_iff.2 spells]

/-- The trace of a run that ends shows every configuration. -/
theorem run_of_ends (spells : compiled.grammar.Spells sentence terminals)
    {visited : List Configuration} {last : Configuration}
    (passes : Configuration.Passes compiled.grammar (.initial terminals) visited last)
    (ends : last.next compiled.grammar = none) :
    compiled.run sentence =
      ⟨(visited ++ [last]).map (Configuration.step compiled.grammar)⟩ := by
  rw [run_of_spells conflictFree spells, Configuration.record_of_ends
    (table_hasConflict conflictFree) spells.terminal passes ends]

/-- The trace of a run that never ends is still running. -/
theorem run_outcome (spells : compiled.grammar.Spells sentence terminals) :
    (∃ visited last,
        Configuration.Passes compiled.grammar (.initial terminals) visited last ∧
        last.next compiled.grammar = none ∧
        compiled.run sentence =
          ⟨(visited ++ [last]).map (Configuration.step compiled.grammar)⟩) ∨
      ¬ Configuration.Halts compiled.grammar (.initial terminals) ∧
        (compiled.run sentence).state = .running := by
  rw [run_of_spells conflictFree spells]
  rcases Configuration.record_outcome (table_hasConflict conflictFree) spells.terminal with
    ⟨visited, last, passes, ends, recorded⟩ | ⟨endless, front, between, continues, recorded⟩
  · exact .inl ⟨visited, last, passes, ends, by rw [recorded]⟩
  · refine .inr ⟨endless, ?_⟩
    rw [recorded, Trace.state, Configuration.lastMove_of_steps]
    split
    · next same => exact absurd (Configuration.next_of_accept (Option.some.inj same)) continues
    · next same => exact absurd (Configuration.next_of_refuse (Option.some.inj same)) continues
    · rfl

/-- A run that ends accepts or refuses in its last configuration. -/
theorem run_verdict (spells : compiled.grammar.Spells sentence terminals) :
    (∃ visited last,
        Configuration.Passes compiled.grammar (.initial terminals) visited last ∧
        compiled.run sentence =
          ⟨(visited ++ [last]).map (Configuration.step compiled.grammar)⟩ ∧
        (last.move compiled.grammar compiled.grammar.table = .accept ∨
          last.move compiled.grammar compiled.grammar.table =
            .refuse (.unexpected last.top (last.lookahead compiled.grammar)))) ∨
      ¬ Configuration.Halts compiled.grammar (.initial terminals) ∧
        (compiled.run sentence).state = .running := by
  have unblocked := table_hasConflict conflictFree
  apply (run_outcome conflictFree spells).imp_left
  rintro ⟨visited, last, passes, ends, recorded⟩
  have consistent := (Configuration.consistent_initial spells.terminal).reaches unblocked
    passes.reaches
  refine ⟨visited, last, passes, recorded, ?_⟩
  apply (Configuration.moves_or_ends unblocked consistent.linked consistent.readable).resolve_left
  rintro ⟨after, moves⟩
  rw [moves.next unblocked consistent.readable] at ends
  cases ends

/-- A sentence is accepted when its run ends in an accepting configuration. -/
theorem accepted_iff : (compiled.run sentence).state = .accepted ↔
    ∃ terminals visited last, compiled.grammar.Spells sentence terminals ∧
      Configuration.Passes compiled.grammar (.initial terminals) visited last ∧
      last.move compiled.grammar compiled.grammar.table = .accept := by
  constructor
  · intro accepted
    cases known : compiled.grammar.terminals sentence with
    | error error =>
        rw [run_of_error conflictFree known] at accepted
        cases accepted
    | ok terminals =>
        have spells := Grammar.terminals_eq_ok_iff.1 known
        rcases run_outcome conflictFree spells with
          ⟨visited, last, passes, ends, recorded⟩ | ⟨_, endless⟩
        · refine ⟨terminals, visited, last, spells, passes, ?_⟩
          have final := Trace.isAccepted_iff.1 (beq_iff_eq.2 accepted)
          rw [recorded, Configuration.lastMove_of_steps] at final
          exact Option.some.inj final
        · rw [endless] at accepted
          cases accepted
  · intro given
    obtain ⟨terminals, visited, last, spells, passes, accepting⟩ := given
    have ends := Configuration.next_of_accept accepting
    rw [run_of_ends conflictFree spells passes ends, Trace.state,
      Configuration.lastMove_of_steps, accepting]

end CompiledGrammar

end ShiftReduce
