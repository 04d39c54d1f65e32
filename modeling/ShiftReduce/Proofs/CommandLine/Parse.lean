/-
This file shows that the trace of a sentence is a faithful log of its run, that all its verdicts are
the same, and that the parse command goes by them.
-/

import ShiftReduce.CommandLine.Answer
import ShiftReduce.Proofs.Listing.Cells
import ShiftReduce.Proofs.Listing.Outline
import ShiftReduce.Proofs.Run.Verdicts
import ShiftReduce.Proofs.Unambiguity

namespace ShiftReduce

namespace CommandLine

section Inputs

/-- A file holds a text when it can be read and its bytes spell the text. -/
def HoldsText (files : Files) (path text : String) : Prop :=
  ∃ bytes, files path = .ok bytes ∧ String.fromUTF8? bytes = some text

/-- A sentence is given as an argument or by a file that holds it. -/
inductive Gives (files : Files) : Option Source → String → Prop
  | text (sentence : String) : Gives files (some (.text sentence)) sentence
  | file {path sentence : String} (holds : HoldsText files path sentence) :
      Gives files (some (.file path)) sentence

variable {files : Files} {path text sentence : String} {source : Option Source}
  {compiled : CompiledGrammar}

/-- The bytes of a text spell it. -/
theorem holdsText_of_toUTF8 (found : files path = .ok text.toUTF8) : HoldsText files path text := by
  refine ⟨text.toUTF8, found, ?_⟩
  rw [String.fromUTF8?, String.toUTF8_eq_toByteArray, dif_pos text.isValidUTF8]
  rfl

theorem readText_of_holdsText (holds : HoldsText files path text) :
    readText files path = .ok text := by
  obtain ⟨bytes, found, spelled⟩ := holds
  rw [readText, found]
  simp only [spelled]

theorem load_of_holdsText (holds : HoldsText files path text)
    (compiles : CompiledGrammar.ofText text = .ok compiled) : load files path = .ok compiled := by
  rw [load, readText_of_holdsText holds]
  simp only [compiles]

theorem readSentence_of_gives (gives : Gives files source sentence) :
    readSentence files source = .ok sentence := by
  cases gives with
  | text => rfl
  | file holds => rw [readSentence, readText_of_holdsText holds]

theorem answer_parse (holds : HoldsText files path text)
    (compiles : CompiledGrammar.ofText text = .ok compiled)
    (gives : Gives files source sentence) :
    answer files (.parse path source) = parse [] compiled sentence := by
  simp only [answer, load_of_holdsText holds compiles, readSentence_of_gives gives]

end Inputs

section Outputs

variable {compiled : CompiledGrammar} {sentence : String}

theorem text_steps (trace : Trace) : Listing.text (steps compiled trace) =
    "Parse steps:\n" ++ Listing.text (Listing.trace compiled.grammar trace) := by
  rw [steps, Listing.text_cons]
  rfl

theorem text_tree (lines : List String) :
    Listing.text ("" :: "Parse tree:" :: lines) = "\nParse tree:\n" ++ Listing.text lines := by
  rw [Listing.text_cons, Listing.text_cons, ← String.append_assoc]
  rfl

/-- The tree is printed behind the steps, and its outline is read back as the tree. -/
theorem parse_of_tree {tree : Tree} (rebuilt : compiled.tree (compiled.run sentence) = .ok tree) :
    ∃ treeText, parse [] compiled sentence = ⟨0, "Parse steps:\n" ++
        Listing.text (Listing.trace compiled.grammar (compiled.run sentence)) ++
          "\nParse tree:\n" ++ treeText, ""⟩ ∧
      Listing.readOutline compiled.grammar treeText = some tree := by
  obtain ⟨accepted, isParse, _⟩ := CompiledGrammar.tree_run_eq_ok_iff.1 rebuilt
  have stopped : (compiled.run sentence).state ≠ .running := by simp [accepted]
  have printed : parse [] compiled sentence = .success (steps compiled (compiled.run sentence) ++
      "" :: "Parse tree:" :: Listing.tree compiled.grammar tree) := by
    simp [parse, (Trace.error_eq_none_iff stopped).2 accepted, rebuilt]
  refine ⟨Listing.text (Listing.tree compiled.grammar tree), ?_, ?_⟩
  · rw [printed, Answer.success, Listing.text_append, text_steps, text_tree, ← String.append_assoc]
  · exact Listing.readOutline_tree isParse.derivation.isOver

/-- Only the steps are printed when the sentence is refused. -/
theorem parse_of_error {error : RunError} (refused : (compiled.run sentence).error = some error) :
    parse [] compiled sentence = ⟨1, "Parse steps:\n" ++
        Listing.text (Listing.trace compiled.grammar (compiled.run sentence)),
      "Error: " ++ error.message ++ "\n"⟩ := by
  have printed : parse [] compiled sentence =
      .failure (steps compiled (compiled.run sentence)) error.message := by
    simp [parse, refused]
  rw [printed, Answer.failure, text_steps]

/-- The parse command fails with the error of the trace, and there is none when it is accepted. -/
theorem exitCode_parse_iff (stopped : (compiled.run sentence).state ≠ .running) :
    (parse [] compiled sentence).exitCode = 0 ↔ (compiled.run sentence).state = .accepted := by
  rw [← Trace.error_eq_none_iff stopped]
  cases refused : (compiled.run sentence).error with
  | some error => simp [parse_of_error refused]
  | none =>
      have accepted := (Trace.error_eq_none_iff stopped).1 refused
      obtain ⟨tree, rebuilt⟩ := CompiledGrammar.exists_tree_run_iff.2 accepted
      obtain ⟨_, printed, _⟩ := parse_of_tree rebuilt
      simp [printed]

end Outputs

end CommandLine

namespace CompiledGrammar

open ShiftReduce.CommandLine

/--
The trace of a run that halts is refused before the run, because of a conflict or of the first word
that names no terminal, or it is the only faithful log from all tokens on. A driver that keeps the
state in a place of its own comes to the same state as is told by the last move. It is accepted
exactly when there is no error and exactly when there is a tree, and otherwise it goes with the
error. The parse command prints a line for each step in any case, and it succeeds with the tree
behind them or fails with the error.
-/
theorem trace_faithful (compiled : CompiledGrammar) {sentence : String}
    (halts : compiled.RunHalts sentence) :
    (compiled.hasConflict = true →
      (compiled.run sentence).steps = [⟨[], [], .refuse .tableConflict⟩]) ∧
    (compiled.hasConflict = false → ∀ error, compiled.grammar.tokenize sentence = .error error →
      (compiled.run sentence).steps = [⟨[], [], .refuse error⟩] ∧
      ∃ token position, error = .invalidInput token position ∧
        compiled.grammar.FirstUnknown sentence token position) ∧
    (compiled.hasConflict = false → ∀ tokens, compiled.grammar.tokenize sentence = .ok tokens →
      (compiled.run sentence).Faithful compiled.grammar compiled.table tokens ∧
      ∀ trace : Trace, trace.Faithful compiled.grammar compiled.table tokens →
        trace = compiled.run sentence) ∧
    (∀ rounds, (compiled.run sentence).steps.length ≤ rounds →
      compiled.logbook rounds sentence =
        .ok ⟨(compiled.run sentence).steps, (compiled.run sentence).state⟩) ∧
    ((compiled.run sentence).state = .accepted ↔
      (compiled.run sentence).lastMove = some .accept) ∧
    ((compiled.run sentence).state = .accepted ↔ (compiled.run sentence).error = none) ∧
    ((compiled.run sentence).state = .accepted ↔
      ∃ tree, compiled.tree (compiled.run sentence) = .ok tree) ∧
    ((compiled.run sentence).state ≠ .accepted → ∃ error,
      (compiled.run sentence).error = some error ∧
      (compiled.run sentence).state = match error with
        | .tableConflict => .tableConflict
        | .invalidInput _ _ => .invalidInput
        | .unexpected _ _ => .syntaxError) ∧
    ∃ stepsText,
      Listing.ShowsTrace compiled.grammar (compiled.run sentence) (Text.lines stepsText.toList) ∧
      ∀ files path text source, HoldsText files path text → ofText text = .ok compiled →
        Gives files source sentence →
        ((answer files (.parse path source)).exitCode = 0 ↔
          (compiled.run sentence).state = .accepted) ∧
        (∀ tree, compiled.tree (compiled.run sentence) = .ok tree → ∃ treeText,
          answer files (.parse path source) =
            ⟨0, "Parse steps:\n" ++ stepsText ++ "\nParse tree:\n" ++ treeText, ""⟩ ∧
          Listing.readOutline compiled.grammar treeText = some tree) ∧
        ∀ error, (compiled.run sentence).error = some error →
          answer files (.parse path source) =
            ⟨1, "Parse steps:\n" ++ stepsText, "Error: " ++ error.message ++ "\n"⟩ := by
  have stopped := runHalts_iff.1 halts
  refine ⟨?conflict, ?unknown, ?faithful, ?logbook, ?lastMove, ?error, ?tree, ?refused, ?command⟩
  case conflict =>
    intro conflicting
    rw [run_of_conflict conflicting]
    rfl
  case unknown =>
    intro conflictFree error failed
    rw [run_of_unknown conflictFree failed]
    exact ⟨rfl, Grammar.exists_firstUnknown failed⟩
  case faithful =>
    intro conflictFree tokens tokenized
    have faithful := faithful_of_runHalts conflictFree halts tokenized
    exact ⟨faithful, fun trace other => other.unique faithful⟩
  case logbook => exact fun rounds enough => logbook_eq halts enough
  case lastMove => exact Trace.state_eq_accepted_iff
  case error => exact (Trace.error_eq_none_iff stopped).symm
  case tree => exact exists_tree_run_iff.symm
  case refused =>
    intro failed
    rw [Ne, ← Trace.error_eq_none_iff stopped] at failed
    obtain ⟨error, refused⟩ := Option.ne_none_iff_exists'.1 failed
    refine ⟨error, refused, (Trace.state_of_error refused).trans ?_⟩
    cases error <;> rfl
  case command =>
    refine ⟨_, Listing.showsTrace_lines compiled.grammar (compiled.run sentence),
      fun files path text source holds compiles gives => ?_⟩
    rw [answer_parse holds compiles gives]
    exact ⟨exitCode_parse_iff stopped, fun tree rebuilt => parse_of_tree rebuilt,
      fun error refused => parse_of_error refused⟩

/-- The driver accepts a right-recursive list in nine rounds, and so does the parse command. -/
theorem trace_faithful_list : ∃ compiled, ofText "L a L\nL a" = .ok compiled ∧
    (compiled.run "a a").Faithful compiled.grammar compiled.table [2, 2, 3] ∧
    compiled.logbook 9 "a a" = .ok ⟨(compiled.run "a a").steps, .accepted⟩ ∧
    (answer (fun _ => .ok "L a L\nL a".toUTF8) (.parse "list" (some (.text "a a")))).exitCode =
      0 := by
  obtain ⟨compiled, compiles, evaluated⟩ := exists_of_ofText "L a L\nL a"
    (fun compiled => !compiled.hasConflict &&
      decide ((compiled.grammar.tokenize "a a").toOption = some [2, 2, 3] ∧
        (compiled.run "a a").state = .accepted ∧ (compiled.run "a a").steps.length ≤ 9))
    (by decide +kernel)
  simp only [Bool.and_eq_true, Bool.not_eq_true', decide_eq_true_eq] at evaluated
  obtain ⟨conflictFree, tokens, accepted, enough⟩ := evaluated
  have halts : compiled.RunHalts "a a" := runHalts_iff.2 (by simp [accepted])
  have held : HoldsText (fun _ => .ok "L a L\nL a".toUTF8) "list" "L a L\nL a" := holdsText_of_toUTF8 rfl
  obtain ⟨_, _, faithful, written, _, _, _, _, _, _, answers⟩ := trace_faithful compiled halts
  obtain ⟨succeeds, _⟩ := answers _ _ _ _ held compiles (.text "a a")
  rw [← accepted]
  exact ⟨compiled, compiles, (faithful conflictFree _ (toOption_eq_some_iff.1 tokens)).1,
    written 9 enough, succeeds.2 accepted⟩

end CompiledGrammar

end ShiftReduce
