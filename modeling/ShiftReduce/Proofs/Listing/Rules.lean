/-
This file shows that the listing of the rules can be read as a grammar text again.
-/

import ShiftReduce.CompiledGrammar
import ShiftReduce.Listing
import ShiftReduce.Proofs.Grammar.Labels
import ShiftReduce.Proofs.Grammar.Translation
import ShiftReduce.Proofs.Listing.Lines

namespace ShiftReduce

namespace Listing

/-- The number stands in front of a listed rule, and the arrow behind its left-hand side. -/
def unnumbered (line : List Char) : List String :=
  ((Text.wordStrings line).eraseIdx 2).eraseIdx 0

/-- The added rule is listed first, and its line is left out. -/
def declarations (listing : String) : List (List String) :=
  ((Text.lines listing.toList).drop 1).map unnumbered

/-- The words that are left are written line by line, with single spaces between them. -/
def retyped (listing : String) : String :=
  text ((declarations listing).map fun words => " ".intercalate words)

/-- These are the words of a rule without the arrow. -/
def ruleWords (grammar : Grammar) (rule : Rule) : List String :=
  (rule.lhs :: rule.rhs).map grammar.vocabulary.label

variable {grammar : Grammar}

theorem isWord_ruleWords (grammar : Grammar) (rule : Rule) :
    ∀ word ∈ ruleWords grammar rule, Text.IsWord word :=
  grammar.isWord_labels (rule.lhs :: rule.rhs)

/-- A listed rule is a line of words. -/
theorem listedRule_eq (index : Nat) (rule : Rule) :
    toString index ++ " " ++ grammar.ruleText rule =
      " ".intercalate (toString index :: grammar.vocabulary.label rule.lhs :: "→" ::
        rule.rhs.map grammar.vocabulary.label) := by
  rw [Grammar.ruleText, ← String.toList_inj]
  simp [String.toList_intercalate]

theorem isWord_listedRule (index : Nat) (rule : Rule) :
    ∀ word ∈ toString index :: grammar.vocabulary.label rule.lhs :: "→" ::
      rule.rhs.map grammar.vocabulary.label, Text.IsWord word :=
  List.forall_mem_cons.2 ⟨Text.isWord_toString index, grammar.isWord_ruleText rule⟩

theorem unnumbered_listedRule (index : Nat) (rule : Rule) :
    unnumbered (toString index ++ " " ++ grammar.ruleText rule).toList =
      ruleWords grammar rule := by
  rw [listedRule_eq, unnumbered, Text.wordStrings_intercalate (isWord_listedRule index rule)]
  rfl

theorem isTidy_rules (grammar : Grammar) :
    ∀ line ∈ rules grammar, Text.IsTidy line.toList := by
  intro line listed
  obtain ⟨⟨rule, index⟩, _, rfl⟩ := List.mem_map.1 listed
  rw [listedRule_eq]
  exact Text.isTidy_spaced (isWord_listedRule index rule)

/-- Each declared rule leaves its words. -/
theorem declarations_rules (grammar : Grammar) :
    declarations (text (rules grammar)) = grammar.declaredRules.map (ruleWords grammar) := by
  have words (numbered : Rule × Nat) : unnumbered
      (toString numbered.2 ++ " " ++ grammar.ruleText numbered.1).toList =
        ruleWords grammar numbered.1 := unnumbered_listedRule numbered.2 numbered.1
  rw [declarations, lines_text (isTidy_rules grammar), rules, ← List.map_drop, ← List.map_drop,
    List.map_map, List.map_map, List.drop_one, List.tail_zipIdx, Grammar.declaredRules]
  simp only [Function.comp_def, words]
  change List.map (ruleWords grammar ∘ Prod.fst) _ = _
  rw [← List.map_map, List.zipIdx_map_fst]

theorem wordLines_retyped (grammar : Grammar) :
    Text.wordLines (Text.lines (retyped (text (rules grammar))).toList) =
      declarations (text (rules grammar)) := by
  have lines : ∀ line ∈ (grammar.declaredRules.map (ruleWords grammar)).map
      (fun words => " ".intercalate words), Text.IsTidy line.toList := by
    simp only [List.map_map, List.forall_mem_map]
    exact fun rule _ => Text.isTidy_spaced (isWord_ruleWords grammar rule)
  have words (rule : Rule) : Text.wordStrings (" ".intercalate (ruleWords grammar rule)).toList =
      ruleWords grammar rule := Text.wordStrings_intercalate (isWord_ruleWords grammar rule)
  rw [retyped, declarations_rules, lines_text lines, Text.wordLines]
  simp only [List.map_map, Function.comp_def, words]
  apply List.filter_eq_self.2
  simp [ruleWords]

end Listing

namespace Grammar

variable {text again : String} {grammar : Grammar}

theorem mem_wordLines {lines : List (List Char)} {words : List String} :
    words ∈ Text.wordLines lines ↔ words ≠ [] ∧ ∃ line ∈ lines, Text.wordStrings line = words := by
  simp [Text.wordLines, and_comm]

/-- A text with the same words on its lines is read as the same grammar. -/
theorem ofText_of_wordLines (read : ofText text = .ok grammar)
    (same : Text.wordLines (Text.lines again.toList) = Text.wordLines (Text.lines text.toList)) :
    ofText again = .ok grammar := by
  have reads := reads_ofText text
  rw [read] at reads
  cases reads with
  | grammar sound translates =>
      rw [← same] at translates
      refine (reads_ofText again).unique (.grammar (fun line listed => ?_) translates)
      by_cases blank : Text.wordStrings line = []
      · exact .inl blank
      · have written := mem_wordLines.2 ⟨blank, line, listed, rfl⟩
        rw [same] at written
        obtain ⟨_, other, there, words⟩ := mem_wordLines.1 written
        have kept := sound other there
        rw [Production.Sound, words] at kept
        exact kept

theorem Translates.ruleWords_eq {lines : List (List String)} {start declared : String}
    (translates : Translates lines start declared grammar) :
    grammar.declaredRules.map (Listing.ruleWords grammar) = lines := by
  have named := congrArg List.tail translates.rules
  rw [← List.map_tail, ← List.map_tail, List.tail_cons] at named
  have labels : ∀ rule ∈ grammar.declaredRules,
      (Listing.ruleWords grammar rule).map some = grammar.ruleNames rule := by
    intro rule declared
    rw [Listing.ruleWords, ruleNames, List.map_map]
    refine List.map_congr_left fun symbol inside => ?_
    have listed := grammar.declaredRules_subset declared
    exact (Vocabulary.name?_label (lt_size_of_rule listed inside)).symm
  have known : ∀ first second : List String, first.map some = second.map some → first = second :=
    fun _ _ => (List.map_inj_right fun _ _ => Option.some.inj).1
  apply (List.map_inj_right known).1
  rw [List.map_map, ← named]
  exact List.map_congr_left labels

/--
The listing of the rules, without the line of the added rule and without the number and the arrow on
the other lines, is read as the same grammar again, with the same rules and the same vocabulary. How
the words that are left are spaced does not matter.
-/
theorem ofText_retyped (read : ofText text = .ok grammar) :
    ofText (Listing.retyped (Listing.text (Listing.rules grammar))) = .ok grammar ∧
    ∀ again : String, Text.wordLines (Text.lines again.toList) =
        Listing.declarations (Listing.text (Listing.rules grammar)) →
      ofText again = .ok grammar := by
  have written : Listing.declarations (Listing.text (Listing.rules grammar)) =
      Text.wordLines (Text.lines text.toList) := by
    have reads := reads_ofText text
    rw [read] at reads
    cases reads with
    | grammar _ translates =>
        rw [Listing.declarations_rules]
        exact translates.ruleWords_eq
  rw [written]
  refine ⟨ofText_of_wordLines read ?_, fun again same => ofText_of_wordLines read same⟩
  rw [Listing.wordLines_retyped, written]

/-- The names look like the number, the arrow and the dot of a listing. -/
theorem ofText_retyped_arrows : ∃ grammar, ofText "0 → 0 •\n→ 1\n→ S'" = .ok grammar ∧
    ofText (Listing.retyped (Listing.text (Listing.rules grammar))) = .ok grammar := by
  obtain ⟨grammar, found⟩ : ∃ grammar, (ofText "0 → 0 •\n→ 1\n→ S'").toOption = some grammar :=
    Option.isSome_iff_exists.1 (by decide +kernel)
  have read := toOption_eq_some_iff.1 found
  exact ⟨grammar, read, (ofText_retyped read).1⟩

end Grammar

end ShiftReduce
