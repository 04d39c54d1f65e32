/-
This file shows that neither the order of the productions nor the spelling of the words matters.
-/

import ShiftReduce.Proofs.Grammar.Renaming
import ShiftReduce.Proofs.Run.Halting
import ShiftReduce.Proofs.Table.Isomorphism
import ShiftReduce.Proofs.Unambiguity

namespace ShiftReduce

namespace Grammar.Isomorphism

variable {source target : Grammar} {rename : String → String} {sentence other : String}
  (iso : Isomorphism source target)
  (injective : Set.InjOn rename {word | Text.IsWord word})
  (named : ∀ symbol, source.isTerminal symbol = true →
    target.vocabulary.name? (iso.symbols symbol) = (source.vocabulary.name? symbol).map rename)

include injective named

/-- A renamed word names the corresponding terminal. -/
theorem names_iff {word : String} {symbol : Symbol} (isWord : Text.IsWord word) :
    target.Names (rename word) (iso.symbols symbol) ↔ source.Names word symbol := by
  rw [Names, Names, Vocabulary.lookup_eq_some, Vocabulary.lookup_eq_some, iso.isTerminal_eq]
  refine and_congr_left fun terminal => ?_
  rw [named symbol terminal]
  cases spelled : source.vocabulary.name? symbol with
  | none => simp
  | some name =>
      rw [Vocabulary.name?_eq_getElem?] at spelled
      have known := source.wellFormed.names_words name (List.mem_of_getElem? spelled)
      simpa using injective.eq_iff known isWord

/-- A renamed sentence spells the corresponding terminals. -/
theorem spells_iff (renamed : Text.wordStrings other.toList =
      (Text.wordStrings sentence.toList).map rename) (terminals : List Symbol) :
    target.Spells other (terminals.map iso.symbols) ↔ source.Spells sentence terminals := by
  rw [Spells, Spells, renamed, List.forall₂_map_left_iff, List.forall₂_map_right_iff,
    List.forall₂_iff_zip, List.forall₂_iff_zip]
  refine and_congr_right fun _ => forall₂_congr fun word symbol => imp_congr_right fun paired => ?_
  exact iso.names_iff injective named
    (Text.isWord_of_mem_wordStrings (List.of_mem_zip paired).1)

end Grammar.Isomorphism

namespace CompiledGrammar

variable {first second : CompiledGrammar} {sentence other text : String}

theorem exists_translates {compiled : CompiledGrammar} (compiles : ofText text = .ok compiled) :
    ∃ start declared, Grammar.Translates (Text.wordLines (Text.lines text.toList)) start declared
      compiled.grammar := by
  have reads := Grammar.reads_ofText text
  rw [ofText] at compiles
  split at compiles
  · cases compiles
  · next grammar read =>
      obtain rfl := Except.ok.inj compiles
      rw [read] at reads
      cases reads with
      | grammar _ translates => exact ⟨_, _, translates⟩

/-- A run refuses a word exactly when the words do not all name terminals. -/
theorem invalidInput_iff (conflictFree : first.hasConflict = false) :
    (first.run sentence).state = .invalidInput ↔
      ∀ terminals, ¬ first.grammar.Spells sentence terminals := by
  constructor
  · intro invalid terminals spells
    by_cases halts : Configuration.Halts first.grammar (.initial terminals)
    · have ended := state_of_halts conflictFree spells halts
      simp [invalid] at ended
    · have endless := state_of_endless conflictFree spells
        (Configuration.endless_iff_not_halts.2 halts)
      simp [invalid] at endless
  · exact state_of_not_spells conflictFree

/-- The words of isomorphic grammars are accepted together. -/
theorem accepted_of_isomorphism (iso : Grammar.Isomorphism first.grammar second.grammar)
    (conflictFree : first.hasConflict = false) (again : second.hasConflict = false)
    (spelled : ∀ terminals, first.grammar.Spells sentence terminals →
      second.grammar.Spells other (terminals.map iso.symbols))
    (accepted : (first.run sentence).state = .accepted) :
    (second.run other).state = .accepted := by
  obtain ⟨tree, spells, parse, _⟩ := exists_tree_of_accepted conflictFree accepted
  have derives := iso.derives_declared parse.derivation.derives
  have renamed := spelled tree.leaves spells
  rw [List.map_singleton, parse.root, iso.symbols_declaredStart] at derives
  obtain ⟨image, root, leaves, derivation⟩ := Tree.exists_tree_of_derives derives renamed.terminal
  exact (accepted_of_tree again ⟨derivation, root⟩ (leaves ▸ renamed)).1

/--
The order of the lines and the spelling of the words have no influence. Two texts that differ in
nothing else give the same number of states and agree on having a conflict, and the runs over a
sentence and over its renamed words accept together and find an invalid word together.
-/
theorem run_rearranged {rename : String → String} {source target : String}
    (compiles : ofText source = .ok first) (recompiles : ofText target = .ok second)
    (rearranges : Grammar.Rearranges rename (Text.wordLines (Text.lines source.toList))
      (Text.wordLines (Text.lines target.toList))) :
    first.collection.size = second.collection.size ∧
      first.hasConflict = second.hasConflict ∧
      ∀ sentence other : String,
        Text.wordStrings other.toList = (Text.wordStrings sentence.toList).map rename →
        ((first.run sentence).state = .accepted ↔ (second.run other).state = .accepted) ∧
          ((first.run sentence).state = .invalidInput ↔
            (second.run other).state = .invalidInput) := by
  obtain ⟨start, declared, reads⟩ := exists_translates compiles
  obtain ⟨again, head, writes⟩ := exists_translates recompiles
  obtain ⟨iso, named⟩ := rearranges.exists_isomorphism reads writes
  have conflicts : first.hasConflict = second.hasConflict := by
    rw [hasConflict, hasConflict, table_eq_table, table_eq_table, iso.hasConflict_eq]
  refine ⟨?_, conflicts, fun sentence other renamed => ?_⟩
  · rw [first.collection_eq, second.collection_eq, iso.size_eq]
  · have spelled := iso.spells_iff rearranges.injective named renamed
    cases conflictFree : first.hasConflict with
    | true =>
        rw [run_of_conflict conflictFree, run_of_conflict (conflicts ▸ conflictFree)]
        exact ⟨Iff.rfl, Iff.rfl⟩
    | false =>
        have unblocked : second.hasConflict = false := conflicts ▸ conflictFree
        have back (terminals : List Symbol) :
            first.grammar.Spells sentence (terminals.map iso.symbols.symm) ↔
              second.grammar.Spells other terminals := by
          rw [← spelled]
          simp
        constructor
        · exact ⟨accepted_of_isomorphism iso conflictFree unblocked fun _ => (spelled _).2,
            accepted_of_isomorphism iso.symm unblocked conflictFree fun _ => (back _).2⟩
        · rw [invalidInput_iff conflictFree, invalidInput_iff unblocked]
          constructor
          · exact fun never terminals spells => never _ ((back terminals).2 spells)
          · exact fun never terminals spells => never _ ((spelled terminals).2 spells)

/-- The nonterminal and a terminal exchange their names, and the lines exchange their places. -/
theorem run_rearranged_exchange : ∃ first second, ofText "S ( S )\nS x" = .ok first ∧
    ofText "x S\nx ( x )" = .ok second ∧ first.collection.size = second.collection.size ∧
    first.hasConflict = second.hasConflict ∧ (first.run "( x )").state = .accepted ∧
    (second.run "( S )").state = .accepted := by
  obtain ⟨first, compiles, accepted⟩ := exists_of_ofText "S ( S )\nS x"
    (fun compiled => (compiled.run "( x )").state == .accepted) (by decide +kernel)
  obtain ⟨second, recompiles, _⟩ := exists_of_ofText "x S\nx ( x )" (fun _ => true)
    (by decide +kernel)
  have exchanged : Grammar.Rearranges (Equiv.swap "S" "x")
      (Text.wordLines (Text.lines "S ( S )\nS x".toList))
      (Text.wordLines (Text.lines "x S\nx ( x )".toList)) :=
    ⟨(Equiv.injective _).injOn, by decide +kernel, by decide +kernel⟩
  obtain ⟨sizes, conflicts, runs⟩ := run_rearranged compiles recompiles exchanged
  have accepted := beq_iff_eq.1 accepted
  exact ⟨first, second, compiles, recompiles, sizes, conflicts, accepted,
    (runs "( x )" "( S )" (by decide +kernel)).1.1 accepted⟩

end CompiledGrammar

end ShiftReduce
