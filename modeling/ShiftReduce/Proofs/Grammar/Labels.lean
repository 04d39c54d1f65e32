/-
This file shows that each symbol of a grammar is written as one word and known by it.
-/

import ShiftReduce.Grammar.Basic
import ShiftReduce.Proofs.Text.Words
import ShiftReduce.Vocabulary.Lemmas

namespace ShiftReduce

namespace Vocabulary

variable {vocabulary : Vocabulary} {symbol : Symbol} {name : String}

theorem label_of_name? (named : vocabulary.name? symbol = some name) :
    vocabulary.label symbol = name := by
  rw [label, named, Option.getD_some]

theorem name?_label (known : symbol < vocabulary.size) :
    vocabulary.name? symbol = some (vocabulary.label symbol) := by
  rw [← length_names] at known
  rw [label, name?_eq_getElem?, List.getElem?_eq_getElem known, Option.getD_some]

/-- A known symbol is found by its label. -/
theorem lookup_label (known : symbol < vocabulary.size) :
    vocabulary.lookup (vocabulary.label symbol) = some symbol :=
  lookup_eq_some.2 (name?_label known)

end Vocabulary

namespace Grammar

/-- A symbol without a name is written as one word, too. -/
theorem isWord_label (grammar : Grammar) (symbol : Symbol) :
    Text.IsWord (grammar.vocabulary.label symbol) := by
  cases named : grammar.vocabulary.name? symbol with
  | none =>
      rw [Vocabulary.label, named, Option.getD_none]
      exact Text.IsWord.append (by decide) (Text.isWord_toString symbol)
  | some name =>
      rw [Vocabulary.label_of_name? named]
      rw [Vocabulary.name?_eq_getElem?] at named
      exact grammar.wellFormed.names_words name (List.mem_of_getElem? named)

theorem isWord_labels (grammar : Grammar) (symbols : List Symbol) :
    ∀ word ∈ symbols.map grammar.vocabulary.label, Text.IsWord word := by
  intro word listed
  obtain ⟨symbol, _, rfl⟩ := List.mem_map.1 listed
  exact grammar.isWord_label symbol

/-- The arrow between the two sides of a rule is a word, too. -/
theorem isWord_ruleText (grammar : Grammar) (rule : Rule) :
    ∀ word ∈ grammar.vocabulary.label rule.lhs :: "→" :: rule.rhs.map grammar.vocabulary.label,
      Text.IsWord word := by
  simp only [List.forall_mem_cons]
  exact ⟨grammar.isWord_label rule.lhs, by decide, grammar.isWord_labels rule.rhs⟩

end Grammar

end ShiftReduce
