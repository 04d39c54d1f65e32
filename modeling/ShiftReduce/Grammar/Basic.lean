/-
This file defines grammars whose names are numbered.
-/

import ShiftReduce.Text.Words
import ShiftReduce.Vocabulary.Basic

namespace ShiftReduce

structure Rule where
  lhs : Symbol
  rhs : List Symbol
deriving DecidableEq

/--
The vocabulary lists the added start symbol, the other nonterminals, the terminals and the end
marker, in this order. Rule 0 leads from the added start symbol to the declared one, which heads
rule 1. No right-hand side is empty or contains the added start symbol or the end marker.
-/
structure Grammar.WellFormed (rules : List Rule) (vocabulary : Vocabulary) : Prop where
  kinds_ordered : ∃ others terminals, vocabulary.kinds =
    .start :: List.replicate others .nonterminal ++ List.replicate terminals .terminal ++
      [.endMarker]
  end_named : vocabulary.name? vocabulary.lastSymbol = some endMarkerName
  names_words : ∀ name ∈ vocabulary.names, Text.IsWord name
  start_rule : rules.head? = some ⟨0, [1]⟩
  declared_rule : rules[1]?.map Rule.lhs = some 1
  lhs_nonterminal : ∀ rule ∈ rules, rule.lhs < vocabulary.nonterminalCount
  lhs_later : ∀ rule ∈ rules.tail, rule.lhs ≠ 0
  rhs_nonempty : ∀ rule ∈ rules, rule.rhs ≠ []
  rhs_inner : ∀ rule ∈ rules, ∀ symbol ∈ rule.rhs,
    symbol ≠ 0 ∧ symbol < vocabulary.lastSymbol

/-- The index of a rule is its position. -/
structure Grammar where
  rules : List Rule
  vocabulary : Vocabulary
  wellFormed : Grammar.WellFormed rules vocabulary

namespace Grammar

/-- The end marker is the last name of the vocabulary. -/
def endMarker (grammar : Grammar) : Symbol :=
  grammar.vocabulary.lastSymbol

def isNonterminal (grammar : Grammar) (symbol : Symbol) : Bool :=
  grammar.vocabulary.isNonterminal symbol

def rulesFor (grammar : Grammar) (lhs : Symbol) : List Rule :=
  grammar.rules.filter fun rule => rule.lhs == lhs

/-- The rules of a nonterminal are listed in the order of their declaration. -/
def ruleIndicesFor (grammar : Grammar) (lhs : Symbol) : List Nat :=
  (grammar.rules.zipIdx.filter fun numbered => numbered.1.lhs == lhs).map Prod.snd

def ruleText (grammar : Grammar) (rule : Rule) : String :=
  " ".intercalate
    (grammar.vocabulary.label rule.lhs :: "→" :: rule.rhs.map grammar.vocabulary.label)

end Grammar

end ShiftReduce
