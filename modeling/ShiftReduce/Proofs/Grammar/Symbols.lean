/-
This file relates the kinds of symbols to their ranges and names the declared part of a grammar.
-/

import ShiftReduce.Vocabulary.Lemmas
import ShiftReduce.Grammar.Basic

namespace ShiftReduce.Grammar

variable (grammar : Grammar)

/-- The declared rules leave out the added one. -/
def declaredRules : List Rule :=
  grammar.rules.tail

/-- The declared start symbol is the left-hand side of the first declared rule. -/
def declaredStart : Symbol :=
  (grammar.declaredRules.head?.map Rule.lhs).getD 0

abbrev nonterminalCount : Nat :=
  grammar.vocabulary.nonterminalCount

def isTerminal (symbol : Symbol) : Bool :=
  grammar.vocabulary.isTerminal symbol

/-- The terminals and the end marker have columns in the table of actions. -/
def HasColumn (symbol : Symbol) : Prop :=
  grammar.nonterminalCount ≤ symbol ∧ symbol < grammar.vocabulary.size

instance (symbol : Symbol) : Decidable (grammar.HasColumn symbol) :=
  inferInstanceAs (Decidable (_ ∧ _))

/-- Nonterminals, terminals and the end marker follow each other without a gap. -/
theorem kinds_by_range : ∃ others terminals : Nat,
    others + 1 = grammar.nonterminalCount ∧ others + 1 + terminals = grammar.endMarker ∧
    others + 1 + terminals + 1 = grammar.vocabulary.size ∧
    ∀ symbol : Nat, grammar.vocabulary.kind? symbol =
      if symbol = 0 then some .start
      else if symbol < others + 1 then some .nonterminal
      else if symbol < others + 1 + terminals then some .terminal
      else if symbol = others + 1 + terminals then some .endMarker
      else none := by
  obtain ⟨others, terminals, kinds⟩ := grammar.wellFormed.kinds_ordered
  have size : others + 1 + terminals + 1 = grammar.vocabulary.size := by
    rw [← Vocabulary.length_kinds, kinds]
    simp
    omega
  refine ⟨others, terminals, ?_, ?_, size, ?_⟩
  · rw [nonterminalCount, Vocabulary.nonterminalCount, kinds]
    simp [List.countP_cons, List.countP_replicate, SymbolKind.isNonterminal]
  · rw [endMarker, Vocabulary.lastSymbol, ← size]
    rfl
  · intro symbol
    rw [Vocabulary.kind?_eq_getElem?, kinds]
    cases symbol with
    | zero => rfl
    | succ place =>
        simp only [List.cons_append, List.getElem?_cons_succ, List.getElem?_append,
          List.getElem?_replicate, List.length_append, List.length_replicate]
        grind

theorem kind?_eq_start_iff {symbol : Symbol} :
    grammar.vocabulary.kind? symbol = some .start ↔ symbol = 0 := by
  obtain ⟨others, terminals, _, _, _, kinds⟩ := grammar.kinds_by_range
  rw [kinds]
  grind

theorem kind?_eq_endMarker_iff {symbol : Symbol} :
    grammar.vocabulary.kind? symbol = some .endMarker ↔ symbol = grammar.endMarker := by
  obtain ⟨others, terminals, _, last, _, kinds⟩ := grammar.kinds_by_range
  rw [kinds, ← last]
  grind

theorem isNonterminal_iff {symbol : Symbol} :
    grammar.isNonterminal symbol = true ↔ symbol < grammar.nonterminalCount := by
  obtain ⟨others, terminals, count, _, _, kinds⟩ := grammar.kinds_by_range
  rw [isNonterminal, Vocabulary.isNonterminal, kinds, ← count]
  grind [SymbolKind.isNonterminal]

theorem isTerminal_iff {symbol : Symbol} :
    grammar.isTerminal symbol = true ↔
      grammar.nonterminalCount ≤ symbol ∧ symbol < grammar.endMarker := by
  obtain ⟨others, terminals, count, last, _, kinds⟩ := grammar.kinds_by_range
  rw [isTerminal, Vocabulary.isTerminal, kinds, ← count, ← last]
  grind

theorem nonterminalCount_pos : 0 < grammar.nonterminalCount := by
  obtain ⟨others, _, count, _⟩ := grammar.kinds_by_range
  omega

theorem nonterminalCount_le_endMarker : grammar.nonterminalCount ≤ grammar.endMarker := by
  obtain ⟨others, terminals, count, last, _⟩ := grammar.kinds_by_range
  omega

theorem size_eq_endMarker_succ : grammar.vocabulary.size = grammar.endMarker + 1 := by
  obtain ⟨others, terminals, _, last, size, _⟩ := grammar.kinds_by_range
  omega

theorem isTerminal_endMarker : grammar.isTerminal grammar.endMarker = false := by
  rw [Bool.eq_false_iff, Ne, isTerminal_iff]
  exact fun bounds => Nat.lt_irrefl _ bounds.2

theorem hasColumn_endMarker : grammar.HasColumn grammar.endMarker := by
  refine ⟨grammar.nonterminalCount_le_endMarker, ?_⟩
  rw [size_eq_endMarker_succ]
  exact Nat.lt_succ_self _

theorem hasColumn_of_isTerminal {symbol : Symbol} (terminal : grammar.isTerminal symbol = true) :
    grammar.HasColumn symbol := by
  obtain ⟨lower, upper⟩ := grammar.isTerminal_iff.1 terminal
  constructor
  · exact lower
  · rw [size_eq_endMarker_succ]
    exact Nat.lt_succ_of_lt upper

theorem hasColumn_iff {symbol : Symbol} : grammar.HasColumn symbol ↔
    grammar.isTerminal symbol = true ∨ symbol = grammar.endMarker := by
  constructor
  · intro given
    obtain ⟨lower, upper⟩ := given
    rw [size_eq_endMarker_succ] at upper
    exact (Nat.lt_succ_iff_lt_or_eq.1 upper).imp
      (fun inside => grammar.isTerminal_iff.2 ⟨lower, inside⟩) id
  · intro either
    rcases either with terminal | rfl
    · exact grammar.hasColumn_of_isTerminal terminal
    · exact grammar.hasColumn_endMarker

theorem isNonterminal_eq_false {symbol : Symbol} (terminal : grammar.isTerminal symbol = true) :
    grammar.isNonterminal symbol = false := by
  rw [Bool.eq_false_iff, Ne, isNonterminal_iff]
  exact Nat.not_lt.2 (grammar.isTerminal_iff.1 terminal).1

/-- Rule 0 is the added rule. -/
theorem rules_eq : grammar.rules = ⟨0, [1]⟩ :: grammar.declaredRules := by
  have start := grammar.wellFormed.start_rule
  cases rules : grammar.rules with
  | nil => simp [rules] at start
  | cons first rest =>
      rw [rules, List.head?_cons, Option.some.injEq] at start
      rw [declaredRules, rules, start, List.tail_cons]

theorem rules_zero : grammar.rules[0]? = some ⟨0, [1]⟩ := by
  rw [rules_eq, List.getElem?_cons_zero]

/-- The declared start symbol has position 1. -/
theorem declaredStart_eq : grammar.declaredStart = 1 := by
  have declared := grammar.wellFormed.declared_rule
  rw [rules_eq, List.getElem?_cons_succ, ← List.head?_eq_getElem?] at declared
  rw [declaredStart, declared, Option.getD_some]

theorem mem_declaredRules {rule : Rule} :
    rule ∈ grammar.declaredRules ↔ ∃ index, index ≠ 0 ∧ grammar.rules[index]? = some rule := by
  rw [List.mem_iff_getElem?]
  constructor
  · intro given
    obtain ⟨place, found⟩ := given
    exact ⟨place + 1, Nat.succ_ne_zero place, by rw [rules_eq, List.getElem?_cons_succ, found]⟩
  · intro given
    obtain ⟨index, later, found⟩ := given
    cases index with
    | zero => exact absurd rfl later
    | succ place =>
        rw [rules_eq, List.getElem?_cons_succ] at found
        exact ⟨place, found⟩

theorem declaredRules_subset : grammar.declaredRules ⊆ grammar.rules :=
  fun _ => List.mem_of_mem_tail

theorem isNonterminal_lhs {rule : Rule} (listed : rule ∈ grammar.rules) :
    grammar.isNonterminal rule.lhs = true :=
  grammar.isNonterminal_iff.2 (grammar.wellFormed.lhs_nonterminal rule listed)

theorem isNonterminal_declaredStart : grammar.isNonterminal grammar.declaredStart = true := by
  have declared := grammar.wellFormed.declared_rule
  obtain ⟨rule, found, head⟩ := Option.map_eq_some_iff.1 declared
  rw [declaredStart_eq, ← head]
  exact grammar.isNonterminal_lhs (List.mem_of_getElem? found)

theorem lhs_ne_zero {rule : Rule} (declared : rule ∈ grammar.declaredRules) : rule.lhs ≠ 0 :=
  grammar.wellFormed.lhs_later rule declared

theorem rhs_ne_nil {rule : Rule} (listed : rule ∈ grammar.rules) : rule.rhs ≠ [] :=
  grammar.wellFormed.rhs_nonempty rule listed

theorem rhs_ne_zero {rule : Rule} (listed : rule ∈ grammar.rules) {symbol : Symbol}
    (inside : symbol ∈ rule.rhs) : symbol ≠ 0 :=
  (grammar.wellFormed.rhs_inner rule listed symbol inside).1

theorem rhs_lt_endMarker {rule : Rule} (listed : rule ∈ grammar.rules) {symbol : Symbol}
    (inside : symbol ∈ rule.rhs) : symbol < grammar.endMarker :=
  (grammar.wellFormed.rhs_inner rule listed symbol inside).2

section Bounds

variable {grammar} {symbol : Symbol} {rule : Rule}

theorem lt_size_of_isNonterminal (nonterminal : grammar.isNonterminal symbol = true) :
    symbol < grammar.vocabulary.size := by
  rw [isNonterminal_iff] at nonterminal
  rw [size_eq_endMarker_succ]
  exact Nat.lt_succ_of_lt (Nat.lt_of_lt_of_le nonterminal grammar.nonterminalCount_le_endMarker)

theorem lt_size_of_rhs (listed : rule ∈ grammar.rules) (inside : symbol ∈ rule.rhs) :
    symbol < grammar.vocabulary.size := by
  rw [size_eq_endMarker_succ]
  exact Nat.lt_succ_of_lt (grammar.rhs_lt_endMarker listed inside)

/-- No rule contains a symbol without a name. -/
theorem lt_size_of_rule (listed : rule ∈ grammar.rules) (inside : symbol ∈ rule.lhs :: rule.rhs) :
    symbol < grammar.vocabulary.size := by
  rcases List.mem_cons.1 inside with rfl | inside
  · exact lt_size_of_isNonterminal (grammar.isNonterminal_lhs listed)
  · exact lt_size_of_rhs listed inside

end Bounds

end ShiftReduce.Grammar
