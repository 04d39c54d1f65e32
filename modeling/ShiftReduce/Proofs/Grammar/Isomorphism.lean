/-
This file defines isomorphisms of grammars and carries derivations and lookaheads along them.
-/

import Mathlib.Logic.Equiv.Defs
import ShiftReduce.Proofs.Lookahead.Exactness

namespace ShiftReduce.Grammar

/-- The symbols and the rules of two grammars correspond to each other, whatever their numbers. -/
structure Isomorphism (source target : Grammar) where
  symbols : Equiv.Perm Symbol
  rules : Equiv.Perm Nat
  kind_eq : ∀ symbol, target.vocabulary.kind? (symbols symbol) = source.vocabulary.kind? symbol
  rule_eq : ∀ index, target.rules[rules index]? = source.rules[index]?.map (Rule.rename symbols)

namespace Isomorphism

variable {source target : Grammar} (iso : Isomorphism source target)

/-- An isomorphism is read backwards, so what it carries along is carried back as well. -/
def symm : Isomorphism target source where
  symbols := iso.symbols.symm
  rules := iso.rules.symm
  kind_eq symbol := by
    have same := iso.kind_eq (iso.symbols.symm symbol)
    rw [Equiv.apply_symm_apply] at same
    exact same.symm
  rule_eq index := by
    have same := iso.rule_eq (iso.rules.symm index)
    rw [Equiv.apply_symm_apply] at same
    rw [same, Option.map_map]
    cases source.rules[iso.rules.symm index]? <;> simp [Rule.rename]

@[simp] theorem symm_symbols : iso.symm.symbols = iso.symbols.symm := rfl

@[simp] theorem symm_rules : iso.symm.rules = iso.rules.symm := rfl

section Symbols

variable {symbol : Symbol}

@[simp] theorem isTerminal_eq :
    target.isTerminal (iso.symbols symbol) = source.isTerminal symbol := by
  simp only [isTerminal, Vocabulary.isTerminal, iso.kind_eq]

@[simp] theorem isNonterminal_eq :
    target.isNonterminal (iso.symbols symbol) = source.isNonterminal symbol := by
  simp only [isNonterminal, Vocabulary.isNonterminal, iso.kind_eq]

@[simp] theorem symbols_zero : iso.symbols 0 = 0 := by
  rw [← target.kind?_eq_start_iff, iso.kind_eq, source.kind?_eq_start_iff]

@[simp] theorem symbols_endMarker : iso.symbols source.endMarker = target.endMarker := by
  rw [← target.kind?_eq_endMarker_iff, iso.kind_eq, source.kind?_eq_endMarker_iff]

theorem hasColumn_iff : target.HasColumn (iso.symbols symbol) ↔ source.HasColumn symbol := by
  rw [target.hasColumn_iff, source.hasColumn_iff, iso.isTerminal_eq, ← iso.symbols_endMarker,
    iso.symbols.apply_eq_iff_eq]

theorem rule_some {index : Nat} {rule : Rule} (found : source.rules[index]? = some rule) :
    target.rules[iso.rules index]? = some (rule.rename iso.symbols) := by
  rw [iso.rule_eq, found, Option.map_some]

/-- Only the added rule has the added start symbol on the left. -/
@[simp] theorem rules_zero : iso.rules 0 = 0 := by
  have found := iso.rule_some source.rules_zero
  by_contra later
  apply target.lhs_ne_zero (target.mem_declaredRules.2 ⟨_, later, found⟩)
  simp [Rule.rename]

@[simp] theorem symbols_declaredStart :
    iso.symbols source.declaredStart = target.declaredStart := by
  have found := iso.rule_some source.rules_zero
  rw [iso.rules_zero, target.rules_zero] at found
  simpa [Rule.rename, declaredStart_eq, eq_comm] using found

end Symbols

section Derivations

variable {before after : List Symbol}

theorem mem_rules {rule : Rule} (listed : rule ∈ source.rules) :
    rule.rename iso.symbols ∈ target.rules := by
  obtain ⟨index, found⟩ := List.mem_iff_getElem?.1 listed
  exact List.mem_of_getElem? (iso.rule_some found)

theorem mem_declaredRules {rule : Rule} (declared : rule ∈ source.declaredRules) :
    rule.rename iso.symbols ∈ target.declaredRules := by
  obtain ⟨index, later, found⟩ := source.mem_declaredRules.1 declared
  refine target.mem_declaredRules.2 ⟨iso.rules index, ?_, iso.rule_some found⟩
  rw [← iso.rules_zero, Ne, iso.rules.apply_eq_iff_eq]
  exact later

theorem derives (derives : Derives source.rules before after) :
    Derives target.rules (before.map iso.symbols) (after.map iso.symbols) :=
  derives.map iso.symbols fun _ => iso.mem_rules

theorem derives_declared (derives : Derives source.declaredRules before after) :
    Derives target.declaredRules (before.map iso.symbols) (after.map iso.symbols) :=
  derives.map iso.symbols fun _ => iso.mem_declaredRules

variable {symbol found : Symbol}

theorem mem_follow (member : found ∈ source.follow symbol) :
    iso.symbols found ∈ target.follow (iso.symbols symbol) := by
  rw [mem_follow_iff_derives] at member ⊢
  rcases member with ⟨terminal, lhs, front, back, nonterminal, derives⟩ | ⟨rfl, front, derives⟩
  · refine .inl ⟨by simpa using terminal, iso.symbols lhs, front.map iso.symbols,
      back.map iso.symbols, by simpa using nonterminal, ?_⟩
    simpa using iso.derives derives
  · refine .inr ⟨by simp, front.map iso.symbols, ?_⟩
    simpa using iso.derives derives

end Derivations

end Isomorphism

end ShiftReduce.Grammar
