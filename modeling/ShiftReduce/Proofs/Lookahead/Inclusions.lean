/-
This file states which inclusions the rules of a grammar force between FIRST and FOLLOW sets.
-/

import ShiftReduce.Lookahead
import ShiftReduce.Proofs.Grammar.Symbols
import ShiftReduce.Proofs.Lookahead.Exploration
import ShiftReduce.Proofs.Tree.Derivation

namespace ShiftReduce.Grammar

variable (grammar : Grammar) {found symbol : Symbol} {rule : Rule}

theorem mem_first : found ∈ grammar.first symbol ↔
    Errand.Reaches grammar.firstErrandsOf (.fresh grammar.vocabulary.size) found
      (grammar.firstErrand symbol) := by
  rw [first, firstGuarded, OrderedSet.mem_ofList, mem_explore]
  simp

theorem mem_follow : found ∈ grammar.follow symbol ↔
    Errand.Reaches grammar.followErrandsOf (.fresh grammar.vocabulary.size) found
      (.visit symbol) := by
  rw [follow, followGuarded, OrderedSet.mem_ofList, mem_explore]
  simp

/-- Only nonterminals are looked into. -/
theorem mem_first_self (terminal : grammar.isNonterminal symbol = false) :
    symbol ∈ grammar.first symbol := by
  rw [mem_first, firstErrand, terminal]
  exact .report List.mem_cons_self

theorem allows_fresh_of_lt (inside : symbol < grammar.endMarker) :
    (Guard.fresh grammar.vocabulary.size).allows symbol = true := by
  rw [Guard.allows_fresh, size_eq_endMarker_succ]
  exact Nat.lt_succ_of_lt inside

theorem lhs_lt_endMarker (listed : rule ∈ grammar.rules) : rule.lhs < grammar.endMarker :=
  Nat.lt_of_lt_of_le (grammar.wellFormed.lhs_nonterminal rule listed)
    grammar.nonterminalCount_le_endMarker

/-- FIRST of a nonterminal covers FIRST of the leading symbol of each of its rules. -/
theorem mem_first_of_rule (listed : rule ∈ grammar.rules) {next : Symbol} {rest : List Symbol}
    (leading : rule.rhs = next :: rest) (member : found ∈ grammar.first next) :
    found ∈ grammar.first rule.lhs := by
  rw [mem_first] at member ⊢
  have visited : grammar.firstErrand rule.lhs = .visit rule.lhs := by
    rw [firstErrand, grammar.isNonterminal_lhs listed, if_pos rfl]
  have errand : grammar.firstErrand next ∈ grammar.firstErrandsOf rule.lhs := by
    rw [firstErrandsOf, List.mem_flatMap]
    refine ⟨rule, List.mem_filter.2 ⟨listed, beq_self_eq_true _⟩, ?_⟩
    rw [leading]
    exact List.mem_cons_self
  rw [visited]
  exact .visit (grammar.allows_fresh_of_lt (grammar.lhs_lt_endMarker listed)) errand member

theorem occurrenceErrands_subset_cons (lhs occurring : Symbol) (rest : List Symbol) :
    grammar.occurrenceErrands symbol lhs rest ⊆
      grammar.occurrenceErrands symbol lhs (occurring :: rest) := by
  intro errand later
  rw [occurrenceErrands.eq_def grammar symbol lhs (occurring :: rest)]
  dsimp only
  split
  · split <;> exact List.mem_cons_of_mem _ later
  · exact later

theorem report_mem_occurrenceErrands {lhs next : Symbol} (front back : List Symbol) :
    .report (grammar.first next).toList ∈
      grammar.occurrenceErrands symbol lhs (front ++ symbol :: next :: back) := by
  induction front with
  | nil => simp [occurrenceErrands]
  | cons occurring rest ih => exact grammar.occurrenceErrands_subset_cons lhs occurring _ ih

theorem visit_mem_occurrenceErrands {lhs : Symbol} (front : List Symbol) :
    .visit lhs ∈ grammar.occurrenceErrands symbol lhs (front ++ [symbol]) := by
  induction front with
  | nil => simp [occurrenceErrands]
  | cons occurring rest ih => exact grammar.occurrenceErrands_subset_cons lhs occurring _ ih

theorem mem_followErrandsOf {errand : Errand} (listed : rule ∈ grammar.rules)
    (inside : errand ∈ grammar.occurrenceErrands symbol rule.lhs rule.rhs) :
    errand ∈ grammar.followErrandsOf symbol :=
  List.mem_append_right _ (List.mem_flatMap.2 ⟨rule, listed, inside⟩)

/-- What the next symbol of a rule begins with can follow a symbol. -/
theorem mem_follow_of_next (listed : rule ∈ grammar.rules) {next : Symbol}
    {front back : List Symbol} (split : rule.rhs = front ++ symbol :: next :: back)
    (member : found ∈ grammar.first next) : found ∈ grammar.follow symbol := by
  have inside : symbol ∈ rule.rhs := by simp [split]
  have errand : .report (grammar.first next).toList ∈
      grammar.occurrenceErrands symbol rule.lhs rule.rhs := by
    rw [split]
    exact grammar.report_mem_occurrenceErrands front back
  rw [mem_follow]
  exact .visit (grammar.allows_fresh_of_lt (grammar.rhs_lt_endMarker listed inside))
    (grammar.mem_followErrandsOf listed errand) (.report member)

/-- What follows a left-hand side also follows the last symbol of its rule. -/
theorem mem_follow_of_last (listed : rule ∈ grammar.rules) {front : List Symbol}
    (split : rule.rhs = front ++ [symbol]) (member : found ∈ grammar.follow rule.lhs) :
    found ∈ grammar.follow symbol := by
  have inside : symbol ∈ rule.rhs := by simp [split]
  have errand : .visit rule.lhs ∈ grammar.occurrenceErrands symbol rule.lhs rule.rhs := by
    rw [split]
    exact grammar.visit_mem_occurrenceErrands front
  rw [mem_follow] at member ⊢
  exact .visit (grammar.allows_fresh_of_lt (grammar.rhs_lt_endMarker listed inside))
    (grammar.mem_followErrandsOf listed errand) member

/-- A unit rule hands on what follows its left-hand side. -/
theorem mem_follow_of_unit {lhs : Symbol} (listed : (⟨lhs, [symbol]⟩ : Rule) ∈ grammar.rules)
    (member : found ∈ grammar.follow lhs) : found ∈ grammar.follow symbol := by
  have split : [symbol] = [] ++ [symbol] := (List.nil_append _).symm
  exact grammar.mem_follow_of_last listed split member

theorem endMarker_mem_follow_zero : grammar.endMarker ∈ grammar.follow 0 := by
  have inside := Nat.lt_of_lt_of_le grammar.nonterminalCount_pos
    grammar.nonterminalCount_le_endMarker
  have errand : .report [grammar.endMarker] ∈ grammar.followErrandsOf 0 :=
    List.mem_append_left _ List.mem_cons_self
  rw [mem_follow]
  exact .visit (grammar.allows_fresh_of_lt inside) errand (.report List.mem_cons_self)

/-- The end of the input follows the declared start symbol. -/
theorem endMarker_mem_follow_declaredStart :
    grammar.endMarker ∈ grammar.follow grammar.declaredStart := by
  have listed : (⟨0, [1]⟩ : Rule) ∈ grammar.rules := List.mem_of_getElem? grammar.rules_zero
  rw [declaredStart_eq]
  exact grammar.mem_follow_of_unit listed grammar.endMarker_mem_follow_zero

/-- The leaves of a derivation tree begin with a member of FIRST of the root. -/
theorem head_leaves_mem_first {tree : Tree} (derivation : tree.IsDerivation grammar)
    (leading : tree.leaves.head? = some found) : found ∈ grammar.first tree.symbol := by
  induction derivation with
  | leaf terminal =>
      rw [Tree.leaves_leaf, List.head?_cons, Option.some.injEq] at leading
      subst leading
      exact grammar.mem_first_self (grammar.isNonterminal_eq_false terminal)
  | @node rule children declared instantiated below ih =>
      have inner := Tree.children_ne_nil declared instantiated
      obtain ⟨child, rest, rfl⟩ := List.exists_cons_of_ne_nil inner
      have same : (Tree.node rule.lhs (child :: rest)).leaves.head? = child.leaves.head? := by
        obtain ⟨first, others, nonempty⟩ :=
          List.exists_cons_of_ne_nil (below child List.mem_cons_self).leaves_ne_nil
        rw [Tree.leaves_node inner, Tree.leavesOf, nonempty, List.cons_append, List.head?_cons,
          List.head?_cons]
      exact grammar.mem_first_of_rule (grammar.declaredRules_subset declared) instantiated.symm
        (ih child List.mem_cons_self (same ▸ leading))

theorem head_append_mem_first {tree : Tree} (derivation : tree.IsDerivation grammar)
    (tail : List Symbol) :
    (tree.leaves ++ tail).head?.getD grammar.endMarker ∈ grammar.first tree.symbol := by
  obtain ⟨leaf, leaves, nonempty⟩ := List.exists_cons_of_ne_nil derivation.leaves_ne_nil
  apply grammar.head_leaves_mem_first derivation
  rw [nonempty]
  rfl

end ShiftReduce.Grammar
