/-
This file tells where the members of FIRST and FOLLOW sets come from.
-/

import ShiftReduce.Proofs.Lookahead.Inclusions

namespace ShiftReduce.Grammar

variable {grammar : Grammar} {found symbol : Symbol}

section Errands

theorem mem_firstErrandsOf {errand : Errand} {lhs : Symbol} :
    errand ∈ grammar.firstErrandsOf lhs ↔
      ∃ rule ∈ grammar.rulesFor lhs, ∃ leading rest,
        rule.rhs = leading :: rest ∧ errand = grammar.firstErrand leading := by
  rw [firstErrandsOf, List.mem_flatMap]
  refine exists_congr fun rule => and_congr Iff.rfl ?_
  cases rule.rhs with
  | nil => simp
  | cons leading rest => simp

theorem mem_rulesFor {rule : Rule} {lhs : Symbol} :
    rule ∈ grammar.rulesFor lhs ↔ rule ∈ grammar.rules ∧ rule.lhs = lhs := by
  rw [rulesFor, List.mem_filter, beq_iff_eq]

/-- An occurrence of the symbol reports what comes next or asks for the left-hand side. -/
theorem mem_occurrenceErrands {errand : Errand} {lhs : Symbol} {symbols : List Symbol} :
    errand ∈ grammar.occurrenceErrands symbol lhs symbols ↔
      (∃ front next back, symbols = front ++ symbol :: next :: back ∧
        errand = .report (grammar.first next).toList) ∨
      ∃ front, symbols = front ++ [symbol] ∧ errand = .visit lhs := by
  constructor
  · intro listed
    induction symbols with
    | nil => exact absurd listed List.not_mem_nil
    | cons occurring rest ih =>
        have later (inRest : errand ∈ grammar.occurrenceErrands symbol lhs rest) :
            (∃ front next back, occurring :: rest = front ++ symbol :: next :: back ∧
              errand = .report (grammar.first next).toList) ∨
            ∃ front, occurring :: rest = front ++ [symbol] ∧ errand = .visit lhs := by
          rcases ih inRest with ⟨front, next, back, rfl, same⟩ | ⟨front, rfl, same⟩
          · exact .inl ⟨occurring :: front, next, back, rfl, same⟩
          · exact .inr ⟨occurring :: front, rfl, same⟩
        rw [occurrenceErrands.eq_def] at listed
        dsimp only at listed
        split at listed
        · next here =>
            subst here
            split at listed
            · rcases List.mem_cons.1 listed with same | inRest
              · exact .inr ⟨[], rfl, same⟩
              · exact later inRest
            · next next back =>
                rcases List.mem_cons.1 listed with same | inRest
                · exact .inl ⟨[], next, back, rfl, same⟩
                · exact later inRest
        · exact later listed
  · rintro (⟨front, next, back, rfl, rfl⟩ | ⟨front, rfl, rfl⟩)
    · exact grammar.report_mem_occurrenceErrands front back
    · exact grammar.visit_mem_occurrenceErrands front

end Errands

section First

/-- A symbol other than a nonterminal begins with itself. -/
theorem mem_first_of_not_nonterminal (kind : grammar.isNonterminal symbol = false) :
    found ∈ grammar.first symbol ↔ found = symbol := by
  rw [mem_first, firstErrand, kind, if_neg (by decide), Errand.Reaches.report_iff,
    List.mem_singleton]

/-- What begins a symbol begins a symbol that leads one of its rules, unless it is the symbol. -/
@[elab_as_elim]
theorem first_induction {motive : Symbol → Prop} (member : found ∈ grammar.first symbol)
    (self : grammar.isNonterminal found = false → motive found)
    (leads : ∀ rule ∈ grammar.rules, ∀ leading rest, rule.rhs = leading :: rest →
      found ∈ grammar.first leading → motive leading → motive rule.lhs) : motive symbol := by
  rw [mem_first] at member
  generalize same : grammar.firstErrand symbol = errand at member
  induction member generalizing symbol with
  | report listed =>
      rw [firstErrand] at same
      split at same
      · cases same
      · next terminal =>
          rw [← Errand.report.inj same, List.mem_singleton] at listed
          rw [Bool.not_eq_true] at terminal
          exact listed ▸ self (listed ▸ terminal)
  | visit _ listed next ih =>
      rw [firstErrand] at same
      split at same
      · obtain rfl := Errand.visit.inj same
        obtain ⟨rule, ruled, leading, rest, split, rfl⟩ := mem_firstErrandsOf.1 listed
        obtain ⟨declared, rfl⟩ := mem_rulesFor.1 ruled
        exact leads rule declared leading rest split (grammar.mem_first.2 next) (ih rfl)
      · cases same

/-- FIRST of a nonterminal collects FIRST of the leading symbols of its rules. -/
theorem mem_first_iff_leading (nonterminal : grammar.isNonterminal symbol = true) :
    found ∈ grammar.first symbol ↔
      ∃ rule ∈ grammar.rulesFor symbol, ∃ leading ∈ rule.rhs.head?,
        found ∈ grammar.first leading := by
  constructor
  · intro member
    revert nonterminal
    refine first_induction member ?_ ?_
    · intro terminal nonterminal
      rw [terminal] at nonterminal
      cases nonterminal
    · intro rule declared leading rest split inside _ _
      exact ⟨rule, mem_rulesFor.2 ⟨declared, rfl⟩, leading, by rw [split]; rfl, inside⟩
  · intro given
    obtain ⟨rule, ruled, leading, head, inside⟩ := given
    obtain ⟨declared, rfl⟩ := mem_rulesFor.1 ruled
    obtain ⟨rest, split⟩ := List.head?_eq_some_iff.1 head
    exact grammar.mem_first_of_rule declared split inside

end First

section Follow

/-- What follows a symbol is the end of the input, or it comes from a rule with the symbol. -/
@[elab_as_elim]
theorem follow_induction {motive : Symbol → Prop} (member : found ∈ grammar.follow symbol)
    (finish : found = grammar.endMarker → motive 0)
    (next : ∀ rule ∈ grammar.rules, ∀ front symbol next back,
      rule.rhs = front ++ symbol :: next :: back → found ∈ grammar.first next → motive symbol)
    (last : ∀ rule ∈ grammar.rules, ∀ front symbol, rule.rhs = front ++ [symbol] →
      found ∈ grammar.follow rule.lhs → motive rule.lhs → motive symbol) : motive symbol := by
  rw [mem_follow] at member
  generalize same : Errand.visit symbol = errand at member
  induction member generalizing symbol with
  | report _ => cases same
  | @visit symbol errand _ listed reaches ih =>
      obtain rfl := Errand.visit.inj same
      rw [followErrandsOf, List.mem_append] at listed
      rcases listed with ending | inRules
      · split at ending
        · next start =>
            rw [List.mem_singleton] at ending
            rw [ending, Errand.Reaches.report_iff, List.mem_singleton] at reaches
            exact start ▸ finish reaches
        · exact absurd ending List.not_mem_nil
      · obtain ⟨rule, declared, inside⟩ := List.mem_flatMap.1 inRules
        rcases mem_occurrenceErrands.1 inside with ⟨front, other, back, split, rfl⟩ |
          ⟨front, split, rfl⟩
        · exact next rule declared front _ other back split (Errand.Reaches.report_iff.1 reaches)
        · exact last rule declared front _ split (grammar.mem_follow.2 reaches) (ih rfl)

/-- FOLLOW of a nonterminal collects what comes behind its occurrences in the rules. -/
theorem mem_follow_iff_occurs : found ∈ grammar.follow symbol ↔
    (symbol = 0 ∧ found = grammar.endMarker) ∨
      ∃ rule ∈ grammar.rules,
        (∃ front next back, rule.rhs = front ++ symbol :: next :: back ∧
          found ∈ grammar.first next) ∨
        ∃ front, rule.rhs = front ++ [symbol] ∧ found ∈ grammar.follow rule.lhs := by
  constructor
  · intro member
    refine follow_induction member ?_ ?_ ?_
    · exact fun finish => .inl ⟨rfl, finish⟩
    · intro rule declared front symbol next back split inside
      exact .inr ⟨rule, declared, .inl ⟨front, next, back, split, inside⟩⟩
    · intro rule declared front symbol split inside _
      exact .inr ⟨rule, declared, .inr ⟨front, split, inside⟩⟩
  · rintro (⟨rfl, rfl⟩ | ⟨rule, declared, ⟨front, next, back, split, inside⟩ |
      ⟨front, split, inside⟩⟩)
    · exact grammar.endMarker_mem_follow_zero
    · exact grammar.mem_follow_of_next declared split inside
    · exact grammar.mem_follow_of_last declared split inside

/-- No rule contains the added start symbol, so only the end of the input follows it. -/
theorem mem_follow_zero : found ∈ grammar.follow 0 ↔ found = grammar.endMarker := by
  rw [mem_follow_iff_occurs]
  constructor
  · rintro (⟨_, finish⟩ | ⟨rule, declared, ⟨front, next, back, split, _⟩ | ⟨front, split, _⟩⟩)
    · exact finish
    · exact absurd rfl (grammar.rhs_ne_zero declared (by simp [split]))
    · exact absurd rfl (grammar.rhs_ne_zero declared (by simp [split]))
  · exact fun finish => .inl ⟨rfl, finish⟩

end Follow

end ShiftReduce.Grammar
