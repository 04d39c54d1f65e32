/-
This file shows that FIRST and FOLLOW hold exactly what the derivations of a grammar allow and that
they are the least solutions of their equations.
-/

import Mathlib.Data.List.Chain
import Mathlib.Data.Set.Operations
import Mathlib.Order.Bounds.Defs
import ShiftReduce.CompiledGrammar
import ShiftReduce.Proofs.Lookahead.Origins

namespace ShiftReduce.Grammar

variable {grammar : Grammar} {found symbol : Symbol} {rule : Rule} {string : List Symbol}

section First

theorem isTerminal_of_rhs (declared : rule ∈ grammar.rules) (inside : symbol ∈ rule.rhs)
    (other : grammar.isNonterminal symbol = false) : grammar.isTerminal symbol = true := by
  rw [Bool.eq_false_iff, Ne, isNonterminal_iff] at other
  exact grammar.isTerminal_iff.2 ⟨Nat.le_of_not_lt other, grammar.rhs_lt_endMarker declared inside⟩

/-- What begins a symbol stands in front of a string that the symbol derives. -/
theorem derives_of_mem_first (member : found ∈ grammar.first symbol) :
    ∃ rest, Derives grammar.rules [symbol] (found :: rest) := by
  refine first_induction member ?_ ?_
  · exact fun _ => ⟨[], Derives.refl _⟩
  · intro rule declared leading others split _ below
    obtain ⟨rest, derives⟩ := below
    refine ⟨rest ++ others, (Derives.ofRule declared).trans ?_⟩
    rw [split]
    exact derives.append (Derives.refl others)

theorem isTerminal_of_mem_first (member : found ∈ grammar.first symbol)
    (nonterminal : grammar.isNonterminal symbol = true) : grammar.isTerminal found = true := by
  revert nonterminal
  refine first_induction member ?_ ?_
  · intro terminal nonterminal
    rw [terminal] at nonterminal
    cases nonterminal
  · intro rule declared leading others split inside below _
    cases kind : grammar.isNonterminal leading with
    | true => exact below kind
    | false =>
        rw [(mem_first_of_not_nonterminal kind).1 inside]
        exact isTerminal_of_rhs declared (by simp [split]) kind

/-- The first terminal of a derived string begins the first symbol that the string came from. -/
theorem mem_first_of_derives {rest tail : List Symbol}
    (derives : Derives grammar.rules (symbol :: tail) (found :: rest))
    (terminal : grammar.isTerminal found = true) : found ∈ grammar.first symbol := by
  generalize same : symbol :: tail = before at derives
  -- A step on the first symbol goes through one of its rules, and any other step keeps it in front.
  induction derives using Relation.ReflTransGen.head_induction_on generalizing symbol tail with
  | refl =>
      obtain ⟨rfl, _⟩ := List.cons.inj same
      exact grammar.mem_first_self (grammar.isNonterminal_eq_false terminal)
  | head rewrites _ ih =>
      cases rewrites with
      | step front back rule declared =>
          cases front with
          | nil =>
              obtain ⟨rfl, _⟩ := List.cons.inj same
              obtain ⟨leading, others, split⟩ :=
                List.exists_cons_of_ne_nil (grammar.rhs_ne_nil declared)
              have onward : leading :: (others ++ back) = [] ++ (rule.rhs ++ back) := by
                rw [split]
                rfl
              exact grammar.mem_first_of_rule declared split (ih onward)
          | cons first others =>
              obtain ⟨rfl, _⟩ := List.cons.inj same
              exact ih rfl

/-- FIRST of a nonterminal holds the terminals with which its derived strings begin. -/
theorem mem_first_iff_derives (nonterminal : grammar.isNonterminal symbol = true) :
    found ∈ grammar.first symbol ↔ grammar.isTerminal found = true ∧
      ∃ rest, Derives grammar.rules [symbol] (found :: rest) := by
  constructor
  · exact fun member => ⟨isTerminal_of_mem_first member nonterminal, derives_of_mem_first member⟩
  · intro given
    obtain ⟨terminal, rest, derives⟩ := given
    exact mem_first_of_derives derives terminal

end First

section Follow

/-- Whatever begins the right of two neighbours follows the left one. -/
def Neighbours (grammar : Grammar) (left right : Symbol) : Prop :=
  ∀ found ∈ grammar.first right, found ∈ grammar.follow left

/-- A rule brings its symbols together as neighbours. -/
theorem isChain_rhs (declared : rule ∈ grammar.rules) {front back : List Symbol}
    (split : rule.rhs = front ++ back) : back.IsChain grammar.Neighbours := by
  induction back generalizing front with
  | nil => exact .nil
  | cons left rest ih =>
      have moved : rule.rhs = (front ++ [left]) ++ rest := by simp [split]
      have later := ih moved
      refine List.isChain_cons.2 ⟨?_, later⟩
      intro right head found inside
      obtain ⟨others, rfl⟩ := List.head?_eq_some_iff.1 head
      exact grammar.mem_follow_of_next declared split inside

/-- A rewriting step keeps all neighbours. -/
theorem isChain_of_rewrites {before after : List Symbol}
    (rewrites : Rewrites grammar.rules before after)
    (chain : before.IsChain grammar.Neighbours) : after.IsChain grammar.Neighbours := by
  cases rewrites with
  | step front back rule declared =>
      obtain ⟨inFront, inBack, between⟩ := List.isChain_append.1 chain
      obtain ⟨behind, inBack⟩ := List.isChain_cons.1 inBack
      obtain ⟨leading, others, split⟩ :=
        List.exists_cons_of_ne_nil (grammar.rhs_ne_nil declared)
      -- New neighbours arise at the two ends of the right-hand side only, and no rule is empty.
      refine List.isChain_append.2 ⟨inFront, ?_, ?_⟩
      · refine List.isChain_append.2 ⟨isChain_rhs declared (List.nil_append _).symm, inBack, ?_⟩
        intro last final right head found inside
        obtain ⟨start, ending⟩ := List.getLast?_eq_some_iff.1 final
        exact grammar.mem_follow_of_last declared ending (behind right head found inside)
      · intro left final right head found inside
        rw [split] at head
        obtain rfl := Option.some.inj head
        exact between left final rule.lhs rfl found
          (grammar.mem_first_of_rule declared split inside)

/-- Neighbours in a derived string follow each other, wherever its derivation starts. -/
theorem isChain_of_derives (derives : Derives grammar.rules [symbol] string) :
    string.IsChain grammar.Neighbours := by
  induction derives with
  | refl => exact .singleton symbol
  | tail _ rewrites ih => exact isChain_of_rewrites rewrites ih

/-- The end of the input follows the last symbol of whatever the added start symbol derives. -/
theorem endMarker_mem_follow_of_derives {start : List Symbol}
    (derives : Derives grammar.rules [0] (start ++ [symbol])) :
    grammar.endMarker ∈ grammar.follow symbol := by
  generalize same : start ++ [symbol] = string at derives
  induction derives generalizing start symbol with
  | refl =>
      obtain ⟨_, last⟩ := List.append_inj' (same.trans (List.nil_append [0]).symm) rfl
      obtain rfl := List.singleton_injective last
      exact grammar.endMarker_mem_follow_zero
  | tail _ rewrites ih =>
      cases rewrites with
      | step front back rule declared =>
          rcases back.eq_nil_or_concat' with rfl | ⟨others, final, rfl⟩
          · obtain ⟨others, final, split⟩ :=
              rule.rhs.eq_nil_or_concat'.resolve_left (grammar.rhs_ne_nil declared)
            rw [split, List.append_nil, ← List.append_assoc] at same
            obtain rfl := List.singleton_injective (List.append_inj' same rfl).2
            exact grammar.mem_follow_of_last declared split (ih rfl)
          · rw [← List.append_assoc, ← List.append_assoc] at same
            obtain rfl := List.singleton_injective (List.append_inj' same rfl).2
            have source : (front ++ rule.lhs :: others) ++ [symbol] =
                front ++ rule.lhs :: (others ++ [symbol]) := by simp
            exact ih source

/-- What follows a symbol stands behind it in some derived string, or ends such a string. -/
theorem derives_of_mem_follow (member : found ∈ grammar.follow symbol) :
    (grammar.isTerminal found = true ∧ ∃ source front back,
        grammar.isNonterminal source = true ∧
        Derives grammar.rules [source] (front ++ symbol :: found :: back)) ∨
      (found = grammar.endMarker ∧ ∃ front, Derives grammar.rules [0] (front ++ [symbol])) := by
  refine follow_induction member ?_ ?_ ?_
  · exact fun finish => .inr ⟨finish, [], Derives.refl _⟩
  · intro rule declared front symbol next back split inside
    obtain ⟨rest, derives⟩ := derives_of_mem_first inside
    have terminal : grammar.isTerminal found = true := by
      cases kind : grammar.isNonterminal next with
      | true => exact isTerminal_of_mem_first inside kind
      | false =>
          rw [(mem_first_of_not_nonterminal kind).1 inside]
          exact isTerminal_of_rhs declared (by simp [split]) kind
    refine .inl ⟨terminal, rule.lhs, front, rest ++ back, grammar.isNonterminal_lhs declared, ?_⟩
    have behind := derives.inContext (front ++ [symbol]) back
    refine (Derives.ofRule declared).trans ?_
    rw [split]
    simpa using behind
  · intro rule declared front symbol split _ below
    have step := Derives.ofRule declared
    rw [split] at step
    rcases below with ⟨terminal, source, before, back, nonterminal, derives⟩ |
      ⟨finish, before, derives⟩
    · refine .inl ⟨terminal, source, before ++ front, back, nonterminal, derives.trans ?_⟩
      simpa using step.inContext before (found :: back)
    · refine .inr ⟨finish, before ++ front, derives.trans ?_⟩
      simpa using step.inContext before []

/--
FOLLOW holds the terminals that stand right behind a symbol in a string derived from any
nonterminal, and the end marker when a string derived from the added start symbol ends with it.
-/
theorem mem_follow_iff_derives : found ∈ grammar.follow symbol ↔
    (grammar.isTerminal found = true ∧ ∃ source front back,
        grammar.isNonterminal source = true ∧
        Derives grammar.rules [source] (front ++ symbol :: found :: back)) ∨
      (found = grammar.endMarker ∧ ∃ front, Derives grammar.rules [0] (front ++ [symbol])) := by
  constructor
  · exact derives_of_mem_follow
  · rintro (⟨terminal, source, front, back, _, derives⟩ | ⟨rfl, front, derives⟩)
    · have chain := (List.isChain_append.1 (isChain_of_derives derives)).2.1
      have behind := (List.isChain_cons.1 chain).1 found rfl
      exact behind found (grammar.mem_first_self (grammar.isNonterminal_eq_false terminal))
    · exact endMarker_mem_follow_of_derives derives

end Follow

section Equations

/-- A list of sets gives the set at each place, and the empty set beyond its end. -/
def indexed (sets : List (OrderedSet Symbol)) (symbol : Symbol) : Set Symbol :=
  {found | ∃ set ∈ sets[symbol]?, found ∈ set}

/--
A known symbol other than a nonterminal begins with itself, and a nonterminal with whatever the
leading symbols of its rules begin with.
-/
def firstEquations (grammar : Grammar) (first : Symbol → Set Symbol) (symbol : Symbol) :
    Set Symbol :=
  {found | if grammar.isNonterminal symbol then
      ∃ rule ∈ grammar.rulesFor symbol, ∃ leading ∈ rule.rhs.head?, found ∈ first leading
    else symbol < grammar.vocabulary.size ∧ found = symbol}

/--
The end of the input follows the added start symbol. Behind an occurrence in a rule comes what the
next symbol begins with, or at the end of the rule what follows its left-hand side.
-/
def followEquations (grammar : Grammar) (first follow : Symbol → Set Symbol) (symbol : Symbol) :
    Set Symbol :=
  {found | grammar.isNonterminal symbol = true ∧
    ((symbol = 0 ∧ found = grammar.endMarker) ∨
      ∃ rule ∈ grammar.rules,
        (∃ front next back, rule.rhs = front ++ symbol :: next :: back ∧ found ∈ first next) ∨
        ∃ front, rule.rhs = front ++ [symbol] ∧ found ∈ follow rule.lhs)}

theorem mem_indexed_firstSets : found ∈ indexed grammar.firstSets symbol ↔
    symbol < grammar.vocabulary.size ∧ found ∈ grammar.first symbol := by
  rw [indexed, Set.mem_ofPred_eq, firstSets, Vocabulary.symbols, List.getElem?_map]
  by_cases known : symbol < grammar.vocabulary.size <;> simp [known]

theorem mem_indexed_followSets : found ∈ indexed grammar.followSets symbol ↔
    grammar.isNonterminal symbol = true ∧ found ∈ grammar.follow symbol := by
  rw [indexed, Set.mem_ofPred_eq, followSets, Vocabulary.nonterminals, List.getElem?_map,
    isNonterminal_iff]
  by_cases known : symbol < grammar.nonterminalCount <;> simp [known]

theorem firstEquations_firstSets :
    grammar.firstEquations (indexed grammar.firstSets) = indexed grammar.firstSets := by
  funext symbol
  ext found
  rw [firstEquations, Set.mem_ofPred_eq, mem_indexed_firstSets]
  cases kind : grammar.isNonterminal symbol with
  | false => rw [if_neg (by decide), mem_first_of_not_nonterminal kind]
  | true =>
      rw [if_pos rfl, mem_first_iff_leading kind]
      constructor
      · intro given
        obtain ⟨rule, ruled, leading, head, inside⟩ := given
        exact ⟨lt_size_of_isNonterminal kind, rule, ruled, leading, head,
          (mem_indexed_firstSets.1 inside).2⟩
      · intro given
        obtain ⟨_, rule, ruled, leading, head, inside⟩ := given
        have known := lt_size_of_rhs (mem_rulesFor.1 ruled).1 (List.mem_of_mem_head? head)
        exact ⟨rule, ruled, leading, head, mem_indexed_firstSets.2 ⟨known, inside⟩⟩

/-- FIRST is below every solution, since its members come up along the rules. -/
theorem isLeast_firstSets :
    IsLeast {sets | grammar.firstEquations sets = sets} (indexed grammar.firstSets) := by
  refine ⟨firstEquations_firstSets, ?_⟩
  intro sets solution symbol found inside
  obtain ⟨known, member⟩ := mem_indexed_firstSets.1 inside
  clear inside
  revert known
  have equations (symbol : Symbol) : found ∈ grammar.firstEquations sets symbol ↔
      found ∈ sets symbol := by
    rw [show grammar.firstEquations sets = sets from solution]
  refine first_induction member ?_ ?_
  · intro terminal known
    rw [← equations, firstEquations, Set.mem_ofPred_eq, terminal, if_neg (by decide)]
    exact ⟨known, rfl⟩
  · intro rule declared leading rest split _ below known
    rw [← equations, firstEquations, Set.mem_ofPred_eq, grammar.isNonterminal_lhs declared,
      if_pos rfl]
    refine ⟨rule, mem_rulesFor.2 ⟨declared, rfl⟩, leading, by rw [split]; rfl, below ?_⟩
    exact lt_size_of_rhs declared (by simp [split])

theorem followEquations_followSets :
    grammar.followEquations (indexed grammar.firstSets) (indexed grammar.followSets) =
      indexed grammar.followSets := by
  funext symbol
  ext found
  rw [followEquations, Set.mem_ofPred_eq, mem_indexed_followSets, mem_follow_iff_occurs]
  refine and_congr_right fun _ => or_congr Iff.rfl (exists_congr fun rule => ?_)
  refine and_congr_right fun declared => or_congr ?_ ?_
  · refine exists_congr fun front => exists_congr fun next => exists_congr fun back => ?_
    refine and_congr_right fun split => ?_
    rw [mem_indexed_firstSets]
    exact and_iff_right (lt_size_of_rhs declared (by simp [split]))
  · refine exists_congr fun front => and_congr_right fun _ => ?_
    rw [mem_indexed_followSets]
    exact and_iff_right (grammar.isNonterminal_lhs declared)

/-- FOLLOW is below every solution, since its members come down along the rules. -/
theorem isLeast_followSets :
    IsLeast {sets | grammar.followEquations (indexed grammar.firstSets) sets = sets}
      (indexed grammar.followSets) := by
  refine ⟨followEquations_followSets, ?_⟩
  intro sets solution symbol found inside
  obtain ⟨nonterminal, member⟩ := mem_indexed_followSets.1 inside
  clear inside
  revert nonterminal
  have equations (symbol : Symbol) :
      found ∈ grammar.followEquations (indexed grammar.firstSets) sets symbol ↔
        found ∈ sets symbol := by
    rw [show grammar.followEquations (indexed grammar.firstSets) sets = sets from solution]
  refine follow_induction member ?_ ?_ ?_
  · intro finish nonterminal
    rw [← equations]
    exact ⟨nonterminal, .inl ⟨rfl, finish⟩⟩
  · intro rule declared front symbol next back split begins nonterminal
    have inside : next ∈ rule.rhs := by simp [split]
    have known := lt_size_of_rhs declared inside
    rw [← equations]
    exact ⟨nonterminal, .inr ⟨rule, declared, .inl ⟨front, next, back, split,
      mem_indexed_firstSets.2 ⟨known, begins⟩⟩⟩⟩
  · intro rule declared front symbol split _ below nonterminal
    rw [← equations]
    exact ⟨nonterminal, .inr ⟨rule, declared, .inr ⟨front, split,
      below (grammar.isNonterminal_lhs declared)⟩⟩⟩

end Equations

/--
The guarded searches lose nothing and add nothing. FIRST of a nonterminal holds the terminals with
which its derived strings begin, and any other symbol begins with itself alone. FOLLOW of a
nonterminal holds the terminals right behind it in the strings derived from any nonterminal, and
the end marker when a string derived from the added start symbol ends with it. So both are the
least solutions of their equations.
-/
theorem first_follow_exact (grammar : Grammar) :
    (∀ symbol, grammar.isNonterminal symbol = true → ∀ found,
      found ∈ grammar.first symbol ↔ grammar.isTerminal found = true ∧
        ∃ rest, Derives grammar.rules [symbol] (found :: rest)) ∧
    (∀ symbol, grammar.isNonterminal symbol = false → ∀ found,
      found ∈ grammar.first symbol ↔ found = symbol) ∧
    (∀ symbol, grammar.isNonterminal symbol = true → ∀ found,
      found ∈ grammar.follow symbol ↔
        (grammar.isTerminal found = true ∧ ∃ source front back,
          grammar.isNonterminal source = true ∧
          Derives grammar.rules [source] (front ++ symbol :: found :: back)) ∨
        (found = grammar.endMarker ∧ ∃ front, Derives grammar.rules [0] (front ++ [symbol]))) ∧
    IsLeast {sets | grammar.firstEquations sets = sets} (indexed grammar.firstSets) ∧
    IsLeast {sets | grammar.followEquations (indexed grammar.firstSets) sets = sets}
      (indexed grammar.followSets) := by
  refine ⟨?_, ?_, ?_, isLeast_firstSets, isLeast_followSets⟩
  · exact fun symbol nonterminal found => mem_first_iff_derives nonterminal
  · exact fun symbol kind found => mem_first_of_not_nonterminal kind
  · exact fun symbol _ found => mem_follow_iff_derives

/-- Two nonterminals that lead rules of each other begin with the same terminal. -/
theorem first_follow_exact_mutual :
    ∃ compiled, CompiledGrammar.ofText "S A b\nA S a\nA c" = .ok compiled ∧
      (∃ rest, Derives compiled.grammar.rules [1] (5 :: rest)) ∧
      (∃ rest, Derives compiled.grammar.rules [2] (5 :: rest)) ∧
      ∃ front, Derives compiled.grammar.rules [0] (front ++ [1]) := by
  obtain ⟨compiled, compiles, evaluated⟩ := CompiledGrammar.exists_of_ofText
    "S A b\nA S a\nA c"
    (fun compiled => decide (5 ∈ compiled.grammar.first 1 ∧ 5 ∈ compiled.grammar.first 2 ∧
      compiled.grammar.endMarker ∈ compiled.grammar.follow 1 ∧
      compiled.grammar.isNonterminal 1 = true ∧ compiled.grammar.isNonterminal 2 = true))
    (by decide +kernel)
  obtain ⟨beginsS, beginsA, finishes, nonterminalS, nonterminalA⟩ := of_decide_eq_true evaluated
  obtain ⟨first, _, follow, _⟩ := first_follow_exact compiled.grammar
  refine ⟨compiled, compiles, ((first 1 nonterminalS 5).1 beginsS).2,
    ((first 2 nonterminalA 5).1 beginsA).2, ?_⟩
  rcases (follow 1 nonterminalS _).1 finishes with ⟨terminal, _⟩ | ⟨_, derives⟩
  · rw [isTerminal_endMarker] at terminal
    cases terminal
  · exact derives

end ShiftReduce.Grammar
