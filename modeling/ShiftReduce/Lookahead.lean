/-
This file computes FIRST and FOLLOW by a depth-first search whose guard lets it enter each symbol at
most once.
-/

import ShiftReduce.Grammar.Basic
import ShiftReduce.OrderedSet

namespace ShiftReduce

/-- A guard holds the symbols that a search may still enter. -/
structure Guard where
  enterable : List Symbol
  nodup : enterable.Nodup

namespace Guard

/-- A fresh guard allows every symbol below its size. -/
def fresh (size : Nat) : Guard := ⟨List.range size, List.nodup_range⟩

def allows (guard : Guard) (symbol : Symbol) : Bool :=
  guard.enterable.contains symbol

def enter (guard : Guard) (symbol : Symbol) : Guard :=
  ⟨guard.enterable.erase symbol, guard.nodup.erase symbol⟩

theorem allows_fresh {size : Nat} {symbol : Symbol} :
    (fresh size).allows symbol = true ↔ symbol < size := by
  simp [fresh, allows]

theorem allows_enter {guard : Guard} {symbol other : Symbol} :
    (guard.enter symbol).allows other = true ↔ other ≠ symbol ∧ guard.allows other = true := by
  simp [enter, allows, guard.nodup.mem_erase_iff]

end Guard

/-- An errand reports symbols or asks for the errands of one more symbol. -/
inductive Errand
  | report (found : List Symbol)
  | visit (symbol : Symbol)

/-- Entering a symbol adds its errands, and the enterable symbols pay for them in advance. -/
def credit (errandsOf : Symbol → List Errand) : List Symbol → Nat
  | [] => 0
  | symbol :: rest => (errandsOf symbol).length + 1 + credit errandsOf rest

theorem credit_erase (errandsOf : Symbol → List Errand) {symbol : Symbol}
    {enterable : List Symbol} (member : symbol ∈ enterable) :
    credit errandsOf (enterable.erase symbol) + (errandsOf symbol).length + 1 =
      credit errandsOf enterable := by
  induction enterable with
  | nil => exact absurd member List.not_mem_nil
  | cons first rest inductionHypothesis =>
      rw [List.erase_cons]
      split
      · next same =>
          rw [credit, eq_of_beq same]
          omega
      · next different =>
          have later : symbol ∈ rest :=
            (List.mem_cons.1 member).resolve_left fun same => different (by simp [same])
          rw [credit, credit, ← inductionHypothesis later]
          omega

theorem credit_enter (errandsOf : Symbol → List Errand) {guard : Guard} {symbol : Symbol}
    (allowed : guard.allows symbol = true) :
    credit errandsOf (guard.enter symbol).enterable + (errandsOf symbol).length + 1 =
      credit errandsOf guard.enterable :=
  credit_erase errandsOf (by simpa [Guard.allows] using allowed)

/--
The errands are run in order, those of an entered symbol before the ones that wait behind it.
A symbol that the guard does not allow contributes nothing. The result holds all reports in order
and the guard that is left.
-/
def explore (errandsOf : Symbol → List Errand) (guard : Guard) :
    List Errand → List Symbol × Guard
  | [] => ([], guard)
  | .report found :: waiting =>
      let rest := explore errandsOf guard waiting
      (found ++ rest.1, rest.2)
  | .visit symbol :: waiting =>
      if _ : guard.allows symbol = true then
        explore errandsOf (guard.enter symbol) (errandsOf symbol ++ waiting)
      else
        explore errandsOf guard waiting
termination_by errands => credit errandsOf guard.enterable + errands.length
decreasing_by
  · simp
  · have allowed : guard.allows symbol = true := by assumption
    have paid := credit_enter errandsOf allowed
    simp only [List.length_append, List.length_cons]
    omega
  · simp

namespace Grammar

section First

/-- No rule is empty, so only the first symbol of a right-hand side matters. -/
def firstErrand (grammar : Grammar) (symbol : Symbol) : Errand :=
  if grammar.isNonterminal symbol then .visit symbol else .report [symbol]

def firstErrandsOf (grammar : Grammar) (lhs : Symbol) : List Errand :=
  (grammar.rulesFor lhs).flatMap fun rule => (rule.rhs.take 1).map grammar.firstErrand

/-- This search shares the guard that it is given and returns the guard that is left. -/
def firstGuarded (grammar : Grammar) (symbol : Symbol) (guard : Guard) :
    OrderedSet Symbol × Guard :=
  let result := explore grammar.firstErrandsOf guard [grammar.firstErrand symbol]
  (.ofList result.1, result.2)

def first (grammar : Grammar) (symbol : Symbol) : OrderedSet Symbol :=
  (grammar.firstGuarded symbol (.fresh grammar.vocabulary.size)).1

/-- The list holds one set for each symbol of the vocabulary. -/
def firstSets (grammar : Grammar) : List (OrderedSet Symbol) :=
  grammar.vocabulary.symbols.map grammar.first

end First

section Follow

/--
Each occurrence of the symbol in a right-hand side is followed by FIRST of the next symbol, or at
the end by whatever follows the left-hand side.
-/
def occurrenceErrands (grammar : Grammar) (symbol lhs : Symbol) : List Symbol → List Errand
  | [] => []
  | occurring :: rest =>
      let later := grammar.occurrenceErrands symbol lhs rest
      if occurring = symbol then
        match rest with
        | [] => .visit lhs :: later
        | next :: _ => .report (grammar.first next).toList :: later
      else later

/-- The end of the input follows the added start symbol. -/
def followErrandsOf (grammar : Grammar) (symbol : Symbol) : List Errand :=
  (if symbol = 0 then [.report [grammar.endMarker]] else []) ++
    grammar.rules.flatMap fun rule => grammar.occurrenceErrands symbol rule.lhs rule.rhs

/-- This search shares the guard that it is given and returns the guard that is left. -/
def followGuarded (grammar : Grammar) (symbol : Symbol) (guard : Guard) :
    OrderedSet Symbol × Guard :=
  let result := explore grammar.followErrandsOf guard [.visit symbol]
  (.ofList result.1, result.2)

def follow (grammar : Grammar) (symbol : Symbol) : OrderedSet Symbol :=
  (grammar.followGuarded symbol (.fresh grammar.vocabulary.size)).1

/-- The list holds one set for each nonterminal. -/
def followSets (grammar : Grammar) : List (OrderedSet Symbol) :=
  grammar.vocabulary.nonterminals.map grammar.follow

end Follow

end Grammar

end ShiftReduce
