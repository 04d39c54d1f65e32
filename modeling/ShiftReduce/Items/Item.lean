/-
This file defines the items that mark how much of a rule has been recognized.
-/

import ShiftReduce.Grammar.Basic
import ShiftReduce.OrderedSet

namespace ShiftReduce

/-- The dot counts the recognized symbols of the right-hand side. -/
structure Item where
  rule : Nat
  dot : Nat
deriving DecidableEq

/-- Items are ordered by rule and then by dot. -/
instance : Ord Item :=
  ⟨fun first second => (compare first.rule second.rule).then (compare first.dot second.dot)⟩

abbrev ItemSet := OrderedSet Item

/-- An item may name a rule that the grammar does not have. -/
structure UnknownRule where
  rule : Nat

namespace Grammar

/-- A dot beyond the end of the rule has no next symbol. -/
def nextSymbol (grammar : Grammar) (item : Item) : Option Symbol :=
  grammar.rules[item.rule]?.bind fun rule => rule.rhs[item.dot]?

/-- The dot of a complete item stands exactly behind the last symbol. -/
def isComplete (grammar : Grammar) (item : Item) : Bool :=
  grammar.rules[item.rule]?.any fun rule => item.dot == rule.rhs.length

/-- The first unknown rule is reported. -/
def checkItems (grammar : Grammar) (items : List Item) : Except UnknownRule Unit :=
  match items.find? fun item => grammar.rules.length ≤ item.rule with
  | none => .ok ()
  | some item => .error ⟨item.rule⟩

end Grammar

end ShiftReduce
