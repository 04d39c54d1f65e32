/-
This file shows that the canonical collection is closed under goto.
-/

import Mathlib.Data.Finset.Powerset
import ShiftReduce.Items.Collection
import ShiftReduce.Proofs.Items.Closure

namespace ShiftReduce

namespace Grammar

variable (grammar : Grammar)

/-- An item of the grammar names one of its rules and a place in it. -/
def IsItem (item : Item) : Prop :=
  ∃ rule, grammar.rules[item.rule]? = some rule ∧ item.dot ≤ rule.rhs.length

section Universe

variable {grammar} {items : ItemSet} {item : Item}

theorem isItem_closure (valid : ∀ item ∈ items, grammar.IsItem item)
    (member : item ∈ grammar.closure items) : grammar.IsItem item := by
  cases mem_closure.1 member with
  | seed inside => exact valid item inside
  | call _ calls =>
      obtain ⟨rule, found, _, start⟩ := mem_calledItems.1 calls
      exact ⟨rule, found, start ▸ Nat.zero_le _⟩

theorem isItem_startState (member : item ∈ grammar.startState) : grammar.IsItem item := by
  apply isItem_closure _ member
  intro first inside
  rw [OrderedSet.mem_ofList, List.mem_singleton] at inside
  subst inside
  exact ⟨_, grammar.rules_zero, Nat.zero_le _⟩

theorem isItem_goto {symbol : Symbol} (member : item ∈ grammar.goto items symbol) :
    grammar.IsItem item := by
  apply isItem_closure _ member
  intro moved inside
  obtain ⟨source, _, next, rfl⟩ := mem_advanced.1 inside
  obtain ⟨rule, found, read⟩ := exists_rule_of_nextSymbol next
  exact ⟨rule, found, (List.getElem?_eq_some_iff.1 read).1⟩

/-- This list holds each item of the rules, which are numbered from the given index on. -/
def itemsOf (start : Nat) (rules : List Rule) : List Item :=
  (rules.zipIdx start).flatMap fun numbered =>
    (List.range (numbered.1.rhs.length + 1)).map fun dot => ⟨numbered.2, dot⟩

theorem length_itemsOf (start : Nat) (rules : List Rule) :
    (itemsOf start rules).length =
      rules.foldr (fun rule count => rule.rhs.length + 1 + count) 0 := by
  induction rules generalizing start with
  | nil => rfl
  | cons rule rest ih =>
      have tail := ih (start + 1)
      rw [itemsOf] at tail ⊢
      rw [List.zipIdx_cons, List.flatMap_cons, List.length_append, tail]
      simp

theorem mem_itemsOf (valid : grammar.IsItem item) : item ∈ itemsOf 0 grammar.rules := by
  obtain ⟨rule, found, inside⟩ := valid
  refine List.mem_flatMap.2 ⟨(rule, item.rule), List.mk_mem_zipIdx_iff_getElem?.2 found, ?_⟩
  exact List.mem_map.2 ⟨item.dot, List.mem_range.2 (Nat.lt_succ_of_le inside), rfl⟩

/-- Distinct states are distinct sets of items, so there are no more of them than such sets. -/
theorem length_le_of_distinct {known : List ItemSet}
    (valid : ∀ items ∈ known, ∀ item ∈ items, grammar.IsItem item)
    (distinct : known.Pairwise fun first second => (first == second) = false) :
    known.length ≤ 2 ^ grammar.itemCount := by
  have separate : (known.map fun items => items.toList.toFinset).Nodup := by
    rw [List.Nodup, List.pairwise_map]
    apply distinct.imp
    intro first second different same
    rw [Bool.eq_false_iff] at different
    apply different
    rw [OrderedSet.beq_eq_true]
    intro element
    have both := Finset.ext_iff.1 same element
    rw [List.mem_toFinset, List.mem_toFinset] at both
    exact both
  have included : (known.map fun items => items.toList.toFinset).toFinset ⊆
      (itemsOf 0 grammar.rules).toFinset.powerset := by
    intro set listed
    obtain ⟨items, state, rfl⟩ := List.mem_map.1 (List.mem_toFinset.1 listed)
    rw [Finset.mem_powerset]
    intro item member
    exact List.mem_toFinset.2 (mem_itemsOf (valid items state item (List.mem_toFinset.1 member)))
  have counted := Finset.card_le_card included
  rw [List.toFinset_card_of_nodup separate, List.length_map, Finset.card_powerset] at counted
  apply counted.trans
  apply Nat.pow_le_pow_right (by decide)
  rw [itemCount, ← length_itemsOf 0]
  exact List.toFinset_card_le _

end Universe

section Growth

variable {grammar} {known : List ItemSet} {source : ItemSet}

theorem prefix_addTarget (symbol : Symbol) : known <+: grammar.addTarget source known symbol := by
  unfold addTarget
  dsimp only
  split
  · exact List.prefix_refl _
  · exact List.prefix_append _ _

theorem prefix_foldl_addTarget (symbols : List Symbol) :
    known <+: symbols.foldl (grammar.addTarget source) known := by
  induction symbols generalizing known with
  | nil => exact List.prefix_refl _
  | cons symbol rest ih => exact (prefix_addTarget symbol).trans ih

theorem prefix_addTargets : known <+: grammar.addTargets known source :=
  prefix_foldl_addTarget _

theorem prefix_collectFrom {fuel position : Nat} :
    known <+: grammar.collectFrom fuel position known := by
  induction fuel generalizing position known with
  | zero => exact List.prefix_refl _
  | succ fuel ih =>
      rw [collectFrom]
      split
      · exact List.prefix_refl _
      · exact prefix_addTargets.trans ih

/-- A set is new when it has a member and differs from each known state. -/
def IsNew (known : List ItemSet) (target : ItemSet) : Prop :=
  target.isEmpty = false ∧ ∀ items ∈ known, (items == target) = false

theorem addTarget_cases (grammar : Grammar) (known : List ItemSet) (source : ItemSet)
    (symbol : Symbol) : grammar.addTarget source known symbol = known ∨
    (IsNew known (grammar.goto source symbol) ∧
      grammar.addTarget source known symbol = known ++ [grammar.goto source symbol]) := by
  unfold addTarget
  dsimp only
  split
  · exact .inl rfl
  · next new => exact .inr ⟨by simpa [IsNew] using new, rfl⟩

/-- What each new target of a state keeps is kept by all of them. -/
theorem addTargets_induction {motive : List ItemSet → Prop} {position : Nat}
    (add : ∀ (more : List ItemSet) (symbol : Symbol), motive more →
      more[position]? = some source → symbol < grammar.endMarker →
      IsNew more (grammar.goto source symbol) → motive (more ++ [grammar.goto source symbol]))
    (found : known[position]? = some source) (start : motive known) :
    motive (grammar.addTargets known source) := by
  have inner : ∀ symbol ∈ List.range grammar.endMarker, symbol < grammar.endMarker := by simp
  rw [addTargets]
  generalize List.range grammar.endMarker = symbols at inner ⊢
  induction symbols generalizing known with
  | nil => exact start
  | cons symbol rest ih =>
      rw [List.forall_mem_cons] at inner
      rw [List.foldl_cons]
      rcases addTarget_cases grammar known source symbol with same | ⟨new, grown⟩
      · rw [same]
        exact ih found start inner.2
      · have inside := (List.getElem?_eq_some_iff.1 found).1
        rw [grown]
        apply ih
        · rw [List.getElem?_append_left inside, found]
        · exact add known symbol start found inner.1 new
        · exact inner.2

/-- What each new target keeps holds of the states when it holds at the start. -/
theorem collectFrom_induction {motive : List ItemSet → Prop}
    (add : ∀ (more : List ItemSet) (position : Nat) (source : ItemSet) (symbol : Symbol),
      motive more → more[position]? = some source → symbol < grammar.endMarker →
      IsNew more (grammar.goto source symbol) → motive (more ++ [grammar.goto source symbol]))
    {fuel position : Nat} (start : motive known) :
    motive (grammar.collectFrom fuel position known) := by
  induction fuel generalizing position known with
  | zero => exact start
  | succ fuel ih =>
      rw [collectFrom]
      split
      · exact start
      · next source found =>
          exact ih (addTargets_induction (fun more => add more position source) found start)

theorem isItem_addTargets {position : Nat} (found : known[position]? = some source)
    (valid : ∀ items ∈ known, ∀ item ∈ items, grammar.IsItem item) :
    ∀ items ∈ grammar.addTargets known source, ∀ item ∈ items, grammar.IsItem item := by
  apply addTargets_induction
    (motive := fun more => ∀ items ∈ more, ∀ item ∈ items, grammar.IsItem item) _ found valid
  intro more symbol holds _ _ _ items listed item member
  rcases List.mem_append.1 listed with old | new
  · exact holds items old item member
  · exact isItem_goto (List.mem_singleton.1 new ▸ member)

/-- A new set differs from each known state. -/
theorem distinct_concat {target : ItemSet}
    (distinct : known.Pairwise fun first second => (first == second) = false)
    (new : IsNew known target) :
    (known ++ [target]).Pairwise fun first second => (first == second) = false := by
  simpa [List.pairwise_append, distinct] using new.2

theorem distinct_addTargets {position : Nat} (found : known[position]? = some source)
    (distinct : known.Pairwise fun first second => (first == second) = false) :
    (grammar.addTargets known source).Pairwise fun first second => (first == second) = false :=
  addTargets_induction (fun _ _ holds _ _ new => distinct_concat holds new) found distinct

/-- A target is empty or already a state. -/
def HasTarget (known : List ItemSet) (source : ItemSet) (symbol : Symbol) : Prop :=
  (grammar.goto source symbol).isEmpty = true ∨
    ∃ items ∈ known, (items == grammar.goto source symbol) = true

theorem hasTarget_mono {more : List ItemSet} {symbol : Symbol} (grown : known <+: more)
    (target : grammar.HasTarget known source symbol) : grammar.HasTarget more source symbol :=
  target.imp id fun ⟨items, listed, same⟩ => ⟨items, grown.subset listed, same⟩

theorem hasTarget_addTarget (symbol : Symbol) :
    grammar.HasTarget (grammar.addTarget source known symbol) source symbol := by
  unfold addTarget
  dsimp only
  split
  · next old =>
      rw [Bool.or_eq_true, List.any_eq_true] at old
      exact old
  · refine .inr ⟨_, List.mem_append_right _ List.mem_cons_self, ?_⟩
    exact OrderedSet.beq_eq_true.2 fun _ => Iff.rfl

theorem hasTarget_addTargets {symbol : Symbol} (inside : symbol < grammar.endMarker) :
    grammar.HasTarget (grammar.addTargets known source) source symbol := by
  obtain ⟨front, back, split⟩ := List.append_of_mem (List.mem_range.2 inside)
  rw [addTargets, split, List.foldl_append, List.foldl_cons]
  exact hasTarget_mono (prefix_foldl_addTarget back) (hasTarget_addTarget symbol)

/-- Every target of a scanned state is among the known states. -/
def Scanned (position : Nat) (known : List ItemSet) : Prop :=
  ∀ source ∈ known.take position, ∀ symbol, symbol < grammar.endMarker →
    grammar.HasTarget known source symbol

theorem scanned_addTargets {position : Nat} (found : known[position]? = some source)
    (scanned : grammar.Scanned position known) :
    grammar.Scanned (position + 1) (grammar.addTargets known source) := by
  have inside := (List.getElem?_eq_some_iff.1 found).1
  have grown : known <+: grammar.addTargets known source := prefix_addTargets
  have taken : (grammar.addTargets known source).take (position + 1) =
      known.take position ++ [source] := by
    obtain ⟨added, grown⟩ := grown
    rw [← grown, List.take_append_of_le_length inside, List.take_add_one, found]
    rfl
  intro other listed symbol bound
  rw [taken] at listed
  rcases List.mem_append.1 listed with old | last
  · exact hasTarget_mono grown (scanned other old symbol bound)
  · rw [List.mem_singleton.1 last]
    exact hasTarget_addTargets bound

/-- The fuel outlasts the distinct sets of items, so the scan comes to its end. -/
theorem hasTarget_collectFrom (fuel : Nat) {position : Nat}
    (valid : ∀ items ∈ known, ∀ item ∈ items, grammar.IsItem item)
    (distinct : known.Pairwise fun first second => (first == second) = false)
    (enough : 2 ^ grammar.itemCount ≤ position + fuel)
    (scanned : grammar.Scanned position known) :
    ∀ source ∈ grammar.collectFrom fuel position known, ∀ symbol, symbol < grammar.endMarker →
      grammar.HasTarget (grammar.collectFrom fuel position known) source symbol := by
  induction fuel generalizing position known with
  | zero =>
      have bound := length_le_of_distinct valid distinct
      rw [collectFrom]
      rw [Scanned, List.take_of_length_le (by omega)] at scanned
      exact scanned
  | succ fuel ih =>
      rw [collectFrom]
      split
      · next done =>
          rw [Scanned, List.take_of_length_le (List.getElem?_eq_none_iff.1 done)] at scanned
          exact scanned
      · next source found =>
          apply ih
          · exact isItem_addTargets found valid
          · exact distinct_addTargets found distinct
          · omega
          · exact scanned_addTargets found scanned

end Growth

end Grammar

end ShiftReduce
