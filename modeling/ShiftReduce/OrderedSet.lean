/-
This file defines finite sets that remember the order in which their elements came.
-/

namespace ShiftReduce

/-- The elements stand in the order of their first insertion. -/
structure OrderedSet (α : Type) where
  toList : List α
  nodup : toList.Nodup

namespace OrderedSet

variable {α : Type}

instance : Membership α (OrderedSet α) := ⟨fun set element => element ∈ set.toList⟩

theorem mem_toList {element : α} {set : OrderedSet α} :
    element ∈ set.toList ↔ element ∈ set := Iff.rfl

instance [DecidableEq α] (element : α) (set : OrderedSet α) : Decidable (element ∈ set) :=
  inferInstanceAs (Decidable (element ∈ set.toList))

def empty : OrderedSet α := ⟨[], List.nodup_nil⟩

def size (set : OrderedSet α) : Nat := set.toList.length

def isEmpty (set : OrderedSet α) : Bool := set.toList.isEmpty

variable [DecidableEq α]

def contains (set : OrderedSet α) (element : α) : Bool := decide (element ∈ set)

theorem contains_eq_true {set : OrderedSet α} {element : α} :
    set.contains element = true ↔ element ∈ set := decide_eq_true_iff

/-- A present element keeps its place, and a new one comes last. -/
def insert (set : OrderedSet α) (element : α) : OrderedSet α :=
  if absent : element ∈ set.toList then set
  else ⟨set.toList ++ [element], by
    rw [List.nodup_append]
    exact ⟨set.nodup, by simp, fun first member second last => by
      rw [List.mem_singleton.1 last]
      exact fun same => absent (same ▸ member)⟩⟩

/-- The answer tells whether the element was absent. -/
def insertNew (set : OrderedSet α) (element : α) : Bool × OrderedSet α :=
  (!set.contains element, set.insert element)

def insertAll (set : OrderedSet α) (elements : List α) : OrderedSet α :=
  elements.foldl insert set

def ofList (elements : List α) : OrderedSet α :=
  empty.insertAll elements

/-- Sets are equal when they have one size and each element of the first is in the second. -/
instance : BEq (OrderedSet α) :=
  ⟨fun first second => first.size == second.size && first.toList.all second.contains⟩

theorem mem_insert {set : OrderedSet α} {element candidate : α} :
    candidate ∈ set.insert element ↔ candidate ∈ set ∨ candidate = element := by
  unfold insert
  split
  · next member => exact ⟨Or.inl, fun either => either.elim id fun same => same ▸ member⟩
  · exact List.mem_append.trans (or_congr Iff.rfl List.mem_singleton)

theorem mem_insertAll {elements : List α} {set : OrderedSet α} {candidate : α} :
    candidate ∈ set.insertAll elements ↔ candidate ∈ set ∨ candidate ∈ elements := by
  induction elements generalizing set with
  | nil => simp [insertAll]
  | cons element rest inductionHypothesis =>
      rw [show set.insertAll (element :: rest) = (set.insert element).insertAll rest from rfl,
        inductionHypothesis, mem_insert, List.mem_cons, or_assoc]

theorem mem_ofList {elements : List α} {candidate : α} :
    candidate ∈ ofList elements ↔ candidate ∈ elements := by
  rw [ofList, mem_insertAll]
  exact ⟨fun either => either.elim (fun none => absurd none List.not_mem_nil) id, Or.inr⟩

theorem insert_of_mem {set : OrderedSet α} {element : α} (present : element ∈ set) :
    set.insert element = set := dif_pos present

theorem insertNew_fst {set : OrderedSet α} {element : α} :
    (set.insertNew element).1 = true ↔ element ∉ set := by
  rw [insertNew, Bool.not_eq_true', ← Bool.not_eq_true, contains_eq_true]

theorem insertNew_of_mem {set : OrderedSet α} {element : α} (present : element ∈ set) :
    set.insertNew element = (false, set) := by
  rw [insertNew, contains_eq_true.2 present, insert_of_mem present, Bool.not_true]

theorem toList_insert_of_not_mem {set : OrderedSet α} {element : α} (absent : element ∉ set) :
    (set.insert element).toList = set.toList ++ [element] :=
  congrArg toList (dif_neg absent)

/-- Elements that are present already add nothing. -/
theorem insertAll_of_subset {set : OrderedSet α} {elements : List α}
    (present : ∀ element ∈ elements, element ∈ set) : set.insertAll elements = set := by
  induction elements with
  | nil => rfl
  | cons element rest inductionHypothesis =>
      rw [List.forall_mem_cons] at present
      rw [show set.insertAll (element :: rest) = (set.insert element).insertAll rest from rfl,
        insert_of_mem present.1]
      exact inductionHypothesis present.2

theorem toList_prefix_insertAll (set : OrderedSet α) (elements : List α) :
    set.toList <+: (set.insertAll elements).toList := by
  induction elements generalizing set with
  | nil => exact List.prefix_refl _
  | cons element rest inductionHypothesis =>
      have later : (set.insert element).toList <+: (set.insertAll (element :: rest)).toList :=
        inductionHypothesis (set.insert element)
      by_cases present : element ∈ set
      · rw [insert_of_mem present] at later
        exact later
      · rw [toList_insert_of_not_mem present] at later
        exact (List.prefix_append _ _).trans later

theorem size_le_insertAll (set : OrderedSet α) (elements : List α) :
    set.size ≤ (set.insertAll elements).size :=
  (set.toList_prefix_insertAll elements).length_le

/-- Neither set repeats an element, so one inclusion and one size are enough. -/
theorem beq_eq_true {first second : OrderedSet α} :
    (first == second) = true ↔ ∀ element, element ∈ first ↔ element ∈ second := by
  have compared : (first == second) = true ↔
      first.toList.length = second.toList.length ∧ first.toList ⊆ second.toList := by
    change (first.size == second.size && first.toList.all second.contains) = true ↔ _
    rw [Bool.and_eq_true, beq_iff_eq, List.all_eq_true]
    exact and_congr Iff.rfl (forall₂_congr fun _ _ => contains_eq_true)
  rw [compared]
  constructor
  · rintro ⟨sizes, included⟩ element
    refine ⟨fun inside => included inside, fun inside => ?_⟩
    by_cases known : element ∈ first.toList
    · exact known
    · have distinct : (element :: first.toList).Nodup :=
        List.nodup_cons.2 ⟨known, first.nodup⟩
      have larger := distinct.length_le_of_subset (List.cons_subset.2 ⟨inside, included⟩)
      rw [List.length_cons, sizes] at larger
      exact absurd larger (Nat.not_succ_le_self _)
  · intro same
    have forward : first.toList ⊆ second.toList := fun element => (same element).1
    have backward : second.toList ⊆ first.toList := fun element => (same element).2
    exact ⟨Nat.le_antisymm (first.nodup.length_le_of_subset forward)
      (second.nodup.length_le_of_subset backward), forward⟩

end OrderedSet

end ShiftReduce
