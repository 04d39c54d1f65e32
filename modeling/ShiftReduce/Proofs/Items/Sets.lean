/-
This file tells a set of items from the operations that made it. The members alone decide which
state a set is.
-/

import Mathlib.Data.List.Basic
import Mathlib.Data.List.Induction
import ShiftReduce.Items.Collection

namespace ShiftReduce

namespace OrderedSet

/-- A set is made without elements, from a list that may repeat some, or by one more insertion. -/
inductive Operation (α : Type)
  | new
  | collect (elements : List α)
  | insert (element : α)

variable {α : Type} [DecidableEq α]

def perform (set : OrderedSet α) : Operation α → OrderedSet α
  | .new => empty
  | .collect elements => ofList elements
  | .insert element => (set.insertNew element).2

def after (operations : List (Operation α)) : OrderedSet α :=
  operations.foldl perform empty

/-- What was offered to an earlier set does not count. -/
def offer (offers : List α) : Operation α → List α
  | .new => []
  | .collect elements => elements
  | .insert element => offers ++ [element]

/-- These elements were offered to the set, with their repetitions. -/
def offered (operations : List (Operation α)) : List α :=
  operations.foldl offer []

/-- A set holds each offered element once, in the order in which they were offered first. -/
structure Collects (set : OrderedSet α) (offers : List α) : Prop where
  members : ∀ element, element ∈ set ↔ element ∈ offers
  ordered : set.toList.Pairwise fun earlier later => offers.idxOf earlier < offers.idxOf later

variable {set : OrderedSet α} {offers : List α}

theorem collects_empty : (empty : OrderedSet α).Collects [] where
  members _ := Iff.rfl
  ordered := List.Pairwise.nil

/-- Each element has one first offer only. -/
theorem Collects.nodup (collects : set.Collects offers) : set.toList.Nodup := by
  apply collects.ordered.imp
  rintro first second before rfl
  exact Nat.lt_irrefl _ before

/-- Another offer moves no earlier first offer. -/
theorem Collects.insert (collects : set.Collects offers) (element : α) :
    (set.insert element).Collects (offers ++ [element]) where
  members candidate := by
    rw [mem_insert, collects.members, List.mem_append, List.mem_singleton]
  ordered := by
    have earlier {candidate : α} (member : candidate ∈ set.toList) :
        (offers ++ [element]).idxOf candidate = offers.idxOf candidate :=
      List.idxOf_append_of_mem ((collects.members candidate).1 member)
    have kept : set.toList.Pairwise fun first second =>
        (offers ++ [element]).idxOf first < (offers ++ [element]).idxOf second := by
      apply collects.ordered.imp_of_mem
      intro first second firstMember secondMember before
      rwa [earlier firstMember, earlier secondMember]
    by_cases present : element ∈ set
    · rwa [insert_of_mem present]
    · -- A new element was first offered just now.
      rw [toList_insert_of_not_mem present, List.pairwise_append]
      refine ⟨kept, List.pairwise_singleton _ _, fun candidate member last added => ?_⟩
      rw [List.mem_singleton.1 added, earlier member,
        List.idxOf_append_of_notMem (mt (collects.members element).2 present)]
      exact Nat.lt_add_right _ (List.idxOf_lt_length_iff.2 ((collects.members candidate).1 member))

theorem Collects.insertAll (collects : set.Collects offers) (elements : List α) :
    (set.insertAll elements).Collects (offers ++ elements) := by
  induction elements generalizing set offers with
  | nil => rwa [List.append_nil]
  | cons element rest ih =>
      rw [List.append_cons]
      exact ih (collects.insert element)

theorem collects_ofList (elements : List α) : (ofList elements).Collects elements :=
  collects_empty.insertAll elements

theorem Collects.perform (collects : set.Collects offers) (operation : Operation α) :
    (set.perform operation).Collects (offer offers operation) := by
  cases operation with
  | new => exact collects_empty
  | collect elements => exact collects_ofList elements
  | insert element => exact collects.insert element

theorem collects_after (operations : List (Operation α)) :
    (after operations).Collects (offered operations) := by
  induction operations using List.reverseRecOn with
  | nil => exact collects_empty
  | append_singleton operations last ih =>
      rw [after, offered, List.foldl_concat, List.foldl_concat]
      exact ih.perform last

/-- Only one inclusion is tested, and the equality is symmetric all the same. -/
theorem equivalence_beq :
    Equivalence fun first second : OrderedSet α => (first == second) = true where
  refl _ := beq_eq_true.2 fun _ => Iff.rfl
  symm same := beq_eq_true.2 fun element => (beq_eq_true.1 same element).symm
  trans same again :=
    beq_eq_true.2 fun element => (beq_eq_true.1 same element).trans (beq_eq_true.1 again element)

end OrderedSet

open OrderedSet

/--
A set of items holds what was offered to it once, in the order of the first offers. An insertion
answers whether the item is new, and a known item changes nothing. Two sets are equal exactly when
they have the same members, so equality is an equivalence relation, and the order of the items has
no influence on the state that is found.
-/
theorem ItemSet.known_by_members :
    (∀ operations : List (Operation Item),
      (after operations).toList.Nodup ∧ (after operations).Collects (offered operations) ∧
      ∀ item,
        (((after operations).insertNew item).1 = true ↔ item ∉ after operations) ∧
        (item ∈ after operations → (after operations).insertNew item = (false, after operations))) ∧
    (∀ operations others : List (Operation Item),
      (after operations == after others) = true ↔
        ∀ item, item ∈ after operations ↔ item ∈ after others) ∧
    (Equivalence fun first second : ItemSet => (first == second) = true) ∧
    ∀ (collection : Collection) (target reordered : ItemSet),
      reordered.toList.Perm target.toList → collection.find reordered = collection.find target := by
  refine ⟨fun operations => ?_, fun operations others => beq_eq_true, equivalence_beq,
    fun collection target reordered same => ?_⟩
  · have collects := collects_after operations
    exact ⟨collects.nodup, collects, fun item => ⟨insertNew_fst, insertNew_of_mem⟩⟩
  · exact Collection.find_congr fun item => same.mem_iff

/-- One set was made at once, and the other one by insertions that come in another order. -/
theorem ItemSet.known_by_members_reordered :
    let target : ItemSet := after [.insert ⟨4, 2⟩, .collect [⟨0, 0⟩, ⟨1, 0⟩, ⟨0, 0⟩]]
    let reordered : ItemSet := after [.new, .insert ⟨1, 0⟩, .insert ⟨0, 0⟩, .insert ⟨1, 0⟩]
    reordered.toList.Perm target.toList ∧ reordered.toList ≠ target.toList ∧
      Collection.find ⟨[.ofList [⟨1, 0⟩], target]⟩ reordered = some 1 := by
  intro target reordered
  have same : reordered.toList.Perm target.toList := by decide
  exact ⟨same, by decide, (known_by_members.2.2.2 _ target reordered same).trans (by decide)⟩

end ShiftReduce
