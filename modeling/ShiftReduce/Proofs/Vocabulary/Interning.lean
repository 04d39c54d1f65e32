/-
This file tells which entries a vocabulary has after names were interned one after the other.
-/

import Mathlib.Data.List.Basic
import ShiftReduce.Vocabulary.Lemmas

namespace ShiftReduce.Vocabulary

variable {vocabulary other : Vocabulary}

/-- The entries alone make up a vocabulary. -/
theorem ext_entries (same : vocabulary.entries = other.entries) : vocabulary = other := by
  cases vocabulary
  cases other
  simp_all

theorem names_intern (vocabulary : Vocabulary) (name : String) (kind : SymbolKind) :
    (vocabulary.intern name kind).names =
      if name ∈ vocabulary.names then vocabulary.names else vocabulary.names ++ [name] := by
  rw [names, entries_intern]
  split <;> simp [names]

/-- The first occurrence of each new name adds an entry of the given kind. -/
theorem entries_foldl_intern (vocabulary : Vocabulary) (kind : SymbolKind) (added : List String) :
    (added.foldl (fun known name => known.intern name kind) vocabulary).entries =
      vocabulary.entries ++
        (added.removeAll vocabulary.names).eraseDups.map fun name => (name, kind) := by
  induction added generalizing vocabulary with
  | nil => simp
  | cons first rest ih =>
      rw [List.foldl_cons, ih, entries_intern, names_intern]
      by_cases known : first ∈ vocabulary.names
      · simp [known, List.removeAll]
      · -- A new name leaves the names behind it that differ from it.
        simp [known, List.removeAll, List.eraseDups_cons, List.filter_filter, beq_eq_decide,
          Bool.and_comm]

theorem entries_internTerminals (vocabulary : Vocabulary) (added : List String) :
    (vocabulary.internTerminals added).entries = vocabulary.entries ++
      (added.removeAll vocabulary.names).eraseDups.map fun name => (name, .terminal) :=
  entries_foldl_intern vocabulary .terminal added

/-- Only the first of all names becomes the start symbol. -/
theorem internNonterminals_eq_foldl (started : vocabulary.isEmpty = false) (added : List String) :
    vocabulary.internNonterminals added =
      added.foldl (fun known name => known.intern name .nonterminal) vocabulary := by
  induction added generalizing vocabulary with
  | nil => rfl
  | cons first rest ih =>
      have kept : (vocabulary.intern first .nonterminal).isEmpty = false := by
        rw [isEmpty, entries_intern]
        split
        · exact started
        · simp
      change (vocabulary.internNonterminal first).internNonterminals rest = _
      rw [internNonterminal, started, if_neg (by simp), ih kept, List.foldl_cons]

theorem entries_internNonterminals (first : String) (others : List String) :
    (empty.internNonterminals (first :: others)).entries = (first, .start) ::
      (others.removeAll [first]).eraseDups.map fun name => (name, .nonterminal) := by
  have started : (empty.internNonterminal first).isEmpty = false := rfl
  change ((empty.internNonterminal first).internNonterminals others).entries = _
  rw [internNonterminals_eq_foldl started, entries_foldl_intern]
  rfl

end ShiftReduce.Vocabulary
