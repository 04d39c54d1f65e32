/-
This file shows that a listing of tidy lines is read line by line as it was written.
-/

import Mathlib.Data.List.DropRight
import Mathlib.Tactic.MkIffOfInductiveProp
import Mathlib.Tactic.SplitIfs
import ShiftReduce.Listing
import ShiftReduce.Proofs.Text.Words

namespace ShiftReduce

namespace Text

/-- A tidy text fits on one line and does not end in a blank. -/
@[mk_iff]
structure IsTidy (text : List Char) : Prop where
  unbroken : '\n' ∉ text
  ended : ∀ character ∈ text.getLast?, isBlank character = false

instance (text : List Char) : Decidable (IsTidy text) :=
  decidable_of_iff ('\n' ∉ text ∧ text.getLast?.all (fun character => !isBlank character) = true)
    (by simp [isTidy_iff, Option.all_eq_true])

variable {text rest gap : List Char}

section Ends

theorem trimEnd_append_gap (blank : IsGap gap) : trimEnd (text ++ gap) = trimEnd text := by
  rw [trimEnd, List.reverse_append, List.dropWhile_append_of_pos]
  · rfl
  · exact fun character inside => blank character (List.mem_reverse.1 inside)

/-- Only a gap is cut off. -/
theorem exists_gap (text : List Char) : ∃ gap, IsGap gap ∧ text = trimEnd text ++ gap :=
  ⟨text.rtakeWhile isBlank, fun _ => List.mem_rtakeWhile_imp,
    List.rdropWhile_append_rtakeWhile.symm⟩

theorem isTidy_trimEnd (unbroken : '\n' ∉ text) : IsTidy (trimEnd text) where
  unbroken inside := unbroken ((List.rdropWhile_prefix isBlank text).subset inside)
  ended character last := by
    have visible : trimEnd text ≠ [] := fun empty => by simp [empty] at last
    rw [Option.mem_def, List.getLast?_eq_some_getLast visible, Option.some.injEq] at last
    rw [← last, ← Bool.not_eq_true]
    exact List.rdropWhile_last_not isBlank text visible

theorem IsTidy.trimEnd_eq (tidy : IsTidy text) : trimEnd text = text := by
  apply List.rdropWhile_eq_self_iff.2
  intro visible
  simpa using tidy.ended _ (List.getLast?_eq_some_getLast visible)

end Ends

section Quotes

/-- No number is written with a newline, whatever its base. -/
theorem newline_not_mem_toDigits {base : Nat} (large : 1 < base) (number : Nat) :
    '\n' ∉ Nat.toDigits base number := by
  have apart (digit : Nat) : '\n' ≠ digit.digitChar := (Nat.digitChar_ne '\n' (by decide)).symm
  induction number using Nat.strongRecOn with
  | ind number ih =>
      rw [Nat.toDigits_eq_if large]
      split_ifs with single
      · simp [apart]
      · have smaller : number / base < number := Nat.div_lt_self (by omega) large
        simp [apart, ih _ smaller]

theorem newline_not_mem_escape (character : Char) : '\n' ∉ escape character := by
  rw [escape]
  split_ifs with _ _ _ _ newline _ hidden
  case neg => simpa using Ne.symm newline
  any_goals decide
  simp [codePointEscape, newline_not_mem_toDigits]

theorem newline_not_mem_quoted (text : String) : '\n' ∉ (quoted text).toList := by
  simp [quoted, newline_not_mem_escape]

end Quotes

section Tidy

theorem isTidy_nil : IsTidy [] := ⟨List.not_mem_nil, by simp⟩

/-- What stands in front of a tidy text need not end visibly. -/
theorem IsTidy.append (tidy : IsTidy text) (visible : text ≠ []) (unbroken : '\n' ∉ rest) :
    IsTidy (rest ++ text) where
  unbroken inside := (List.mem_append.1 inside).elim unbroken tidy.unbroken
  ended := by
    rw [List.getLast?_append_of_ne_nil rest visible]
    exact tidy.ended

theorem isTidy_append {first second : String} (unbroken : '\n' ∉ first.toList)
    (tidy : IsTidy second.toList) (visible : second ≠ "") :
    IsTidy (first ++ second).toList ∧ first ++ second ≠ "" := by
  rw [String.toList_append]
  refine ⟨tidy.append (by simpa using visible) unbroken, fun hidden => ?_⟩
  exact visible (String.append_eq_empty_iff.1 hidden).2

theorem IsWord.isTidy {word : String} (isWord : IsWord word) : IsTidy word.toList where
  unbroken inside := by
    have visible := isWord.2 _ inside
    revert visible
    decide
  ended character last := isWord.2 character (List.mem_of_getLast? last)

theorem forall_mem_intercalate {α : Type} {property : α → Prop} {separator : List α}
    {pieces : List (List α)} (apart : ∀ element ∈ separator, property element)
    (each : ∀ piece ∈ pieces, ∀ element ∈ piece, property element) :
    ∀ element ∈ separator.intercalate pieces, property element := by
  induction pieces with
  | nil => simp
  | cons first rest ih =>
      obtain ⟨here, behind⟩ := List.forall_mem_cons.1 each
      cases rest with
      | nil => rwa [List.intercalate_singleton]
      | cons second rest =>
          rw [List.intercalate_cons_cons, List.forall_mem_append, List.forall_mem_append]
          exact ⟨⟨here, apart⟩, ih behind⟩

theorem not_mem_intercalate {character : Char} {separator : List Char} {pieces : List (List Char)}
    (apart : character ∉ separator) (absent : ∀ piece ∈ pieces, character ∉ piece) :
    character ∉ separator.intercalate pieces := by
  have other : ∀ element ∈ separator.intercalate pieces, element ≠ character := by
    apply forall_mem_intercalate
    · exact fun element listed same => apart (same ▸ listed)
    · exact fun piece listed element member same => absent piece listed (same ▸ member)
  exact fun inside => other character inside rfl

theorem prefix_intercalate (separator first : List Char) (rest : List (List Char)) :
    first <+: separator.intercalate (first :: rest) := by
  cases rest with
  | nil => simp
  | cons second rest =>
      rw [List.intercalate_cons_cons, List.append_assoc]
      exact List.prefix_append _ _

theorem isTidy_intercalate {separator : String} {words : List String}
    (unbroken : '\n' ∉ separator.toList) (each : ∀ word ∈ words, IsWord word) :
    IsTidy (separator.intercalate words).toList := by
  rw [String.toList_intercalate]
  induction words with
  | nil => exact isTidy_nil
  | cons word others ih =>
      obtain ⟨isWord, behind⟩ := List.forall_mem_cons.1 each
      cases others with
      | nil =>
          rw [List.map_singleton, List.intercalate_singleton]
          exact isWord.isTidy
      | cons second others =>
          have visible := (behind second List.mem_cons_self).toList_ne_nil
          rw [List.map_cons, List.map_cons, List.intercalate_cons_cons]
          exact (ih behind).append ((prefix_intercalate _ _ _).ne_nil visible)
            (by simp [isWord.isTidy.unbroken, unbroken])

/-- Words are spaced tidily. -/
theorem isTidy_spaced {words : List String} (each : ∀ word ∈ words, IsWord word) :
    IsTidy (" ".intercalate words).toList :=
  isTidy_intercalate (by decide) each

end Tidy

section Lines

theorem pieces_ne_nil (separates : Char → Bool) (text : List Char) :
    pieces separates text ≠ [] := by
  induction text with
  | nil => simp [pieces]
  | cons first others ih =>
      rw [pieces]
      split
      · simp
      · split <;> simp

/-- A newline ends a tidy line, and no carriage return is dropped from it. -/
theorem lines_tidy_append (tidy : IsTidy text) :
    lines (text ++ '\n' :: rest) = text :: lines rest := by
  have solid : ∀ character ∈ text, (character == '\n') = false := by
    intro character inside
    exact beq_eq_false_iff_ne.2 fun same => tidy.unbroken (same ▸ inside)
  have kept : dropReturn text = text := by
    refine if_neg fun last => ?_
    have visible := tidy.ended _ last
    revert visible
    decide
  obtain ⟨first, others, found⟩ := List.exists_cons_of_ne_nil (pieces_ne_nil (· == '\n') rest)
  rw [lines, lines, pieces_append_cons solid (beq_self_eq_true _), found]
  simp [kept]

end Lines

end Text

namespace Listing

theorem text_cons (line : String) (others : List String) :
    text (line :: others) = line ++ "\n" ++ text others := by
  rw [text, List.map_cons, String.join_cons, text]

theorem text_append (shown others : List String) :
    text (shown ++ others) = text shown ++ text others := by
  rw [text, List.map_append, String.join_append, text, text]

theorem toList_text_cons (line : String) (others : List String) :
    (text (line :: others)).toList = line.toList ++ '\n' :: (text others).toList := by
  simp [text_cons]

/-- The lines that are written first are read first. -/
theorem lines_text_append {shown : List String} (tidy : ∀ line ∈ shown, Text.IsTidy line.toList)
    (others : List String) : Text.lines (text (shown ++ others)).toList =
      shown.map String.toList ++ Text.lines (text others).toList := by
  induction shown with
  | nil => rfl
  | cons line shown ih =>
      obtain ⟨here, behind⟩ := List.forall_mem_cons.1 tidy
      rw [List.cons_append, toList_text_cons, Text.lines_tidy_append here, ih behind]
      rfl

theorem lines_text {shown : List String} (tidy : ∀ line ∈ shown, Text.IsTidy line.toList) :
    Text.lines (text shown).toList = shown.map String.toList := by
  have read := lines_text_append tidy []
  rw [List.append_nil] at read
  exact read.trans (List.append_nil _)

end Listing

end ShiftReduce
