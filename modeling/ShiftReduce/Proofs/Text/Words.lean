/-
This file shows how a text is cut into words and that words joined by spaces are cut apart again.
-/

import ShiftReduce.Text.Words

namespace ShiftReduce.Text

variable {separates : Char → Bool} {piece rest : List Char}

theorem pieces_of_unseparated (solid : ∀ character ∈ piece, separates character = false) :
    pieces separates piece = [piece] := by
  induction piece with
  | nil => rfl
  | cons first others ih =>
      have behind := ih fun character inside => solid character (List.mem_cons_of_mem _ inside)
      rw [pieces, solid first List.mem_cons_self, behind]
      rfl

theorem pieces_append_cons (solid : ∀ character ∈ piece, separates character = false)
    {separator : Char} (splits : separates separator = true) :
    pieces separates (piece ++ separator :: rest) = piece :: pieces separates rest := by
  induction piece with
  | nil => rw [List.nil_append, pieces, if_pos splits]
  | cons first others ih =>
      have behind := ih fun character inside => solid character (List.mem_cons_of_mem _ inside)
      rw [List.cons_append, pieces, solid first List.mem_cons_self, behind]
      rfl

theorem isBlank_space : isBlank ' ' = true := by decide

/-- A gap holds blanks only, and it may be empty. -/
def IsGap (gap : List Char) : Prop :=
  ∀ character ∈ gap, isBlank character = true

variable {gap : List Char} {word : String} {words : List String}

instance (word : String) : Decidable (IsWord word) :=
  decidable_of_iff ((word != "" && word.toList.all fun character => !isBlank character) = true)
    (by simp [IsWord])

theorem IsWord.toList_ne_nil (isWord : IsWord word) : word.toList ≠ [] :=
  fun empty => isWord.1 (String.toList_eq_nil_iff.1 empty)

theorem IsWord.append {other : String} (isWord : IsWord word) (solid : IsWord other) :
    IsWord (word ++ other) := by
  constructor
  · intro hidden
    have hidden := congrArg String.toList hidden
    rw [String.toList_append] at hidden
    exact isWord.toList_ne_nil (List.append_eq_nil_iff.1 hidden).1
  · intro character inside
    rw [String.toList_append, List.mem_append] at inside
    exact inside.elim (isWord.2 character) (solid.2 character)

theorem isBlank_of_isDigit {character : Char} (digit : character.isDigit = true) :
    isBlank character = false := by
  have bounds : 48 ≤ character.toNat ∧ character.toNat ≤ 57 := by
    simpa [Char.isDigit, UInt32.le_iff_toNat_le] using digit
  simp [isBlank]
  omega

theorem isDigit_of_mem_toString {number : Nat} {character : Char}
    (inside : character ∈ (toString number).toList) : character.isDigit = true := by
  rw [Nat.toString_eq_ofList_toDigits, String.toList_ofList] at inside
  exact Nat.isDigit_of_mem_toDigits (by decide) (by decide) inside

/-- A number is written as one word. -/
theorem isWord_toString (number : Nat) : IsWord (toString number) :=
  ⟨Nat.repr_ne_empty, fun _ inside => isBlank_of_isDigit (isDigit_of_mem_toString inside)⟩

theorem wordStrings_gap_append (blank : IsGap gap) :
    wordStrings (gap ++ rest) = wordStrings rest := by
  induction gap with
  | nil => rfl
  | cons first others ih =>
      obtain ⟨here, behind⟩ := List.forall_mem_cons.1 blank
      rw [List.cons_append, wordStrings, Text.words, pieces, if_pos here]
      exact ih behind

/-- A word ends where a blank stands behind it or where the text ends. -/
theorem wordStrings_word_append (isWord : IsWord word)
    (apart : ∀ character ∈ rest.head?, isBlank character = true) :
    wordStrings (word.toList ++ rest) = word :: wordStrings rest := by
  have visible := isWord.toList_ne_nil
  cases rest with
  | nil =>
      rw [List.append_nil, wordStrings, Text.words, pieces_of_unseparated isWord.2]
      simp [visible, wordStrings, Text.words, pieces]
  | cons separator rest =>
      have splits := apart separator rfl
      have gap : IsGap [separator] := List.forall_mem_singleton.2 splits
      have skipped : wordStrings (separator :: rest) = wordStrings rest :=
        wordStrings_gap_append gap
      rw [skipped, wordStrings, Text.words, pieces_append_cons isWord.2 splits,
        List.filter_cons_of_pos (by simp [visible]), List.map_cons, String.ofList_toList]
      rfl

/-- The words of joined words are the words themselves. -/
theorem wordStrings_intercalate (each : ∀ word ∈ words, IsWord word) :
    wordStrings (" ".intercalate words).toList = words := by
  rw [String.toList_intercalate]
  induction words with
  | nil => rfl
  | cons word others ih =>
      obtain ⟨isWord, behind⟩ := List.forall_mem_cons.1 each
      cases others with
      | nil =>
          rw [List.map_singleton, List.intercalate_singleton, ← List.append_nil word.toList]
          exact wordStrings_word_append isWord (by simp)
      | cons second others =>
          rw [List.map_cons, List.map_cons, List.intercalate_cons_cons, List.append_assoc,
            wordStrings_word_append isWord (by simp [isBlank_space]),
            wordStrings_gap_append (by simp [IsGap, isBlank_space])]
          exact congrArg (word :: ·) (ih behind)

end ShiftReduce.Text
