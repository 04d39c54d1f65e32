/-
This file states which words a text spells and shows that these are the words of the text.
-/

import Mathlib.Data.List.TakeWhile
import ShiftReduce.Proofs.Text.Words

namespace ShiftReduce.Text

/--
A text spells words when it shows them in their order with blanks between them. More blanks may
stand in front of the first word and behind the last one.
-/
inductive Spells : List Char → List String → Prop
  | gap {gap : List Char} (blank : IsGap gap) : Spells gap []
  | word {front rest : List Char} {word : String} {words : List String} (blank : IsGap front)
      (isWord : IsWord word) (apart : ∀ character ∈ rest.head?, isBlank character = true)
      (behind : Spells rest words) : Spells (front ++ (word.toList ++ rest)) (word :: words)

variable {text : List Char} {words : List String}

theorem Spells.wordStrings_eq (spells : Spells text words) : wordStrings text = words := by
  induction spells with
  | @gap gap blank =>
      rw [← List.append_nil gap, wordStrings_gap_append blank]
      rfl
  | word blank isWord apart _ ih =>
      rw [wordStrings_gap_append blank, wordStrings_word_append isWord apart, ih]

/-- The characters up to the next blank are a word. -/
theorem isWord_takeWhile {first : Char} (visible : isBlank first = false) (later : List Char) :
    IsWord (String.ofList ((first :: later).takeWhile fun character => !isBlank character)) := by
  constructor
  · intro hidden
    have hidden := congrArg String.toList hidden
    rw [String.toList_ofList, List.takeWhile_cons_of_pos (by simp [visible])] at hidden
    cases hidden
  · intro character inside
    rw [String.toList_ofList] at inside
    simpa using List.mem_takeWhile_imp inside

theorem isBlank_behind_word (text : List Char) :
    ∀ character ∈ (text.dropWhile fun character => !isBlank character).head?,
      isBlank character = true := by
  intro character stops
  have blank := List.head?_dropWhile_not (fun character => !isBlank character) text
  rw [Option.mem_def.1 stops] at blank
  simpa using blank

/-- A text is a gap, or its first word stands between a gap and a shorter text. -/
theorem exists_spells (text : List Char) : ∃ words, Spells text words := by
  induction size : text.length using Nat.strongRecOn generalizing text with
  | ind count ih =>
      have blank : IsGap (text.takeWhile isBlank) := fun _ => List.mem_takeWhile_imp
      have body := List.takeWhile_append_dropWhile (p := isBlank) (l := text)
      cases found : text.dropWhile isBlank with
      | nil =>
          rw [found, List.append_nil] at body
          exact ⟨[], body ▸ .gap blank⟩
      | cons first later =>
          have visible : isBlank first = false := by
            simpa [found] using List.head?_dropWhile_not isBlank text
          have split := List.takeWhile_append_dropWhile
            (p := fun character => !isBlank character) (l := first :: later)
          have shorter : (later.dropWhile fun character => !isBlank character).length < count := by
            have inside := (List.dropWhile_sublist isBlank (l := text)).length_le
            have behind := (List.dropWhile_sublist
              (fun character => !isBlank character) (l := later)).length_le
            rw [found, List.length_cons] at inside
            omega
          obtain ⟨words, behind⟩ := ih _ shorter _ rfl
          rw [← List.dropWhile_cons_of_pos (a := first) (by simp [visible])] at behind
          have spells := Spells.word blank (isWord_takeWhile visible later)
            (isBlank_behind_word _) behind
          rw [String.toList_ofList, split, ← found, body] at spells
          exact ⟨_, spells⟩

/-- The words of a text are those that it spells, and there are no others. -/
theorem spells_iff : Spells text words ↔ wordStrings text = words := by
  constructor
  · exact Spells.wordStrings_eq
  · rintro rfl
    obtain ⟨words, spells⟩ := exists_spells text
    exact spells.wordStrings_eq ▸ spells

end ShiftReduce.Text
