/-
This file shows that different actions and different conflicts have different texts.
-/

import Mathlib
import ShiftReduce.Proofs.Listing.Lines
import ShiftReduce.Proofs.Table.Merging

namespace ShiftReduce

namespace Text

/-- Each comma ends a piece, and the space behind it begins the next one. -/
theorem pieces_joined {first : List Char} {rest : List (List Char)}
    (solid : ∀ piece ∈ first :: rest, ',' ∉ piece) :
    pieces (· == ',') (", ".toList.intercalate (first :: rest)) = first :: rest.map (' ' :: ·) := by
  have uncut {piece : List Char} (absent : ',' ∉ piece) :
      ∀ character ∈ piece, (character == ',') = false := fun character inside =>
    beq_eq_false_iff_ne.2 fun same => absent (same ▸ inside)
  induction rest generalizing first with
  | nil =>
      rw [List.intercalate_singleton]
      exact pieces_of_unseparated (uncut (solid first List.mem_cons_self))
  | cons second rest ih =>
      obtain ⟨here, there, behind⟩ := by simpa only [List.forall_mem_cons] using solid
      have spaced : ∀ piece ∈ (' ' :: second) :: rest, ',' ∉ piece := by
        simpa [there] using behind
      have next := ih spaced
      rw [List.intercalate_cons_cons_left] at next
      rw [List.intercalate_cons_cons, List.append_assoc]
      change pieces _ (first ++ ',' :: ' ' :: ", ".toList.intercalate (second :: rest)) = _
      rw [pieces_append_cons (uncut here) (by decide), next]
      rfl

variable {texts others : List String}

theorem joined_eq_empty_iff (visible : ∀ text ∈ texts, text ≠ "") :
    ", ".intercalate texts = "" ↔ texts = [] := by
  cases texts with
  | nil => simp
  | cons text rest =>
      have shown : text.toList ≠ [] := by simpa using visible text List.mem_cons_self
      rw [← String.toList_inj, String.toList_intercalate, List.map_cons]
      simpa using (prefix_intercalate _ _ _).ne_nil shown

/-- Visible texts without commas are known when they are joined by commas. -/
theorem joined_injective (visible : ∀ text ∈ texts, text ≠ "" ∧ ',' ∉ text.toList)
    (again : ∀ text ∈ others, text ≠ "" ∧ ',' ∉ text.toList)
    (same : ", ".intercalate texts = ", ".intercalate others) : texts = others := by
  have shown := joined_eq_empty_iff fun text listed => (visible text listed).1
  have seen := joined_eq_empty_iff fun text listed => (again text listed).1
  rw [same, seen] at shown
  cases texts with
  | nil => exact (shown.2 rfl).symm
  | cons first rest =>
      cases others with
      | nil => exact shown.1 rfl
      | cons second later =>
          have solid : ∀ piece ∈ first.toList :: rest.map String.toList, ',' ∉ piece := by
            simpa using fun text listed => (visible text listed).2
          have uncut : ∀ piece ∈ second.toList :: later.map String.toList, ',' ∉ piece := by
            simpa using fun text listed => (again text listed).2
          have cut := congrArg (fun text => pieces (· == ',') text.toList) same
          simp only [String.toList_intercalate, List.map_cons] at cut
          rw [pieces_joined solid, pieces_joined uncut, List.cons.injEq,
            List.map_inj_right fun _ _ => List.cons_inj_right _ |>.1,
            List.map_inj_right fun _ _ => String.toList_inj.1, String.toList_inj] at cut
          rw [cut.1, cut.2]

end Text

namespace Action

variable {action other : Action} {actions others : List Action}

/-- The letters of the actions are no blanks, no commas and no digits. -/
theorem letter_apart : ∀ letter ∈ ['s', 'r', 'A'],
    Text.isBlank letter = false ∧ ',' ≠ letter ∧ letter.isDigit = false := by
  simp only [List.forall_mem_cons]
  exact ⟨by decide, by decide, by decide, List.forall_mem_nil _⟩

/-- An action that is no conflict is written as a letter with digits behind it. -/
theorem toList_text (plain : action.isConflict = false) : ∃ letter digits,
    action.text.toList = letter :: digits ∧ letter ∈ ['s', 'r', 'A'] ∧
      ∀ digit ∈ digits, digit.isDigit = true := by
  have digits (number : Nat) : ∀ digit ∈ (toString number).toList, digit.isDigit = true :=
    fun _ => Text.isDigit_of_mem_toString
  cases action with
  | shift state => exact ⟨'s', _, String.toList_append, by decide, digits state⟩
  | reduce rule => exact ⟨'r', _, String.toList_append, by decide, digits rule⟩
  | accept => exact ⟨'A', [], rfl, by decide, by simp⟩
  | conflict actions => cases plain

theorem isWord_text (plain : action.isConflict = false) : Text.IsWord action.text := by
  obtain ⟨letter, digits, shown, listed, numeric⟩ := toList_text plain
  refine ⟨fun hidden => by simp [hidden] at shown, ?_⟩
  rw [shown, List.forall_mem_cons]
  refine ⟨(letter_apart letter listed).1, fun digit inside => ?_⟩
  exact Text.isBlank_of_isDigit (numeric digit inside)

theorem text_injective (plain : action.isConflict = false) (single : other.isConflict = false)
    (same : action.text = other.text) : action = other := by
  have letters := congrArg String.toList same
  have numbers {letter : String} {number next : Nat}
      (same : letter ++ toString number = letter ++ toString next) : number = next :=
    Nat.repr_inj.1 ((String.append_right_inj letter).1 same)
  cases action with
  | shift state =>
      cases other with
      | shift next => exact congrArg shift (numbers same)
      | reduce _ | accept => simp [text] at letters
      | conflict _ => cases single
  | reduce rule =>
      cases other with
      | reduce next => exact congrArg reduce (numbers same)
      | shift _ | accept => simp [text] at letters
      | conflict _ => cases single
  | accept =>
      cases other with
      | accept => rfl
      | shift _ | reduce _ => simp [text] at letters
      | conflict _ => cases single
  | conflict actions => cases plain

/-- Several actions are written behind each other, with commas between them. -/
def joinedTexts (actions : List Action) : String :=
  ", ".intercalate (actions.map text)

theorem text_of_cellOf (filled : cellOf actions = some action) :
    action.text = joinedTexts actions := by
  rcases cases_of_cellOf filled with rfl | ⟨_, rfl⟩
  · simp [joinedTexts]
  · rw [text, texts_eq_map, joinedTexts]

section Joined

variable (plain : ∀ action ∈ actions, action.isConflict = false)

include plain

theorem visible_texts : ∀ shown ∈ actions.map text, shown ≠ "" ∧ ',' ∉ shown.toList := by
  intro shown listed
  obtain ⟨action, inside, rfl⟩ := List.mem_map.1 listed
  obtain ⟨letter, digits, spelled, first, numeric⟩ := toList_text (plain action inside)
  refine ⟨(isWord_text (plain action inside)).1, fun comma => ?_⟩
  rw [spelled] at comma
  rcases List.mem_cons.1 comma with same | later
  · exact (letter_apart letter first).2.1 same
  · cases numeric _ later

theorem joinedTexts_eq_empty_iff : joinedTexts actions = "" ↔ actions = [] := by
  rw [joinedTexts, Text.joined_eq_empty_iff fun text listed => (visible_texts plain text listed).1,
    List.map_eq_nil_iff]

theorem isTidy_joinedTexts : Text.IsTidy (joinedTexts actions).toList := by
  apply Text.isTidy_intercalate (by decide)
  intro word listed
  obtain ⟨action, inside, rfl⟩ := List.mem_map.1 listed
  exact isWord_text (plain action inside)

/-- The joined texts begin with a letter and not with a digit. -/
theorem joinedTexts_ne_toString (number : Nat) : joinedTexts actions ≠ toString number := by
  intro same
  cases actions with
  | nil => exact (Text.isWord_toString number).1 same.symm
  | cons first rest =>
      obtain ⟨letter, digits, spelled, listed, _⟩ := toList_text (plain first List.mem_cons_self)
      have inside : letter ∈ (toString number).toList := by
        rw [← same, joinedTexts, String.toList_intercalate, List.map_cons, List.map_cons]
        apply (Text.prefix_intercalate _ _ _).subset
        rw [spelled]
        exact List.mem_cons_self
      have numeric := Text.isDigit_of_mem_toString inside
      rw [(letter_apart letter listed).2.2] at numeric
      cases numeric

theorem joinedTexts_injective (single : ∀ action ∈ others, action.isConflict = false)
    (same : joinedTexts actions = joinedTexts others) : actions = others := by
  have texts := Text.joined_injective (visible_texts plain) (visible_texts single) same
  clear same
  induction actions generalizing others with
  | nil => exact (List.map_eq_nil_iff.1 texts.symm).symm
  | cons first rest ih =>
      cases others with
      | nil => cases texts
      | cons second later =>
          rw [List.forall_mem_cons] at plain single
          obtain ⟨here, behind⟩ := List.cons.inj texts
          rw [text_injective plain.1 single.1 here, ih plain.2 single.2 behind]

end Joined

end Action

end ShiftReduce
