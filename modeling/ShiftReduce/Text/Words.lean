/-
This file trims a text and cuts it into lines and a line into words.
-/


namespace ShiftReduce.Text

/-- A blank is a character with the Unicode property White_Space. -/
def isBlank (character : Char) : Bool :=
  let code := character.toNat
  (0x9 ≤ code && code ≤ 0xD) || code == 0x20 || code == 0x85 || code == 0xA0 ||
    code == 0x1680 || (0x2000 ≤ code && code ≤ 0x200A) || code == 0x2028 || code == 0x2029 ||
    code == 0x202F || code == 0x205F || code == 0x3000

def trimStart (text : List Char) : List Char :=
  text.dropWhile isBlank

def trimEnd (text : List Char) : List Char :=
  (text.reverse.dropWhile isBlank).reverse

def trim (text : List Char) : List Char :=
  trimEnd (trimStart text)

/-- The pieces of a text are the runs between its separators, empty runs included. -/
def pieces (separates : Char → Bool) : List Char → List (List Char)
  | [] => [[]]
  | character :: rest =>
      if separates character then
        [] :: pieces separates rest
      else
        match pieces separates rest with
        | [] => [[character]]
        | piece :: others => (character :: piece) :: others

/-- The words of a text are its longest runs without a blank. -/
def words (text : List Char) : List (List Char) :=
  (pieces isBlank text).filter fun piece => !piece.isEmpty

/-- A line that a newline ends may carry one carriage return right before it. -/
def dropReturn (line : List Char) : List Char :=
  if line.getLast? = some '\r' then line.dropLast else line

/-- Every newline ends a line, and characters after the last newline form one more line. -/
def lines (text : List Char) : List (List Char) :=
  let runs := pieces (· == '\n') text
  let unended := runs.getLast?.toList.filter fun line => !line.isEmpty
  runs.dropLast.map dropReturn ++ unended

/-- A word shows something and holds no blank. -/
def IsWord (word : String) : Prop :=
  word ≠ "" ∧ ∀ character ∈ word.toList, isBlank character = false

def wordStrings (text : List Char) : List String :=
  (words text).map String.ofList

theorem separates_eq_false_of_mem_pieces {separates : Char → Bool} {text piece : List Char}
    {character : Char} (listed : piece ∈ pieces separates text) (inside : character ∈ piece) :
    separates character = false := by
  induction text generalizing piece with
  | nil =>
      rw [pieces, List.mem_singleton] at listed
      exact absurd (listed ▸ inside) List.not_mem_nil
  | cons first rest inductionHypothesis =>
      rw [pieces] at listed
      split at listed
      · rcases List.mem_cons.1 listed with rfl | listed
        · exact absurd inside List.not_mem_nil
        · exact inductionHypothesis listed inside
      · next kept =>
          have kept : separates first = false := by simpa using kept
          split at listed
          · rw [List.mem_singleton] at listed
            exact List.mem_singleton.1 (listed ▸ inside) ▸ kept
          · next others equation =>
              rw [equation] at inductionHypothesis
              rcases List.mem_cons.1 listed with rfl | listed
              · rcases List.mem_cons.1 inside with rfl | inside
                · exact kept
                · exact inductionHypothesis List.mem_cons_self inside
              · exact inductionHypothesis (List.mem_cons_of_mem _ listed) inside

theorem isWord_of_mem_wordStrings {text : List Char} {word : String}
    (listed : word ∈ wordStrings text) : IsWord word := by
  obtain ⟨piece, kept, rfl⟩ := List.mem_map.1 listed
  obtain ⟨listed, visible⟩ := List.mem_filter.1 kept
  constructor
  · intro hidden
    have hidden := congrArg String.toList hidden
    rw [String.toList_ofList] at hidden
    simp [hidden] at visible
  · intro character inside
    rw [String.toList_ofList] at inside
    exact separates_eq_false_of_mem_pieces listed inside

end ShiftReduce.Text
