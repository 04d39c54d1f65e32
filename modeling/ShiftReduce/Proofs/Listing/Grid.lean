/-
This file shows that the columns of a grid stand in line and that its cells can be read back.
-/

import Mathlib.Algebra.GroupWithZero.Nat
import Mathlib.Data.List.Forall2
import Mathlib.Order.Bounds.Basic
import ShiftReduce.Proofs.Listing.Lines

namespace ShiftReduce.Listing

/-- Each earlier column takes its width, and a bar between two spaces comes behind it. -/
def columnStart (rows : List (List String)) (column : Nat) : Nat :=
  ((List.range column).map fun earlier => columnWidth rows earlier + 3).sum

/-- A cell is what stands in its column, without the blanks at the end. -/
def cutCell (rows : List (List String)) (column : Nat) (line : List Char) : String :=
  String.ofList
    (Text.trimEnd ((line.drop (columnStart rows column)).take (columnWidth rows column)))

/-- A line shows a row when each cell begins at the start of its column and is cut out there. -/
structure ShowsRow (rows : List (List String)) (row : List String) (line : List Char) : Prop where
  trimmed : Text.trimEnd line = line
  placed : ∀ column cell, row[column]? = some cell →
    cell.toList <+: line.drop (columnStart rows column)
  cut : ∀ column cell, row[column]? = some cell → cutCell rows column line = cell

theorem ShowsRow.ne_nil {rows : List (List String)} {row : List String} {line : List Char}
    {cell : String} (shows : ShowsRow rows row line) (first : row[0]? = some cell)
    (visible : cell ≠ "") : line ≠ [] :=
  (shows.placed 0 cell first).ne_nil fun hidden => visible (String.toList_eq_nil_iff.1 hidden)

/-- Each column is as wide as its longest cell, and each line shows the row in its place. -/
structure ShowsGrid (rows : List (List String)) (lines : List (List Char)) : Prop where
  widest : ∀ column, (∃ row ∈ rows, column < row.length) →
    IsGreatest {length | ∃ row ∈ rows, ∃ cell, row[column]? = some cell ∧ cell.length = length}
      (columnWidth rows column)
  lined : List.Forall₂ (ShowsRow rows) rows lines

variable {rows : List (List String)} {row : List String} {column : Nat} {cell : String}

section Widths

theorem isGreatest_foldl_max (start : Nat) (lengths : List Nat) :
    IsGreatest {length | length ∈ start :: lengths} (lengths.foldl max start) := by
  induction lengths generalizing start with
  | nil => simp [IsGreatest, upperBounds]
  | cons first rest ih =>
      obtain ⟨attained, bound⟩ := ih (max start first)
      constructor
      · rcases List.mem_cons.1 attained with same | later
        · rw [List.foldl_cons, same]
          rcases Nat.le_total start first with less | more
          · simp [Nat.max_eq_right less]
          · simp [Nat.max_eq_left more]
        · exact List.mem_cons_of_mem _ (List.mem_cons_of_mem _ later)
      · have above : max start first ≤ rest.foldl max (max start first) := bound List.mem_cons_self
        rintro length listed
        rw [List.foldl_cons]
        rcases List.mem_cons.1 listed with rfl | listed
        · exact (Nat.le_max_left _ _).trans above
        · rcases List.mem_cons.1 listed with rfl | later
          · exact (Nat.le_max_right _ _).trans above
          · exact bound (List.mem_cons_of_mem _ later)

theorem length_le_columnWidth (listed : row ∈ rows) (found : row[column]? = some cell) :
    cell.length ≤ columnWidth rows column := by
  apply (isGreatest_foldl_max 0 _).2
  apply List.mem_cons_of_mem
  exact List.mem_map_of_mem (List.mem_filterMap.2 ⟨row, listed, found⟩)

theorem isGreatest_columnWidth (reached : ∃ row ∈ rows, column < row.length) :
    IsGreatest {length | ∃ row ∈ rows, ∃ cell, row[column]? = some cell ∧ cell.length = length}
      (columnWidth rows column) := by
  constructor
  · obtain ⟨attained, _⟩ := isGreatest_foldl_max 0
      ((rows.filterMap fun row => row[column]?).map String.length)
    rcases List.mem_cons.1 attained with empty | attained
    · obtain ⟨row, listed, inside⟩ := reached
      have found := List.getElem?_eq_getElem inside
      have short := length_le_columnWidth listed found
      have empty : columnWidth rows column = 0 := empty
      exact ⟨row, listed, _, found, by omega⟩
    · obtain ⟨cell, shown, same⟩ := List.mem_map.1 attained
      obtain ⟨row, listed, found⟩ := List.mem_filterMap.1 shown
      exact ⟨row, listed, cell, found, same⟩
  · rintro _ ⟨row, listed, cell, found, rfl⟩
    exact length_le_columnWidth listed found

theorem getElem?_padded (listed : row ∈ rows) (column : Nat) :
    (List.zipWith padEnd (columnWidths rows) row)[column]? =
      row[column]?.map (padEnd (columnWidth rows column)) := by
  have wide : row.length ≤ (rows.map List.length).foldl max 0 :=
    (isGreatest_foldl_max 0 _).2 (List.mem_cons_of_mem _ (List.mem_map_of_mem listed))
  rw [List.getElem?_zipWith, columnWidths, List.getElem?_map]
  cases found : row[column]? with
  | none => cases (List.range ((rows.map List.length).foldl max 0))[column]? <;> rfl
  | some cell =>
      obtain ⟨inside, _⟩ := List.getElem?_eq_some_iff.1 found
      rw [List.getElem?_range (Nat.lt_of_lt_of_le inside wide)]
      rfl

theorem length_padded (listed : row ∈ rows) (found : row[column]? = some cell) :
    (padEnd (columnWidth rows column) cell).toList.length = columnWidth rows column := by
  rw [String.length_toList, length_padEnd (length_le_columnWidth listed found)]

end Widths

section Columns

/-- A piece begins behind the earlier pieces and as many separators. -/
theorem prefix_drop_intercalate (separator : List Char) {piece : List Char}
    {pieces : List (List Char)} {place : Nat} (found : pieces[place]? = some piece) :
    piece <+: (separator.intercalate pieces).drop
      ((pieces.take place).map fun earlier => earlier.length + separator.length).sum := by
  induction pieces generalizing place with
  | nil => cases found
  | cons first rest ih =>
      cases place with
      | zero =>
          obtain rfl : first = piece := by simpa using found
          exact Text.prefix_intercalate _ _ _
      | succ place =>
          rw [List.getElem?_cons_succ] at found
          have later : rest ≠ [] := fun none => by simp [none] at found
          rw [List.intercalate_cons_of_ne_nil later, List.take_succ_cons, List.map_cons,
            List.sum_cons, ← List.length_append, List.drop_length_add_append]
          exact ih found

/-- The line of a row is padded to the full width of its columns before it is trimmed. -/
def paddedLine (rows : List (List String)) (row : List String) : List Char :=
  " | ".toList.intercalate ((List.zipWith padEnd (columnWidths rows) row).map String.toList)

theorem toList_gridLine :
    (gridLine (columnWidths rows) row).toList = Text.trimEnd (paddedLine rows row) := by
  rw [gridLine, String.toList_ofList, String.toList_intercalate, paddedLine]

theorem sum_take_padded (listed : row ∈ rows) (inside : column < row.length) :
    ((((List.zipWith padEnd (columnWidths rows) row).map String.toList).take column).map
      fun earlier => earlier.length + " | ".toList.length).sum = columnStart rows column := by
  rw [columnStart]
  congr 1
  apply List.ext_getElem?
  intro place
  rw [List.getElem?_map, List.getElem?_take, List.getElem?_map, getElem?_padded listed,
    List.getElem?_map]
  by_cases before : place < column
  · have within := List.getElem?_eq_getElem (Nat.lt_trans before inside)
    rw [if_pos before, within, List.getElem?_range before]
    simp [length_padded listed within]
  · rw [if_neg before, List.getElem?_eq_none (by simpa using before)]
    rfl

theorem cut_paddedLine (listed : row ∈ rows) (found : row[column]? = some cell) :
    ((paddedLine rows row).drop (columnStart rows column)).take (columnWidth rows column) =
      (padEnd (columnWidth rows column) cell).toList := by
  have padded : ((List.zipWith padEnd (columnWidths rows) row).map String.toList)[column]? =
      some (padEnd (columnWidth rows column) cell).toList := by
    rw [List.getElem?_map, getElem?_padded listed, found]
    rfl
  have placed := prefix_drop_intercalate " | ".toList padded
  rw [sum_take_padded listed (List.getElem?_eq_some_iff.1 found).1] at placed
  have cut := List.prefix_iff_eq_take.1 placed
  rw [length_padded listed found] at cut
  exact cut.symm

/-- The blanks that are trimmed from a line are missing only at the ends of its cells. -/
theorem trimEnd_cut_append_gap {line gap : List Char} (blank : Text.IsGap gap) (start width : Nat) :
    Text.trimEnd (((line ++ gap).drop start).take width) =
      Text.trimEnd ((line.drop start).take width) := by
  rw [List.drop_append, List.take_append]
  apply Text.trimEnd_append_gap
  intro character inside
  exact blank character (List.mem_of_mem_drop (List.mem_of_mem_take inside))

theorem cutCell_gridLine (listed : row ∈ rows) (found : row[column]? = some cell)
    (tidy : Text.IsTidy cell.toList) :
    cutCell rows column (gridLine (columnWidths rows) row).toList = cell := by
  obtain ⟨gap, blank, split⟩ := Text.exists_gap (paddedLine rows row)
  have spaces : Text.IsGap (List.replicate (columnWidth rows column - cell.length) ' ') := by
    intro character inside
    rw [List.eq_of_mem_replicate inside]
    exact Text.isBlank_space
  have cut := cut_paddedLine listed found
  rw [split] at cut
  rw [toList_gridLine, cutCell, ← trimEnd_cut_append_gap blank, cut, padEnd, String.toList_append,
    String.toList_ofList, Text.trimEnd_append_gap spaces, tidy.trimEnd_eq, String.ofList_toList]

end Columns

section Grid

variable (tidy : ∀ row ∈ rows, ∀ cell ∈ row, Text.IsTidy cell.toList)

include tidy

theorem isTidy_gridLine (listed : row ∈ rows) :
    Text.IsTidy (gridLine (columnWidths rows) row).toList := by
  rw [toList_gridLine]
  refine Text.isTidy_trimEnd (Text.not_mem_intercalate (by decide) fun piece shown => ?_)
  obtain ⟨column, found⟩ := List.mem_iff_getElem?.1 shown
  rw [List.getElem?_map, getElem?_padded listed, Option.map_map, Option.map_eq_some_iff] at found
  obtain ⟨cell, inside, rfl⟩ := found
  have unbroken := (tidy row listed cell (List.mem_of_getElem? inside)).unbroken
  simp [padEnd, unbroken]

theorem isTidy_grid : ∀ line ∈ grid rows, Text.IsTidy line.toList := by
  rw [grid, List.forall_mem_map]
  exact fun row listed => isTidy_gridLine tidy listed

theorem showsRow_gridLine (listed : row ∈ rows) :
    ShowsRow rows row (gridLine (columnWidths rows) row).toList := by
  have cut : ∀ column cell, row[column]? = some cell →
      cutCell rows column (gridLine (columnWidths rows) row).toList = cell :=
    fun column cell found =>
      cutCell_gridLine listed found (tidy row listed cell (List.mem_of_getElem? found))
  refine ⟨(isTidy_gridLine tidy listed).trimEnd_eq, fun column cell found => ?_, cut⟩
  rw [← cut column cell found, cutCell, String.toList_ofList]
  exact (List.rdropWhile_prefix _ _).trans (List.take_prefix _ _)

/-- A grid of tidy cells shows its rows. -/
theorem showsGrid_grid : ShowsGrid rows ((grid rows).map String.toList) where
  widest _ := isGreatest_columnWidth
  lined := by
    rw [grid, List.map_map, List.forall₂_map_right_iff, List.forall₂_same]
    exact fun row listed => showsRow_gridLine tidy listed

end Grid

end ShiftReduce.Listing
