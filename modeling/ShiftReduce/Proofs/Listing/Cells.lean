/-
This file shows that the printed table and the printed runs keep all of their cells.
-/

import ShiftReduce.CompiledGrammar
import ShiftReduce.Listing
import ShiftReduce.Proofs.Grammar.Labels
import ShiftReduce.Proofs.Listing.Grid
import ShiftReduce.Proofs.Table.Exactness
import ShiftReduce.Proofs.Table.Texts

namespace ShiftReduce

namespace Listing

section Contents

/-- A place of a table holds an action or a goto. -/
inductive Content
  | action (action : Action)
  | goto (next : Nat)
deriving DecidableEq

/-- A nonterminal has a goto, and any other symbol has an action. -/
def content? (grammar : Grammar) (table : ParseTable) (state : Nat) (symbol : Symbol) :
    Option Content :=
  if grammar.isNonterminal symbol then (table.goto state symbol).map .goto
  else (table.action state symbol).map .action

/-- Behind the states come the terminals and the end marker and then the nonterminals. -/
def columnOf (grammar : Grammar) (symbol : Symbol) : Nat :=
  if grammar.isNonterminal symbol then
    grammar.vocabulary.size - grammar.nonterminalCount + symbol
  else symbol - grammar.nonterminalCount + 1

def contentText : Option Content → String
  | none => ""
  | some (.action action) => action.text
  | some (.goto next) => toString next

variable {grammar : Grammar} {state other : Nat} {symbol second : Symbol}

/-- A row has one cell for each symbol but the added start symbol. -/
theorem getElem?_columnOf (first : String) (action goto : Symbol → String)
    (later : 0 < symbol) (known : symbol < grammar.vocabulary.size) :
    (first :: (grammar.vocabulary.terminalsAndEnd.map action ++
      (gotoColumns grammar).map goto))[columnOf grammar symbol]? =
        some (if grammar.isNonterminal symbol then goto symbol else action symbol) := by
  have width : (grammar.vocabulary.terminalsAndEnd.map action).length =
      grammar.vocabulary.size - grammar.nonterminalCount := by
    rw [List.length_map, Vocabulary.terminalsAndEnd, List.length_range']
  rw [columnOf]
  by_cases nonterminal : grammar.isNonterminal symbol = true
  · rw [if_pos nonterminal, if_pos nonterminal]
    rw [Grammar.isNonterminal_iff] at nonterminal
    obtain ⟨before, rfl⟩ := Nat.exists_eq_succ_of_ne_zero (Nat.ne_of_gt later)
    rw [Nat.succ_eq_add_one, ← Nat.add_assoc, List.getElem?_cons_succ, ← width,
      List.getElem?_append_right (Nat.le_add_right _ _), Nat.add_sub_cancel_left, List.getElem?_map,
      gotoColumns, List.getElem?_drop, Vocabulary.nonterminals, Nat.add_comm 1,
      List.getElem?_range nonterminal]
    rfl
  · rw [if_neg nonterminal, if_neg nonterminal]
    rw [Grammar.isNonterminal_iff, Nat.not_lt] at nonterminal
    have inside : symbol - grammar.nonterminalCount <
        grammar.vocabulary.size - grammar.nonterminalCount := Nat.sub_lt_sub_right nonterminal known
    rw [List.getElem?_cons_succ, List.getElem?_append_left (width ▸ inside), List.getElem?_map,
      Vocabulary.terminalsAndEnd, List.getElem?_range' inside, Nat.one_mul,
      Nat.add_sub_cancel' nonterminal]
    rfl

theorem tableHeader_columnOf (later : 0 < symbol) (known : symbol < grammar.vocabulary.size) :
    (tableHeader grammar)[columnOf grammar symbol]? = some (grammar.vocabulary.label symbol) := by
  rw [tableHeader, List.map_append, getElem?_columnOf _ _ _ later known, ite_self]

theorem tableRow_columnOf (table : ParseTable) (later : 0 < symbol)
    (known : symbol < grammar.vocabulary.size) :
    (tableRow grammar table state)[columnOf grammar symbol]? =
      some (contentText (content? grammar table state symbol)) := by
  rw [tableRow, getElem?_columnOf _ _ _ later known, content?]
  split
  · cases table.goto state symbol <;> rfl
  · cases table.action state symbol <;> rfl

/-- A cell of actions is empty or shows what is derived for it. -/
theorem contentText_cellOf (actions : List Action) :
    contentText ((Action.cellOf actions).map .action) = Action.joinedTexts actions := by
  cases filled : Action.cellOf actions with
  | none =>
      cases actions with
      | nil => rfl
      | cons first rest => cases rest <;> cases filled
  | some action => exact Action.text_of_cellOf filled

/-- A built table holds gotos and cells of actions, and no action of a cell is a conflict. -/
inductive Built : Option Content → Prop
  | goto (next : Option Nat) : Built (next.map .goto)
  | action {actions : List Action} (plain : ∀ action ∈ actions, action.isConflict = false) :
      Built ((Action.cellOf actions).map .action)

theorem built_content? (known : symbol < grammar.vocabulary.size) :
    Built (content? grammar grammar.table state symbol) := by
  rw [content?]
  split
  · exact .goto _
  · next other =>
      rw [Grammar.isNonterminal_iff, Nat.not_lt] at other
      rw [Grammar.action_eq_cellOf ⟨other, known⟩]
      exact .action fun _ => Grammar.isConflict_of_derived

theorem contentText_goto_injective {next later : Option Nat}
    (same : contentText (next.map .goto) = contentText (later.map .goto)) : next = later := by
  cases next with
  | none =>
      cases later with
      | none => rfl
      | some state => exact absurd same.symm (Text.isWord_toString state).1
  | some state =>
      cases later with
      | none => exact absurd same (Text.isWord_toString state).1
      | some other => exact congrArg some (Nat.repr_inj.1 same)

/-- Actions are never written as a goto is. -/
theorem eq_none_of_joinedTexts {actions : List Action} {next : Option Nat}
    (plain : ∀ action ∈ actions, action.isConflict = false)
    (same : Action.joinedTexts actions = contentText (next.map .goto)) :
    Action.cellOf actions = none ∧ next = none := by
  cases next with
  | none => exact ⟨congrArg _ ((Action.joinedTexts_eq_empty_iff plain).1 same), rfl⟩
  | some state => exact absurd same (Action.joinedTexts_ne_toString plain state)

/-- The text of a place in a built table tells what the place holds. -/
theorem contentText_injective {content another : Option Content} (built : Built content)
    (again : Built another) (same : contentText content = contentText another) :
    content = another := by
  cases built with
  | goto next =>
      cases again with
      | goto later => rw [contentText_goto_injective same]
      | action plain =>
          rw [contentText_cellOf] at same
          obtain ⟨empty, rfl⟩ := eq_none_of_joinedTexts plain same.symm
          rw [empty]
          rfl
  | action plain =>
      rw [contentText_cellOf] at same
      cases again with
      | goto later =>
          obtain ⟨empty, rfl⟩ := eq_none_of_joinedTexts plain same
          rw [empty]
          rfl
      | action single =>
          rw [contentText_cellOf] at same
          rw [Action.joinedTexts_injective plain single same]

theorem contentText_eq_empty_iff {content : Option Content} (built : Built content) :
    contentText content = "" ↔ content = none :=
  ⟨contentText_injective built (.goto none), fun empty => empty ▸ rfl⟩

end Contents

section Tidy

variable {grammar : Grammar}

theorem isTidy_actionCell {state : Nat} {symbol : Symbol} :
    Text.IsTidy (actionCell (grammar.table.action state symbol)).toList := by
  cases found : grammar.table.action state symbol with
  | none => exact Text.isTidy_nil
  | some action =>
      rw [Grammar.action_eq_cellOf (Grammar.column_of_action found)] at found
      rw [actionCell, Action.text_of_cellOf found]
      exact Action.isTidy_joinedTexts fun _ => Grammar.isConflict_of_derived

theorem isTidy_gotoCell (next : Option Nat) : Text.IsTidy (gotoCell next).toList := by
  cases next with
  | none => exact Text.isTidy_nil
  | some state => exact (Text.isWord_toString state).isTidy

theorem isTidy_tableRows (grammar : Grammar) :
    ∀ row ∈ tableRows grammar grammar.table, ∀ cell ∈ row, Text.IsTidy cell.toList := by
  have label (symbol : Symbol) := (grammar.isWord_label symbol).isTidy
  have header : Text.IsTidy "State".toList := by decide
  simp only [tableRows, tableHeader, tableRow, List.forall_mem_cons, List.forall_mem_map,
    List.forall_mem_append]
  refine ⟨⟨header, fun symbol _ => label symbol, fun symbol _ => label symbol⟩, fun state _ => ?_⟩
  exact ⟨(Text.isWord_toString state).isTidy, fun symbol _ => isTidy_actionCell,
    fun symbol _ => isTidy_gotoCell _⟩

/-- A message ends in a word that is known or in a number. -/
theorem isTidy_message (error : RunError) :
    Text.IsTidy error.message.toList ∧ error.message ≠ "" := by
  cases error with
  | tableConflict => decide
  | invalidInput token position =>
      refine Text.isTidy_append ?_ (by decide) (by decide)
      simp [Text.newline_not_mem_quoted, Text.newline_not_mem_toDigits]
  | unexpected state lookahead =>
      have shown := Text.isWord_toString lookahead
      refine Text.isTidy_append ?_ shown.isTidy shown.1
      simp [Text.newline_not_mem_toDigits]

theorem isTidy_move (move : Move) : Text.IsTidy move.text.toList := by
  have plain (action : Action) (single : action.isConflict = false) :=
    (Action.isWord_text single).isTidy
  cases move with
  | shift state => exact plain (.shift state) rfl
  | reduce rule => exact plain (.reduce rule) rfl
  | accept => exact plain .accept rfl
  | refuse error =>
      obtain ⟨tidy, visible⟩ := isTidy_message error
      exact (Text.isTidy_append (by decide) tidy visible).1

theorem isTidy_appliedRule (move : Move) : Text.IsTidy (appliedRule grammar move).toList := by
  cases move with
  | reduce index =>
      rw [appliedRule]
      cases grammar.rules[index]? with
      | none => exact Text.isTidy_nil
      | some rule => exact Text.isTidy_spaced (grammar.isWord_ruleText rule)
  | shift _ | accept | refuse _ => exact Text.isTidy_nil

theorem isTidy_traceRows (grammar : Grammar) (trace : Trace) :
    ∀ row ∈ traceRows grammar trace, ∀ cell ∈ row, Text.IsTidy cell.toList := by
  have entry (entry : StackEntry) : Text.IsWord (stackEntry grammar entry) := by
    cases entry with
    | state number => exact Text.isWord_toString number
    | symbol symbol => exact grammar.isWord_label symbol
  have header : ∀ title ∈ ["Stack", "Input", "Action", "Rule"], Text.IsTidy title.toList := by
    decide
  refine List.forall_mem_cons.2 ⟨header, ?_⟩
  simp only [traceRow, List.forall_mem_cons, List.forall_mem_map]
  intro step _
  refine ⟨Text.isTidy_spaced ?_, Text.isTidy_spaced (grammar.isWord_labels step.input),
    isTidy_move step.move, isTidy_appliedRule step.move, by simp⟩
  exact List.forall_mem_map.2 fun shown _ => entry shown

end Tidy

section Places

/-- A place is cut out of its line and its column. -/
def cutAt (rows : List (List String)) (lines : List (List Char)) (line column : Nat) :
    Option String :=
  lines[line]?.map (cutCell rows column)

theorem cutAt_eq {rows : List (List String)} {lines : List (List Char)} {row : List String}
    {line column : Nat} {cell : String} (shows : ShowsGrid rows lines)
    (listed : rows[line]? = some row) (found : row[column]? = some cell) :
    cutAt rows lines line column = some cell := by
  obtain ⟨inside, rfl⟩ := List.getElem?_eq_some_iff.1 listed
  have within : line < lines.length := shows.lined.length_eq ▸ inside
  have shown : ShowsRow rows rows[line] lines[line] := List.Forall₂.get shows.lined inside within
  rw [cutAt, List.getElem?_eq_getElem within, Option.map_some, shown.cut column cell found]

end Places

section Table

/-- The lines of a table end in front of the first empty line. -/
def tableLines (grammar : Grammar) (shown : ParseTable) : List (List Char) :=
  (Text.lines (text (table grammar shown)).toList).takeWhile fun line => !line.isEmpty

/-- Every line of the grid begins with a number or with the title of the numbers. -/
theorem ne_nil_of_mem_grid (grammar : Grammar) :
    ∀ line ∈ (grid (tableRows grammar grammar.table)).map String.toList, line ≠ [] := by
  rw [grid, List.map_map, List.forall_mem_map]
  intro row listed
  have shows := showsRow_gridLine (isTidy_tableRows grammar) listed
  rcases List.mem_cons.1 listed with rfl | listed
  · exact shows.ne_nil rfl (by decide)
  · obtain ⟨state, _, rfl⟩ := List.mem_map.1 listed
    exact shows.ne_nil rfl (Text.isWord_toString state).1

theorem tableLines_eq (grammar : Grammar) : tableLines grammar grammar.table =
    (grid (tableRows grammar grammar.table)).map String.toList := by
  have visible : ∀ line ∈ (grid (tableRows grammar grammar.table)).map String.toList,
      (!line.isEmpty) = true := by
    simpa using ne_nil_of_mem_grid grammar
  rw [tableLines, table, lines_text_append (isTidy_grid (isTidy_tableRows grammar)),
    List.takeWhile_append_of_pos visible]
  split
  · rw [toList_text_cons, String.toList_empty, Text.lines_tidy_append Text.isTidy_nil]
    exact List.append_nil _
  · exact List.append_nil _

variable (grammar : Grammar) (shown : ParseTable) (lines : List (List Char))

/-- Each state has a place for each symbol but the added start symbol. -/
def HasPlace (state : Nat) (symbol : Symbol) : Prop :=
  state < grammar.collection.size ∧ 0 < symbol ∧ symbol < grammar.vocabulary.size

/-- The line of the header stands above the lines of the states. -/
def placeText (state : Nat) (symbol : Symbol) : Option String :=
  cutAt (tableRows grammar shown) lines (state + 1) (columnOf grammar symbol)

/--
Lines show a table when there is a header with the name of each column, behind it there is one line
for each state with its number, and the text of each place tells what the place holds.
-/
structure ShowsTable : Prop where
  aligned : ShowsGrid (tableRows grammar shown) lines
  counted : lines.length = grammar.collection.size + 1
  titled : cutAt (tableRows grammar shown) lines 0 0 = some "State"
  named : ∀ symbol, 0 < symbol → symbol < grammar.vocabulary.size →
    cutAt (tableRows grammar shown) lines 0 (columnOf grammar symbol) =
      some (grammar.vocabulary.label symbol)
  numbered : ∀ state, state < grammar.collection.size →
    cutAt (tableRows grammar shown) lines (state + 1) 0 = some (toString state)
  empty : ∀ state symbol, HasPlace grammar state symbol →
    (placeText grammar shown lines state symbol = some "" ↔
      content? grammar shown state symbol = none)
  equal : ∀ state other symbol second, HasPlace grammar state symbol →
    HasPlace grammar other second →
    placeText grammar shown lines state symbol = placeText grammar shown lines other second →
    content? grammar shown state symbol = content? grammar shown other second

theorem showsTable_tableLines :
    ShowsTable grammar grammar.table (tableLines grammar grammar.table) := by
  have aligned : ShowsGrid (tableRows grammar grammar.table)
      (tableLines grammar grammar.table) := by
    rw [tableLines_eq]
    exact showsGrid_grid (isTidy_tableRows grammar)
  have count : grammar.table.stateCount = grammar.collection.size :=
    Grammar.stateCount_tableWith grammar.follow grammar.collection
  have row {state : Nat} (inside : state < grammar.collection.size) :
      (tableRows grammar grammar.table)[state + 1]? =
        some (tableRow grammar grammar.table state) := by
    rw [tableRows, count, List.getElem?_cons_succ, List.getElem?_map, List.getElem?_range inside]
    rfl
  have shows {state : Nat} {symbol : Symbol} (place : HasPlace grammar state symbol) :
      placeText grammar grammar.table (tableLines grammar grammar.table) state symbol =
        some (contentText (content? grammar grammar.table state symbol)) :=
    cutAt_eq aligned (row place.1) (tableRow_columnOf grammar.table place.2.1 place.2.2)
  refine ⟨aligned, ?counted, cutAt_eq aligned rfl rfl, fun symbol later known => ?named,
    fun state inside => ?numbered, fun state symbol place => ?empty,
    fun state other symbol second place another same => ?equal⟩
  case counted =>
    rw [← aligned.lined.length_eq, tableRows, List.length_cons, List.length_map,
      List.length_range, count]
  case named => exact cutAt_eq aligned rfl (tableHeader_columnOf later known)
  case numbered => exact cutAt_eq aligned (row inside) rfl
  case empty =>
    rw [shows place, Option.some.injEq]
    exact contentText_eq_empty_iff (built_content? place.2.2)
  case equal =>
    rw [shows place, shows another, Option.some.injEq] at same
    exact contentText_injective (built_content? place.2.2) (built_content? another.2.2) same

end Table

section Trace

variable (grammar : Grammar)

/--
A step shows its stack and its input, each entry by its number or its label. An action is written as
a letter with its number, and a rule is written only beside its reduction.
-/
structure ShowsStep (step : TraceStep) (cell : Nat → Option String) : Prop where
  stack : cell 0 = some (" ".intercalate (step.stack.map fun
    | .state number => toString number
    | .symbol symbol => grammar.vocabulary.label symbol))
  input : cell 1 = some (" ".intercalate (step.input.map grammar.vocabulary.label))
  shift : ∀ state, step.move = .shift state →
    cell 2 = some ("s" ++ toString state) ∧ cell 3 = some ""
  reduce : ∀ index rule, step.move = .reduce index → grammar.rules[index]? = some rule →
    cell 2 = some ("r" ++ toString index) ∧ cell 3 = some (" ".intercalate
      (grammar.vocabulary.label rule.lhs :: "→" :: rule.rhs.map grammar.vocabulary.label))
  accept : step.move = .accept → cell 2 = some "A" ∧ cell 3 = some ""
  refuse : ∀ error, step.move = .refuse error →
    cell 2 = some ("Error: " ++ error.message) ∧ cell 3 = some ""

theorem showsStep_of_traceRow {step : TraceStep} {cell : Nat → Option String}
    (row : ∀ column text, (traceRow grammar step)[column]? = some text → cell column = some text) :
    ShowsStep grammar step cell := by
  obtain ⟨stack, input, move⟩ := step
  have entries : (fun
      | .state number => toString number
      | .symbol symbol => grammar.vocabulary.label symbol) = stackEntry grammar := by
    funext entry
    cases entry <;> rfl
  constructor
  case stack =>
    rw [entries]
    exact row 0 _ rfl
  case input => exact row 1 _ rfl
  case shift =>
    rintro state rfl
    exact ⟨row 2 _ rfl, row 3 _ rfl⟩
  case reduce =>
    rintro index rule rfl applied
    have shown : appliedRule grammar (.reduce index) = grammar.ruleText rule := by
      rw [appliedRule, applied]
      rfl
    exact ⟨row 2 _ rfl, row 3 _ (congrArg some shown)⟩
  case accept =>
    rintro rfl
    exact ⟨row 2 _ rfl, row 3 _ rfl⟩
  case refuse =>
    rintro error rfl
    exact ⟨row 2 _ rfl, row 3 _ rfl⟩

/-- Lines show a run when there is a line for each step below a line with the four titles. -/
structure ShowsTrace (shown : Trace) (lines : List (List Char)) : Prop where
  aligned : ShowsGrid (traceRows grammar shown) lines
  counted : lines.length = shown.steps.length + 1
  titled : ∀ column title, ["Stack", "Input", "Action", "Rule"][column]? = some title →
    cutAt (traceRows grammar shown) lines 0 column = some title
  stepped : ∀ index step, shown.steps[index]? = some step →
    ShowsStep grammar step (cutAt (traceRows grammar shown) lines (index + 1))

/-- The lines of a printed run show the run. -/
theorem showsTrace_lines (shown : Trace) :
    ShowsTrace grammar shown (Text.lines (text (trace grammar shown)).toList) := by
  rw [trace, lines_text (isTidy_grid (isTidy_traceRows grammar shown))]
  have aligned := showsGrid_grid (isTidy_traceRows grammar shown)
  refine ⟨aligned, ?counted, fun column title found => cutAt_eq aligned rfl found,
    fun index step listed => ?stepped⟩
  case counted =>
    rw [← aligned.lined.length_eq, traceRows, List.length_cons, List.length_map]
  case stepped =>
    have row : (traceRows grammar shown)[index + 1]? = some (traceRow grammar step) := by
      rw [traceRows, List.getElem?_cons_succ, List.getElem?_map, listed]
      rfl
    exact showsStep_of_traceRow grammar fun _ _ => cutAt_eq aligned row

end Trace

end Listing

/--
The columns of a printed table and of a printed run stand in line, each as wide as its longest cell,
and each cell can be cut out of its line although no line ends in a blank. Behind the header a table
has a line for each state, where the text of each place tells which action or goto the place holds,
conflicts included, and a run has a line for each step with its stack, input, action and rule.
-/
theorem CompiledGrammar.shows_grids (compiled : CompiledGrammar) :
    Listing.ShowsTable compiled.grammar compiled.table
      (Listing.tableLines compiled.grammar compiled.table) ∧
    ∀ trace, Listing.ShowsTrace compiled.grammar trace
      (Text.lines (Listing.text (Listing.trace compiled.grammar trace)).toList) := by
  rw [table_eq_table]
  exact ⟨Listing.showsTable_tableLines compiled.grammar,
    Listing.showsTrace_lines compiled.grammar⟩

/-- The conflict behind a sum is seen in its place. -/
theorem CompiledGrammar.shows_grids_sum : ∃ compiled, ofText "E E + E\nE a" = .ok compiled ∧
    compiled.table.action 4 2 = some (.conflict [.shift 3, .reduce 1]) ∧
    Listing.placeText compiled.grammar compiled.table
      (Listing.tableLines compiled.grammar compiled.table) 4 2 ≠ some "" := by
  obtain ⟨compiled, compiles, evaluated⟩ := exists_of_ofText "E E + E\nE a"
    (fun compiled => decide (compiled.table.action 4 2 = some (.conflict [.shift 3, .reduce 1]) ∧
      4 < compiled.collection.size ∧ 2 < compiled.grammar.vocabulary.size ∧
        compiled.grammar.isNonterminal 2 = false))
    (by decide +kernel)
  obtain ⟨conflict, inside, known, terminal⟩ := of_decide_eq_true evaluated
  obtain ⟨shows, _⟩ := shows_grids compiled
  refine ⟨compiled, compiles, conflict, fun hidden => ?_⟩
  rw [compiled.collection_eq] at inside
  have empty := (shows.empty 4 2 ⟨inside, by decide, known⟩).1 hidden
  rw [Listing.content?, terminal, conflict] at empty
  cases empty

end ShiftReduce
