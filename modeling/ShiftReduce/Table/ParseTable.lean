/-
This file builds the table that tells a parser what to do in each state on each symbol.
-/

import ShiftReduce.Items.Collection
import ShiftReduce.Lookahead
import ShiftReduce.Table.Action

namespace ShiftReduce

/-- A cell conflicts when it holds a conflict. -/
def conflicting (cell : Option Action) : Bool :=
  cell.any Action.isConflict

/--
Each state has one row. The columns of the actions are the terminals and the end marker, and the
columns of the gotos are the nonterminals. The flag is up exactly when some cell conflicts.
-/
structure ParseTable where
  nonterminalCount : Nat
  actions : List (List (Option Action))
  gotos : List (List (Option Nat))
  hasConflict : Bool
  hasConflict_eq : hasConflict = actions.any fun row => row.any conflicting

structure ConflictCell where
  state : Nat
  symbol : Symbol
  actions : List Action

/-- A table is filled by entries that come one after the other. -/
inductive Entry
  | goto (state : Nat) (nonterminal : Symbol) (next : Nat)
  | action (state : Nat) (symbol : Symbol) (action : Action)

/-- A change that keeps a property at one place shows there only. -/
theorem any_modify {α : Type} {property : α → Bool} {change : α → α}
    (kept : ∀ element, property element = true → property (change element) = true)
    (list : List α) (place : Nat) :
    (list.modify place change).any property =
      (list.any property || list[place]?.any fun element => property (change element)) := by
  induction list generalizing place with
  | nil => simp
  | cons first rest inductionHypothesis =>
      cases place with
      | zero =>
          cases conflict : property first with
          | false => simp [conflict, Bool.or_comm]
          | true => simp [conflict, kept first conflict]
      | succ place => simp [inductionHypothesis, Bool.or_assoc]

namespace ParseTable

def stateCount (table : ParseTable) : Nat :=
  table.actions.length

/-- A nonterminal has no action column. -/
def cell? (table : ParseTable) (state : Nat) (symbol : Symbol) : Option (Option Action) :=
  if symbol < table.nonterminalCount then none
  else table.actions[state]?.bind fun row => row[symbol - table.nonterminalCount]?

def action (table : ParseTable) (state : Nat) (symbol : Symbol) : Option Action :=
  (table.cell? state symbol).join

def goto (table : ParseTable) (state : Nat) (nonterminal : Symbol) : Option Nat :=
  (table.gotos[state]?.bind fun row => row[nonterminal]?).join

def conflictAt (state : Nat) (symbol : Symbol) : Option Action → Option ConflictCell
  | some (.conflict actions) => some ⟨state, symbol, actions⟩
  | _ => none

/-- The conflict cells are listed state by state and then symbol by symbol. -/
def conflicts (table : ParseTable) : List ConflictCell :=
  table.actions.zipIdx.flatMap fun row =>
    row.1.zipIdx.filterMap fun cell =>
      conflictAt row.2 (table.nonterminalCount + cell.2) cell.1

/-- Every cell of a blank table is empty. -/
def blank (stateCount nonterminalCount columnCount : Nat) : ParseTable where
  nonterminalCount := nonterminalCount
  actions := List.replicate stateCount (List.replicate columnCount none)
  gotos := List.replicate stateCount (List.replicate nonterminalCount none)
  hasConflict := false
  hasConflict_eq := by simp [conflicting]

def merged (added : Action) (cell : Option Action) : Option Action :=
  some (Action.merge cell added)

theorem conflicting_merged (added : Action) (cell : Option Action)
    (conflict : conflicting cell = true) : conflicting (merged added cell) = true := by
  cases cell with
  | none => exact absurd conflict (by simp [conflicting])
  | some present => exact Action.isConflict_merge conflict added

/-- A new action adds a conflict to the rows when its own cell then conflicts. -/
theorem any_conflicting_modify (rows : List (List (Option Action))) (state column : Nat)
    (added : Action) :
    ((rows.modify state fun row => row.modify column (merged added)).any
        fun row => row.any conflicting) =
      ((rows.any fun row => row.any conflicting) ||
        (rows[state]?.bind fun row => row[column]?).any
          fun cell => conflicting (merged added cell)) := by
  have kept (row : List (Option Action)) (conflict : row.any conflicting = true) :
      (row.modify column (merged added)).any conflicting = true := by
    rw [any_modify (conflicting_merged added), conflict, Bool.true_or]
  rw [any_modify kept, Option.any_bind]
  cases found : rows[state]? with
  | none => rfl
  | some row =>
      simp only [Option.any_some, Function.comp_apply, any_modify (conflicting_merged added)]
      cases conflict : row.any conflicting with
      | false => rw [Bool.false_or]
      | true =>
          have flagged : (rows.any fun row => row.any conflicting) = true :=
            List.any_eq_true.2 ⟨row, List.mem_of_getElem? found, conflict⟩
          rw [flagged, Bool.true_or, Bool.true_or]

/-- A new action is merged into its cell, and a conflict that comes from this raises the flag. -/
def enterAction (table : ParseTable) (state : Nat) (symbol : Symbol) (added : Action) :
    ParseTable :=
  if known : symbol < table.nonterminalCount then table
  else
    { table with
      actions := table.actions.modify state fun row =>
        row.modify (symbol - table.nonterminalCount) (merged added)
      hasConflict := table.hasConflict ||
        (table.cell? state symbol).any fun cell => conflicting (merged added cell)
      hasConflict_eq := by
        rw [any_conflicting_modify, ← table.hasConflict_eq, cell?, if_neg known] }

/-- A new goto takes the place of an older one. -/
def enterGoto (table : ParseTable) (state : Nat) (nonterminal : Symbol) (next : Nat) :
    ParseTable :=
  { table with
    gotos := table.gotos.modify state fun row => row.modify nonterminal fun _ => some next }

def enter (table : ParseTable) : Entry → ParseTable
  | .goto state nonterminal next => table.enterGoto state nonterminal next
  | .action state symbol added => table.enterAction state symbol added

def enterAll (table : ParseTable) (entries : List Entry) : ParseTable :=
  entries.foldl enter table

end ParseTable

namespace Grammar

/-- A state goes on along a nonterminal and shifts a terminal. -/
def transitionEntry (grammar : Grammar) (state : Nat) (symbol : Symbol) (next : Nat) : Entry :=
  if symbol < grammar.vocabulary.nonterminalCount then .goto state symbol next
  else .action state symbol (.shift next)

/-- No state is entered on the end marker. -/
def transitionEntries (grammar : Grammar) (collection : Collection) (state : Nat)
    (items : ItemSet) : List Entry :=
  (List.range grammar.endMarker).filterMap fun symbol =>
    (collection.find (grammar.goto items symbol)).map (grammar.transitionEntry state symbol)

/-- A complete item reduces on each lookahead of its left-hand side, and rule 0 accepts instead. -/
def completionEntries (grammar : Grammar) (lookaheads : Symbol → OrderedSet Symbol) (state : Nat)
    (item : Item) : List Entry :=
  match grammar.rules[item.rule]? with
  | none => []
  | some rule =>
      (lookaheads rule.lhs).toList.map fun symbol =>
        if item.rule = 0 then .action state grammar.endMarker .accept
        else .action state symbol (.reduce item.rule)

/-- The transitions come before the complete items, and these keep their order. -/
def stateEntries (grammar : Grammar) (lookaheads : Symbol → OrderedSet Symbol)
    (collection : Collection) (state : Nat) (items : ItemSet) : List Entry :=
  grammar.transitionEntries collection state items ++
    (items.toList.filter grammar.isComplete).flatMap (grammar.completionEntries lookaheads state)

def tableEntries (grammar : Grammar) (lookaheads : Symbol → OrderedSet Symbol)
    (collection : Collection) : List Entry :=
  collection.states.zipIdx.flatMap fun numbered =>
    grammar.stateEntries lookaheads collection numbered.2 numbered.1

/-- The lookaheads of a nonterminal tell where its rules reduce. -/
def tableWith (grammar : Grammar) (lookaheads : Symbol → OrderedSet Symbol)
    (collection : Collection) : ParseTable :=
  (ParseTable.blank collection.size grammar.vocabulary.nonterminalCount
      (grammar.vocabulary.size - grammar.vocabulary.nonterminalCount)).enterAll
    (grammar.tableEntries lookaheads collection)

/-- A nonterminal has as lookaheads whatever can follow it. -/
def parseTable (grammar : Grammar) (collection : Collection) : ParseTable :=
  grammar.tableWith grammar.follow collection

end Grammar

end ShiftReduce
