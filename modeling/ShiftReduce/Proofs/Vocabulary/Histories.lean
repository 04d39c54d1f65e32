/-
This file tells a vocabulary from the operations that interned its names. The operations that
introduced a new name fix the position and the kind of every symbol.
-/

import Mathlib.Data.List.Induction
import ShiftReduce.Proofs.Vocabulary.Interning

namespace ShiftReduce.Vocabulary

/-- The three ways to intern a name. -/
inductive Operation
  | nonterminal (name : String)
  | terminal (name : String)
  | endMarker

namespace Operation

def name : Operation → String
  | .nonterminal name | .terminal name => name
  | .endMarker => endMarkerName

def isNonterminal : Operation → Bool
  | .nonterminal _ => true
  | .terminal _ | .endMarker => false

/-- The kind of the symbol that an operation introduces. -/
def kindAt (symbol : Symbol) : Operation → SymbolKind
  | .nonterminal _ => if symbol = 0 then .start else .nonterminal
  | .terminal _ => .terminal
  | .endMarker => .endMarker

theorem isNonterminal_kindAt (symbol : Symbol) (operation : Operation) :
    (operation.kindAt symbol).isNonterminal = operation.isNonterminal := by
  cases operation with
  | nonterminal name =>
      rw [kindAt]
      split <;> rfl
  | terminal name => rfl
  | endMarker => rfl

theorem kindAt_eq_start_iff {symbol : Symbol} {operation : Operation} :
    operation.kindAt symbol = .start ↔ symbol = 0 ∧ ∃ name, operation = .nonterminal name := by
  cases operation <;> simp [kindAt]

theorem kindAt_eq_terminal_iff {symbol : Symbol} {operation : Operation} :
    operation.kindAt symbol = .terminal ↔
      operation.isNonterminal = false ∧ operation ≠ .endMarker := by
  cases operation <;> simp [kindAt, isNonterminal]
  split <;> simp

end Operation

def perform (vocabulary : Vocabulary) : Operation → Vocabulary
  | .nonterminal name => vocabulary.internNonterminal name
  | .terminal name => vocabulary.internTerminal name
  | .endMarker => vocabulary.internEndMarker

/-- An operation answers the position that its name has afterwards. -/
def answered (vocabulary : Vocabulary) (operation : Operation) : Symbol :=
  (vocabulary.perform operation).position operation.name

def after (operations : List Operation) : Vocabulary :=
  operations.foldl perform empty

/-- The operations whose name no earlier operation had. -/
def introductions : List Operation → List Operation
  | [] => []
  | first :: rest => first :: (introductions rest).filter (·.name != first.name)

/-- The entries that introductions make, one after the other. -/
def introducedEntries (introduced : List Operation) : List (String × SymbolKind) :=
  introduced.mapIdx fun symbol operation => (operation.name, operation.kindAt symbol)

/-- No name is introduced as a nonterminal after a terminal or the end marker was introduced. -/
def Ordered (operations : List Operation) : Prop :=
  (introductions operations).Pairwise fun earlier later =>
    later.isNonterminal = true → earlier.isNonterminal = true

instance (operations : List Operation) : Decidable (Ordered operations) :=
  inferInstanceAs (Decidable (List.Pairwise _ _))

variable {earlier later operations : List Operation} {symbol : Symbol}

section Introductions

theorem introductions_concat (operations : List Operation) (operation : Operation) :
    introductions (operations ++ [operation]) =
      if operation.name ∈ operations.map Operation.name then introductions operations
      else introductions operations ++ [operation] := by
  induction operations with
  | nil => simp [introductions]
  | cons first rest ih =>
      rw [List.cons_append, introductions, ih, introductions, List.map_cons]
      by_cases repeated : operation.name ∈ rest.map Operation.name
      · rw [if_pos repeated, if_pos (List.mem_cons_of_mem _ repeated)]
      · rw [if_neg repeated, List.filter_append]
        by_cases same : operation.name = first.name
        · simp [same]
        · rw [if_neg (mt List.mem_cons.1 (not_or.2 ⟨same, repeated⟩))]
          simp [same]

theorem prefix_introductions_append (earlier later : List Operation) :
    introductions earlier <+: introductions (earlier ++ later) := by
  induction later using List.reverseRecOn with
  | nil => simp
  | append_singleton later last ih =>
      rw [← List.append_assoc, introductions_concat]
      split
      · exact ih
      · exact ih.trans (List.prefix_append _ _)

theorem mem_names_introductions {name : String} :
    name ∈ (introductions operations).map Operation.name ↔
      name ∈ operations.map Operation.name := by
  induction operations using List.reverseRecOn with
  | nil => simp [introductions]
  | append_singleton operations last ih =>
      rw [introductions_concat, List.map_append, List.mem_append, List.map_singleton,
        List.mem_singleton]
      split
      · next known => exact ih.trans ⟨Or.inl, fun either => either.elim id fun same => same ▸ known⟩
      · rw [List.map_append, List.mem_append, ih, List.map_singleton, List.mem_singleton]

theorem Ordered.of_append (ordered : Ordered (earlier ++ later)) : Ordered earlier :=
  List.Pairwise.sublist (prefix_introductions_append earlier later).sublist ordered

end Introductions

section Entries

theorem perform_eq_intern (vocabulary : Vocabulary) (operation : Operation) :
    vocabulary.perform operation =
      vocabulary.intern operation.name (operation.kindAt vocabulary.size) := by
  cases operation with
  | nonterminal name =>
      simp [perform, internNonterminal, Operation.name, Operation.kindAt, isEmpty, size]
  | terminal name => rfl
  | endMarker => rfl

theorem after_concat (operations : List Operation) (operation : Operation) :
    after (operations ++ [operation]) = (after operations).perform operation := by
  rw [after, List.foldl_append]
  rfl

theorem map_fst_introducedEntries (introduced : List Operation) :
    (introducedEntries introduced).map Prod.fst = introduced.map Operation.name := by
  apply List.ext_getElem?
  simp [introducedEntries, Function.comp_def]

/-- A vocabulary has one entry for each name, with the kind that its introduction gives it. -/
theorem entries_after (operations : List Operation) :
    (after operations).entries = introducedEntries (introductions operations) := by
  induction operations using List.reverseRecOn with
  | nil => rfl
  | append_singleton operations last ih =>
      have known : last.name ∈ (after operations).names ↔
          last.name ∈ operations.map Operation.name := by
        rw [names, ih, map_fst_introducedEntries, mem_names_introductions]
      have size : (after operations).size = (introductions operations).length := by
        rw [size, ih, introducedEntries, List.length_mapIdx]
      rw [after_concat, perform_eq_intern, entries_intern, introductions_concat, size]
      by_cases repeated : last.name ∈ operations.map Operation.name
      · rw [if_pos repeated, if_pos (known.2 repeated), ih]
      · rw [if_neg repeated, if_neg (mt known.1 repeated), ih, introducedEntries, introducedEntries,
          List.mapIdx_concat]

theorem names_after (operations : List Operation) :
    (after operations).names = (introductions operations).map Operation.name := by
  rw [names, entries_after, map_fst_introducedEntries]

theorem size_after (operations : List Operation) :
    (after operations).size = (introductions operations).length := by
  rw [size, entries_after, introducedEntries, List.length_mapIdx]

theorem name?_after (operations : List Operation) (symbol : Symbol) :
    (after operations).name? symbol = (introductions operations)[symbol]?.map Operation.name := by
  rw [name?_eq_getElem?, names_after, List.getElem?_map]

theorem kind?_after (operations : List Operation) (symbol : Symbol) :
    (after operations).kind? symbol =
      (introductions operations)[symbol]?.map (Operation.kindAt symbol) := by
  simp [kind?, entries_after, introducedEntries, Function.comp_def]

theorem isNonterminal_after (operations : List Operation) (symbol : Symbol) :
    (after operations).isNonterminal symbol =
      (introductions operations)[symbol]?.any Operation.isNonterminal := by
  rw [isNonterminal, kind?_after, Option.any_map]
  congr
  exact funext (Operation.isNonterminal_kindAt symbol)

theorem nonterminalCount_after (operations : List Operation) :
    (after operations).nonterminalCount =
      (introductions operations).countP Operation.isNonterminal := by
  have flags : (after operations).kinds.map SymbolKind.isNonterminal =
      (introductions operations).map Operation.isNonterminal := by
    apply List.ext_getElem?
    simp [kinds, entries_after, introducedEntries, Function.comp_def,
      Operation.isNonterminal_kindAt]
  have counted := congrArg (List.countP id) flags
  rwa [List.countP_map, List.countP_map] at counted

theorem mem_names_after {name : String} :
    name ∈ (after operations).names ↔ ∃ operation ∈ operations, operation.name = name := by
  rw [names_after, mem_names_introductions, List.mem_map]

end Entries

section Identities

/-- A name that is known keeps its symbol, whatever operation names it again. -/
theorem perform_of_known {vocabulary : Vocabulary} {operation : Operation}
    (known : operation.name ∈ vocabulary.names) : vocabulary.perform operation = vocabulary := by
  rw [perform_eq_intern]
  exact ext_entries (entries_intern.trans (if_pos known))

theorem answered_of_known {vocabulary : Vocabulary} {operation : Operation}
    (found : vocabulary.lookup operation.name = some symbol) :
    vocabulary.perform operation = vocabulary ∧ vocabulary.answered operation = symbol := by
  have named := lookup_eq_some.1 found
  have known : operation.name ∈ vocabulary.names := by
    rw [name?_eq_getElem?] at named
    exact List.mem_of_getElem? named
  rw [answered, perform_of_known known]
  exact ⟨rfl, position_of_name? named⟩

/-- A new name gets the next symbol. -/
theorem answered_of_new {vocabulary : Vocabulary} {operation : Operation}
    (new : operation.name ∉ vocabulary.names) :
    (vocabulary.perform operation).size = vocabulary.size + 1 ∧
      vocabulary.answered operation = vocabulary.size := by
  have grown : (vocabulary.perform operation).names = vocabulary.names ++ [operation.name] := by
    rw [perform_eq_intern, names_intern, if_neg new]
  constructor
  · rw [← length_names, grown, List.length_append, length_names, List.length_singleton]
  · apply position_of_name?
    rw [name?_eq_getElem?, grown, ← length_names, List.getElem?_concat_length]

theorem getElem?_introductions_append (inside : symbol < (after earlier).size) :
    (introductions (earlier ++ later))[symbol]? = (introductions earlier)[symbol]? := by
  obtain ⟨added, grown⟩ := prefix_introductions_append earlier later
  rw [size_after] at inside
  rw [← grown, List.getElem?_append_left inside]

/-- The answers of operations that are performed one after the other, and what they lead to. -/
def answers (vocabulary : Vocabulary) : List Operation → List Symbol × Vocabulary
  | [] => ([], vocabulary)
  | operation :: rest =>
      let later := answers (vocabulary.perform operation) rest
      (vocabulary.answered operation :: later.1, later.2)

/-- Known names are answered with their positions, and nothing changes. -/
theorem answers_of_known {vocabulary : Vocabulary}
    (known : ∀ operation ∈ operations, operation.name ∈ vocabulary.names) :
    vocabulary.answers operations =
      (operations.map fun operation => vocabulary.position operation.name, vocabulary) := by
  induction operations with
  | nil => rfl
  | cons operation rest ih =>
      obtain ⟨here, behind⟩ := List.forall_mem_cons.1 known
      rw [answers, answered, perform_of_known here, ih behind]
      rfl

end Identities

section Classification

/-- Where those that pass a test come first, their number tells them from the others. -/
theorem any_getElem?_iff_lt_countP {test : Operation → Bool} {list : List Operation}
    (first : list.Pairwise fun earlier later => test later = true → test earlier = true) :
    list[symbol]?.any test = true ↔ symbol < list.countP test := by
  induction list generalizing symbol with
  | nil => simp
  | cons head tail ih =>
      rw [List.pairwise_cons] at first
      by_cases passes : test head = true
      · cases symbol with
        | zero => simp [passes]
        | succ symbol => simp [passes, ih first.2]
      · -- Nothing behind a failing head passes.
        have fails : tail.countP test = 0 :=
          List.countP_eq_zero.2 fun other member found => passes (first.1 other member found)
        cases symbol with
        | zero => simp [passes, fails]
        | succ symbol => simp [passes, fails, ih first.2]

theorem isNonterminal_iff_lt_count (ordered : Ordered operations) :
    (after operations).isNonterminal symbol = true ↔
      symbol < (after operations).nonterminalCount := by
  rw [isNonterminal_after, nonterminalCount_after]
  exact any_getElem?_iff_lt_countP ordered

/-- A new nonterminal comes right behind the nonterminals that are there. -/
theorem answered_of_new_nonterminal {name : String}
    (ordered : Ordered (operations ++ [.nonterminal name]))
    (new : name ∉ (after operations).names) :
    (after operations).answered (.nonterminal name) = (after operations).nonterminalCount := by
  rw [(answered_of_new new).2, size_after, nonterminalCount_after, eq_comm, List.countP_eq_length]
  rw [names_after, mem_names_introductions] at new
  have grown : introductions (operations ++ [.nonterminal name]) =
      introductions operations ++ [.nonterminal name] := by
    rw [introductions_concat]
    exact if_neg new
  rw [Ordered, grown, List.pairwise_append] at ordered
  exact fun operation member => ordered.2.2 operation member _ (List.mem_singleton_self _) rfl

theorem kind?_eq_start_iff :
    (after operations).kind? symbol = some .start ↔
      symbol = 0 ∧ ∃ name, operations.head? = some (.nonterminal name) := by
  have first : (introductions operations)[0]? = operations.head? := by
    cases operations <;> rfl
  rw [kind?_after, Option.map_eq_some_iff]
  constructor
  · rintro ⟨operation, introduced, kind⟩
    obtain ⟨rfl, name, rfl⟩ := Operation.kindAt_eq_start_iff.1 kind
    exact ⟨rfl, name, first ▸ introduced⟩
  · rintro ⟨rfl, name, named⟩
    exact ⟨.nonterminal name, first.trans named, rfl⟩

end Classification

section Closing

variable {front : List Operation}

theorem lastSymbol_of_closed (closed : introductions operations = front ++ [.endMarker]) :
    (after operations).lastSymbol = front.length := by
  rw [lastSymbol, size_after, closed, List.length_append, List.length_singleton,
    Nat.add_sub_cancel]

theorem lookup_endMarkerName (closed : introductions operations = front ++ [.endMarker]) :
    (after operations).lookup endMarkerName = some (after operations).lastSymbol := by
  rw [lookup_eq_some, name?_after, lastSymbol_of_closed closed, closed,
    List.getElem?_concat_length]
  rfl

theorem kind?_lastSymbol (closed : introductions operations = front ++ [.endMarker]) :
    (after operations).kind? (after operations).lastSymbol = some .endMarker := by
  rw [kind?_after, lastSymbol_of_closed closed, closed, List.getElem?_concat_length]
  rfl

/-- The end marker has a name of its own, so it is introduced only once. -/
theorem ne_endMarker_of_mem_front (closed : introductions operations = front ++ [.endMarker])
    {operation : Operation} (member : operation ∈ front) : operation ≠ .endMarker := by
  have distinct : (after operations).names.Nodup := (after operations).names_nodup
  rw [names_after, closed, List.map_append, List.nodup_append] at distinct
  rintro rfl
  exact distinct.2.2 _ (List.mem_map_of_mem member) _ (List.mem_singleton_self _) rfl

/-- Between the nonterminals and the end marker every symbol is a terminal. -/
theorem mem_terminals_iff (ordered : Ordered operations)
    (closed : introductions operations = front ++ [.endMarker]) :
    symbol ∈ (after operations).terminals ↔
      (after operations).kind? symbol = some .terminal := by
  have behind : (after operations).nonterminalCount ≤ symbol ↔
      (introductions operations)[symbol]?.any Operation.isNonterminal = false := by
    rw [← isNonterminal_after, ← Nat.not_lt, ← isNonterminal_iff_lt_count ordered,
      Bool.not_eq_true]
  have terminals : symbol ∈ (after operations).terminals ↔
      (after operations).nonterminalCount ≤ symbol ∧ symbol < front.length := by
    have range (count last place : Nat) :
        count ≤ place ∧ place < count + (last - count) ↔ count ≤ place ∧ place < last := by
      omega
    rw [terminals, List.mem_range'_1, lastSymbol_of_closed closed]
    exact range _ _ _
  rw [terminals, behind, kind?_after, Option.map_eq_some_iff]
  constructor
  · rintro ⟨other, inside⟩
    have here : (introductions operations)[symbol]? = some front[symbol] := by
      rw [closed, List.getElem?_append_left inside, List.getElem?_eq_getElem inside]
    rw [here] at other
    exact ⟨front[symbol], here, Operation.kindAt_eq_terminal_iff.2
      ⟨other, ne_endMarker_of_mem_front closed (List.getElem_mem inside)⟩⟩
  · rintro ⟨operation, here, kind⟩
    obtain ⟨other, marker⟩ := Operation.kindAt_eq_terminal_iff.1 kind
    refine ⟨by rw [here]; exact other, ?_⟩
    have inside := (List.getElem?_eq_some_iff.1 here).1
    rw [closed, List.length_append, List.length_singleton] at inside
    -- The last place is the place of the end marker.
    refine Nat.lt_of_le_of_ne (Nat.le_of_lt_succ inside) fun last => ?_
    rw [last, closed, List.getElem?_concat_length] at here
    exact marker (Option.some.inj here).symm

end Closing

/-- At every point of an ordered history names and symbols determine each other, a known name is
answered with its symbol and changes nothing, and no symbol ever changes its name or kind. The
kinds and the ranges of symbols tell the nonterminals alike, and the terminals once the end marker
is the last name. -/
theorem numbering_of_ordered (earlier later : List Operation)
    (ordered : Ordered (earlier ++ later)) :
    (∀ name symbol, (after earlier).lookup name = some symbol ↔
      (after earlier).name? symbol = some name) ∧
    (∀ name, ((after earlier).lookup name).isSome = true ↔
      ∃ operation ∈ earlier, operation.name = name) ∧
    (∀ symbol, ((after earlier).name? symbol).isSome = true ↔ symbol < (after earlier).size) ∧
    (∀ operation symbol, (after earlier).lookup operation.name = some symbol →
      (after earlier).perform operation = after earlier ∧
        (after earlier).answered operation = symbol) ∧
    (∀ operation, (after earlier).lookup operation.name = none →
      ((after earlier).perform operation).size = (after earlier).size + 1 ∧
        (after earlier).answered operation = (after earlier).size) ∧
    (∀ name, Ordered (earlier ++ [.nonterminal name]) → (after earlier).lookup name = none →
      (after earlier).answered (.nonterminal name) = (after earlier).nonterminalCount) ∧
    (∀ symbol < (after earlier).size,
      (after (earlier ++ later)).name? symbol = (after earlier).name? symbol ∧
        (after (earlier ++ later)).kind? symbol = (after earlier).kind? symbol) ∧
    (after earlier).nonterminalCount = (introductions earlier).countP Operation.isNonterminal ∧
    (∀ symbol, (after earlier).isNonterminal symbol = true ↔
      symbol < (after earlier).nonterminalCount) ∧
    (∀ symbol, (after earlier).isNonterminal symbol = true ↔
      symbol ∈ (after earlier).nonterminals) ∧
    (∀ symbol, (after earlier).kind? symbol = some .start ↔
      symbol = 0 ∧ ∃ name, earlier.head? = some (.nonterminal name)) ∧
    ((introductions earlier).getLast? = some .endMarker →
      (after earlier).lookup endMarkerName = some (after earlier).lastSymbol ∧
        (after earlier).kind? (after earlier).lastSymbol = some .endMarker ∧
        ∀ symbol, symbol ∈ (after earlier).terminals ↔
          (after earlier).kind? symbol = some .terminal) := by
  have ordered : Ordered earlier := ordered.of_append
  refine ⟨fun _ _ => lookup_eq_some, fun name => ?_, fun symbol => ?_,
    fun _ _ => answered_of_known,
    fun _ missing => answered_of_new (lookup_eq_none.1 missing),
    fun _ grown missing => answered_of_new_nonterminal grown (lookup_eq_none.1 missing),
    fun symbol inside => ?_, nonterminalCount_after earlier,
    fun _ => isNonterminal_iff_lt_count ordered, fun symbol => ?_, fun _ => kind?_eq_start_iff,
    fun closed => ?_⟩
  · rw [Option.isSome_iff_ne_none, Ne, lookup_eq_none, not_not, mem_names_after]
  · simp [name?_eq_getElem?, length_names]
  · rw [name?_after, name?_after, kind?_after, kind?_after, getElem?_introductions_append inside]
    exact ⟨rfl, rfl⟩
  · rw [nonterminals, List.mem_range]
    exact isNonterminal_iff_lt_count ordered
  · obtain ⟨front, closed⟩ := List.getLast?_eq_some_iff.1 closed
    exact ⟨lookup_endMarkerName closed, kind?_lastSymbol closed,
      fun _ => mem_terminals_iff ordered closed⟩

/-- A repeated start symbol and a dollar sign behind the end marker leave the history ordered. -/
theorem numbering_of_ordered_repeated :
    Ordered ([.nonterminal "S", .terminal "S", .nonterminal "A", .terminal "t", .endMarker] ++
      [.nonterminal "$", .terminal "u"]) ∧
    (∀ symbol, symbol ∈ (after [.nonterminal "S", .terminal "S", .nonterminal "A", .terminal "t",
        .endMarker]).terminals ↔
      (after [.nonterminal "S", .terminal "S", .nonterminal "A", .terminal "t",
        .endMarker]).kind? symbol = some .terminal) := by
  have ordered : Ordered ([.nonterminal "S", .terminal "S", .nonterminal "A", .terminal "t",
      .endMarker] ++ [.nonterminal "$", .terminal "u"]) := by
    decide
  obtain ⟨-, -, -, -, -, -, -, -, -, -, -, closing⟩ := numbering_of_ordered _ _ ordered
  exact ⟨ordered, (closing rfl).2.2⟩

end ShiftReduce.Vocabulary
