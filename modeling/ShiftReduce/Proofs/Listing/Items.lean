/-
This file shows what the listing of the item sets tells about an item. Only a symbol that is spelled
like the dot can hide where the dot stands.
-/

import ShiftReduce.CompiledGrammar
import ShiftReduce.Listing
import ShiftReduce.Proofs.Grammar.Labels
import ShiftReduce.Proofs.Items.Canonical
import ShiftReduce.Proofs.Listing.Lines

namespace ShiftReduce

/-- An item is found by its state and its place in the state. -/
def Collection.item? (collection : Collection) (number place : Nat) : Option Item :=
  collection.states[number]?.bind fun items => items.toList[place]?

namespace Listing

/-- Each line of a state begins with a column for the label, which only the first line has. -/
def labelColumn (number place : Nat) : String :=
  padEnd 5 (if place = 0 then "I" ++ toString number else "")

def withoutLabel (number place : Nat) (line : String) : String :=
  String.ofList (line.toList.drop (labelColumn number place).length)

/-- The empty lines separate the states, and each other line shows one item. -/
def shownItems (listing : String) : List (List String) :=
  (((Text.lines listing.toList).map String.ofList).splitOn "").mapIdx fun number lines =>
    lines.mapIdx (withoutLabel number)

def shownItem? (listing : String) (number place : Nat) : Option String :=
  (shownItems listing)[number]?.bind fun texts => texts[place]?

/--
Where the first right-hand side has the dot the second has a symbol that is spelled like the dot,
and the other way round. The other symbols of the two sides are the same.
-/
def SwapsDot (grammar : Grammar) (first : List Symbol) (dot : Nat) (second : List Symbol)
    (later : Nat) : Prop :=
  ∃ mark before between after, grammar.vocabulary.name? mark = some dotMark ∧
    first = before ++ (between ++ mark :: after) ∧ dot = before.length ∧
    second = before ++ mark :: between ++ after ∧ later = (before ++ mark :: between).length

variable {grammar : Grammar}

section Words

/-- The arrow and the dot are words of an item, too. -/
def itemWords (grammar : Grammar) (rule : Rule) (dot : Nat) : List String :=
  grammar.vocabulary.label rule.lhs :: "→" :: markDot dot (rule.rhs.map grammar.vocabulary.label)

theorem mem_markDot {dot : Nat} {labels : List String} {word : String}
    (listed : word ∈ markDot dot labels) : word = dotMark ∨ word ∈ labels := by
  rw [markDot] at listed
  split at listed
  · rw [List.mem_append, List.mem_cons] at listed
    rcases listed with before | dotted | behind
    · exact .inr (List.mem_of_mem_take before)
    · exact .inl dotted
    · exact .inr (List.mem_of_mem_drop behind)
  · exact .inr listed

theorem isWord_itemWords (grammar : Grammar) (rule : Rule) (dot : Nat) :
    ∀ word ∈ itemWords grammar rule dot, Text.IsWord word := by
  simp only [itemWords, List.forall_mem_cons]
  refine ⟨grammar.isWord_label rule.lhs, by decide, fun word listed => ?_⟩
  rcases mem_markDot listed with rfl | symbol
  · decide
  · exact grammar.isWord_labels rule.rhs word symbol

/-- The text of an item can be cut into its words again. -/
theorem item_eq_iff {rule other : Rule} {dot later : Nat} :
    item grammar rule dot = item grammar other later ↔
      itemWords grammar rule dot = itemWords grammar other later := by
  constructor
  · intro same
    have words := congrArg (fun shown : String => Text.wordStrings shown.toList) same
    rwa [← Text.wordStrings_intercalate (isWord_itemWords grammar rule dot),
      ← Text.wordStrings_intercalate (isWord_itemWords grammar other later)]
  · exact fun same => congrArg (fun words => " ".intercalate words) same

theorem isTidy_item (grammar : Grammar) (rule : Rule) (dot : Nat) :
    Text.IsTidy (item grammar rule dot).toList :=
  Text.isTidy_spaced (isWord_itemWords grammar rule dot)

theorem item_ne_empty (grammar : Grammar) (rule : Rule) (dot : Nat) :
    item grammar rule dot ≠ "" := by
  have begins := Text.prefix_intercalate [' '] (grammar.vocabulary.label rule.lhs).toList
    ("→".toList :: (markDot dot (rule.rhs.map grammar.vocabulary.label)).map String.toList)
  have visible := begins.ne_nil (grammar.isWord_label rule.lhs).toList_ne_nil
  rw [item, ← String.toList_inj.ne, String.toList_intercalate]
  exact visible

end Words

section Dots

theorem markDot_append (before after : List String) :
    markDot before.length (before ++ after) = before ++ dotMark :: after := by
  simp [markDot]

theorem markDot_labels (before after : List Symbol) :
    markDot before.length ((before ++ after).map grammar.vocabulary.label) =
      before.map grammar.vocabulary.label ++ dotMark :: after.map grammar.vocabulary.label := by
  rw [List.map_append, ← markDot_append, List.length_map]

/-- A list that is split twice at a mark is split at one place or at two. -/
theorem split_at_mark {α : Type} {mark : α} {before after front behind : List α}
    (same : before ++ mark :: after = front ++ mark :: behind) :
    (before = front ∧ after = behind) ∨
    (∃ between, front = before ++ mark :: between ∧ after = between ++ mark :: behind) ∨
    (∃ between, before = front ++ mark :: between ∧ behind = between ++ mark :: after) := by
  simp only [List.append_eq_append_iff, List.cons_eq_append_iff] at same
  rcases same with ⟨added, rfl, ⟨rfl, tail⟩ | ⟨between, rfl, rfl⟩⟩ |
    ⟨added, rfl, ⟨rfl, tail⟩ | ⟨between, rfl, rfl⟩⟩
  · exact .inl ⟨(List.append_nil before).symm, (List.cons.inj tail).2.symm⟩
  · exact .inr (.inl ⟨between, rfl, rfl⟩)
  · exact .inl ⟨List.append_nil front, (List.cons.inj tail).2⟩
  · exact .inr (.inr ⟨between, rfl, rfl⟩)

theorem exists_split {α : Type} {list : List α} {dot : Nat} (inside : dot ≤ list.length) :
    ∃ before after, list = before ++ after ∧ dot = before.length :=
  ⟨list.take dot, list.drop dot, (List.take_append_drop dot list).symm, by simp [inside]⟩

theorem map_lookup_labels {symbols : List Symbol}
    (known : ∀ symbol ∈ symbols, symbol < grammar.vocabulary.size) :
    (symbols.map grammar.vocabulary.label).map grammar.vocabulary.lookup = symbols.map some := by
  rw [List.map_map]
  exact List.map_congr_left fun symbol inside => Vocabulary.lookup_label (known symbol inside)

theorem SwapsDot.markDot_eq {first second : List Symbol} {dot later : Nat}
    (swaps : SwapsDot grammar first dot second later) :
    markDot dot (first.map grammar.vocabulary.label) =
      markDot later (second.map grammar.vocabulary.label) := by
  obtain ⟨mark, before, between, after, spelled, rfl, rfl, rfl, rfl⟩ := swaps
  rw [markDot_labels, markDot_labels]
  simp [Vocabulary.label_of_name? spelled]

/-- The words tell the place of the dot unless a symbol is spelled like it. -/
theorem eq_or_swapsDot {first second : List Symbol} {dot later : Nat}
    (known : ∀ symbol ∈ first, symbol < grammar.vocabulary.size)
    (again : ∀ symbol ∈ second, symbol < grammar.vocabulary.size)
    (inside : dot ≤ first.length) (within : later ≤ second.length)
    (same : markDot dot (first.map grammar.vocabulary.label) =
      markDot later (second.map grammar.vocabulary.label)) :
    (dot = later ∧ first = second) ∨ SwapsDot grammar first dot second later ∨
      SwapsDot grammar second later first dot := by
  obtain ⟨before, after, rfl, rfl⟩ := exists_split inside
  obtain ⟨front, behind, rfl, rfl⟩ := exists_split within
  rw [List.forall_mem_append] at known again
  -- The words are looked up, and only the dot itself may be unknown.
  have found := congrArg (List.map grammar.vocabulary.lookup) same
  rw [markDot_labels, markDot_labels, List.map_append, List.map_append, List.map_cons,
    List.map_cons, map_lookup_labels known.1, map_lookup_labels known.2, map_lookup_labels again.1,
    map_lookup_labels again.2] at found
  have injective : Function.Injective (List.map (some : Symbol → Option Symbol)) :=
    List.map_injective_iff.2 (Option.some_injective Symbol)
  cases dotted : grammar.vocabulary.lookup dotMark with
  | none =>
      rw [dotted, List.append_cons_inj_of_notMem (by simp) (by simp)] at found
      obtain rfl := injective found.1
      obtain rfl := injective found.2.2
      exact .inl ⟨rfl, rfl⟩
  | some mark =>
      have spelled := Vocabulary.lookup_eq_some.1 dotted
      rw [dotted, ← List.map_cons, ← List.map_cons, ← List.map_append, ← List.map_append] at found
      rcases split_at_mark (injective found) with ⟨rfl, rfl⟩ | ⟨between, rfl, rfl⟩ |
        ⟨between, rfl, rfl⟩
      · exact .inl ⟨rfl, rfl⟩
      · exact .inr (.inl ⟨mark, before, between, behind, spelled, rfl, rfl, rfl, rfl⟩)
      · exact .inr (.inr ⟨mark, front, between, after, spelled, rfl, rfl, rfl, rfl⟩)

/-- Items with one text agree, or else the dot is mistaken for a symbol. -/
theorem item_eq_iff_swapsDot {rule other : Rule} {dot later : Nat} (listed : rule ∈ grammar.rules)
    (again : other ∈ grammar.rules) (inside : dot ≤ rule.rhs.length)
    (within : later ≤ other.rhs.length) :
    item grammar rule dot = item grammar other later ↔ rule.lhs = other.lhs ∧
      ((dot = later ∧ rule.rhs = other.rhs) ∨ SwapsDot grammar rule.rhs dot other.rhs later ∨
        SwapsDot grammar other.rhs later rule.rhs dot) := by
  have known : ∀ symbol ∈ rule.lhs :: rule.rhs, symbol < grammar.vocabulary.size :=
    fun symbol => Grammar.lt_size_of_rule listed
  have named : ∀ symbol ∈ other.lhs :: other.rhs, symbol < grammar.vocabulary.size :=
    fun symbol => Grammar.lt_size_of_rule again
  rw [List.forall_mem_cons] at known named
  rw [item_eq_iff, itemWords, itemWords, List.cons.injEq, List.cons.injEq]
  constructor
  · rintro ⟨heads, -, marked⟩
    have found := congrArg grammar.vocabulary.lookup heads
    rw [Vocabulary.lookup_label known.1, Vocabulary.lookup_label named.1] at found
    exact ⟨Option.some.inj found, eq_or_swapsDot known.2 named.2 inside within marked⟩
  · rintro ⟨heads, ⟨rfl, bodies⟩ | swaps | swaps⟩
    · exact ⟨congrArg _ heads, rfl, by rw [bodies]⟩
    · exact ⟨congrArg _ heads, rfl, swaps.markDot_eq⟩
    · exact ⟨congrArg _ heads, rfl, swaps.markDot_eq.symm⟩

end Dots

section Lines

variable {collection : Collection} {items : ItemSet} {number place : Nat}

theorem withoutLabel_append (number place : Nat) (shown : String) :
    withoutLabel number place (labelColumn number place ++ shown) = shown := by
  rw [withoutLabel, String.toList_append, ← String.length_toList, List.drop_left,
    String.ofList_toList]

theorem state_eq_mapIdx (grammar : Grammar) (number : Nat) (items : ItemSet) :
    state grammar number items =
      (itemTexts grammar items).mapIdx fun place shown => labelColumn number place ++ shown := by
  rw [state]
  split
  · next empty => rw [empty, List.mapIdx_nil]
  · next first others found =>
      rw [found, List.mapIdx_cons]
      refine congrArg _ (List.ext_getElem? fun place => ?_)
      simp [labelColumn]

/-- What is left of a state without the labels are the texts of its items. -/
theorem mapIdx_withoutLabel (grammar : Grammar) (number : Nat) (items : ItemSet) :
    (state grammar number items).mapIdx (withoutLabel number) = itemTexts grammar items := by
  rw [state_eq_mapIdx]
  apply List.ext_getElem?
  intro place
  simp [withoutLabel_append, Function.comp_def]

theorem exists_rule_of_mem_itemTexts {shown : String} (listed : shown ∈ itemTexts grammar items) :
    ∃ rule dot, shown = item grammar rule dot := by
  obtain ⟨marked, _, found⟩ := List.mem_filterMap.1 listed
  obtain ⟨rule, _, rfl⟩ := Option.map_eq_some_iff.1 found
  exact ⟨rule, marked.dot, rfl⟩

theorem unbroken_labelColumn (number place : Nat) : '\n' ∉ (labelColumn number place).toList := by
  have numbered := (Text.isWord_toString number).isTidy.unbroken
  rw [labelColumn, padEnd, String.toList_append, List.mem_append, not_or]
  refine ⟨?_, by simp⟩
  split
  · rw [String.toList_append, List.mem_append, not_or]
    exact ⟨by decide, numbered⟩
  · simp

/-- A line of a state is not empty. -/
theorem isTidy_state {line : String} (listed : line ∈ state grammar number items) :
    Text.IsTidy line.toList ∧ line ≠ "" := by
  rw [state_eq_mapIdx, List.mem_mapIdx] at listed
  obtain ⟨place, inside, rfl⟩ := listed
  obtain ⟨rule, dot, shown⟩ := exists_rule_of_mem_itemTexts (List.getElem_mem inside)
  rw [shown]
  exact Text.isTidy_append (unbroken_labelColumn number place) (isTidy_item grammar rule dot)
    (item_ne_empty grammar rule dot)

/-- The texts of the items are read from the listing, state by state. -/
theorem shownItems_collection (occupied : collection.states ≠ []) :
    shownItems (text (Listing.collection grammar collection)) =
      collection.states.map (itemTexts grammar) := by
  have blocks : ∀ block ∈ collection.states.zipIdx.map fun numbered =>
      state grammar numbered.2 numbered.1, ∀ line ∈ block,
        Text.IsTidy line.toList ∧ line ≠ "" := by
    rw [List.forall_mem_map]
    exact fun numbered _ line => isTidy_state
  have tidy : ∀ line ∈ Listing.collection grammar collection, Text.IsTidy line.toList := by
    apply Text.forall_mem_intercalate
    · simp [Text.isTidy_nil]
    · exact fun block listed line inside => (blocks block listed line inside).1
  have visible : ∀ block ∈ collection.states.zipIdx.map fun numbered =>
      state grammar numbered.2 numbered.1, "" ∉ block :=
    fun block listed inside => (blocks block listed "" inside).2 rfl
  have lines : (Text.lines (text (Listing.collection grammar collection)).toList).map
      String.ofList = Listing.collection grammar collection := by
    rw [lines_text tidy, List.map_map]
    simp [Function.comp_def]
  rw [shownItems, lines, Listing.collection, List.splitOn_intercalate "" visible (by simpa)]
  apply List.ext_getElem?
  intro number
  simp [mapIdx_withoutLabel, Function.comp_def]

theorem getElem?_itemTexts {marked : Item} {rule : Rule}
    (known : ∀ item ∈ items, grammar.IsItem item) (listed : items.toList[place]? = some marked)
    (found : grammar.rules[marked.rule]? = some rule) :
    (itemTexts grammar items)[place]? = some (item grammar rule marked.dot) := by
  -- No item is left out, so the texts keep the places of the items.
  have kept : itemTexts grammar items = items.toList.map fun marked =>
      item grammar (grammar.rules[marked.rule]?.getD ⟨0, []⟩) marked.dot := by
    rw [itemTexts, ← List.filterMap_eq_map]
    refine List.filterMap_congr fun marked member => ?_
    obtain ⟨rule, found, _⟩ := known marked member
    simp [found]
  simp [kept, listed, found]

/-- Each item of the collection is shown at its place. -/
theorem shownItem?_of_item? {marked : Item}
    (listed : grammar.collection.item? number place = some marked) :
    ∃ rule ∈ grammar.rules, grammar.rules[marked.rule]? = some rule ∧
      marked.dot ≤ rule.rhs.length ∧
      shownItem? (text (Listing.collection grammar grammar.collection)) number place =
        some (item grammar rule marked.dot) := by
  obtain ⟨items, there, placed⟩ := Option.bind_eq_some_iff.1 listed
  have state := List.mem_of_getElem? there
  have known : ∀ item ∈ items, grammar.IsItem item := fun item => Grammar.isItem_states state
  obtain ⟨rule, found, inside⟩ := known marked (List.mem_of_getElem? placed)
  refine ⟨rule, List.mem_of_getElem? found, found, inside, ?_⟩
  rw [shownItem?, shownItems_collection (List.ne_nil_of_mem state), List.getElem?_map, there]
  exact getElem?_itemTexts known placed found

end Lines

end Listing

namespace CompiledGrammar

open Listing

/-- The lines are written one below the other. -/
def itemListing (compiled : CompiledGrammar) : String :=
  text (Listing.collection compiled.grammar compiled.collection)

/--
Each item has its text in the listing. Two items have the same text exactly when their rules have
the same left-hand side and either the dots and the right-hand sides agree, too, or the dot has
changed places with a symbol that is spelled like it.
-/
theorem same_text_iff (compiled : CompiledGrammar) {number place other behind : Nat}
    {first second : Item} (listed : compiled.collection.item? number place = some first)
    (again : compiled.collection.item? other behind = some second) :
    (shownItem? compiled.itemListing number place).isSome ∧
    ∃ rule later, compiled.grammar.rules[first.rule]? = some rule ∧
      compiled.grammar.rules[second.rule]? = some later ∧
      (shownItem? compiled.itemListing number place = shownItem? compiled.itemListing other behind ↔
        rule.lhs = later.lhs ∧
          ((first.dot = second.dot ∧ rule.rhs = later.rhs) ∨
            SwapsDot compiled.grammar rule.rhs first.dot later.rhs second.dot ∨
            SwapsDot compiled.grammar later.rhs second.dot rule.rhs first.dot)) := by
  obtain ⟨grammar, collection, table, rfl, _⟩ := compiled
  obtain ⟨rule, ruleListed, found, inside, shown⟩ := shownItem?_of_item? listed
  obtain ⟨later, laterListed, there, within, seen⟩ := shownItem?_of_item? again
  refine ⟨Option.isSome_iff_exists.2 ⟨_, shown⟩, rule, later, found, there, ?_⟩
  rw [itemListing, shown, seen, Option.some.injEq]
  exact item_eq_iff_swapsDot ruleListed laterListed inside within

/-- The names look like the marks of the listing, and the dot passes two symbols unseen. -/
theorem same_text_iff_marks : ∃ compiled, ofText "• → • •\n• a" = .ok compiled ∧
    compiled.collection.item? 2 0 = some ⟨1, 1⟩ ∧ compiled.collection.item? 5 0 = some ⟨1, 3⟩ ∧
    SwapsDot compiled.grammar [2, 1, 1] 1 [2, 1, 1] 3 ∧
    shownItem? compiled.itemListing 2 0 = shownItem? compiled.itemListing 5 0 := by
  obtain ⟨compiled, compiles, checked⟩ := exists_of_ofText "• → • •\n• a" (fun compiled => decide
    (compiled.collection.item? 2 0 = some ⟨1, 1⟩ ∧ compiled.collection.item? 5 0 = some ⟨1, 3⟩ ∧
      compiled.grammar.rules[1]? = some (Rule.mk 1 [2, 1, 1]) ∧
      compiled.grammar.vocabulary.name? 1 = some dotMark)) (by decide +kernel)
  obtain ⟨first, second, found, spelled⟩ := of_decide_eq_true checked
  have swaps : SwapsDot compiled.grammar [2, 1, 1] 1 [2, 1, 1] 3 :=
    ⟨1, [2], [1], [], spelled, rfl, rfl, rfl, rfl⟩
  obtain ⟨_, rule, later, foundRule, foundLater, same⟩ := same_text_iff compiled first second
  obtain rfl := Option.some.inj (foundRule.symm.trans found)
  obtain rfl := Option.some.inj (foundLater.symm.trans found)
  exact ⟨compiled, compiles, first, second, swaps, same.2 ⟨rfl, .inr (.inl swaps)⟩⟩

/-- A symbol that is spelled like the dot lets two items of different rules look the same. -/
theorem same_text_other_dot : ∃ compiled, ofText "S • a\nS a •" = .ok compiled ∧
    ∃ first second rule later,
      compiled.collection.item? 0 2 = some first ∧ compiled.collection.item? 4 0 = some second ∧
      compiled.grammar.rules[first.rule]? = some rule ∧
      compiled.grammar.rules[second.rule]? = some later ∧
      shownItem? compiled.itemListing 0 2 = some "S → • a •" ∧
      shownItem? compiled.itemListing 4 0 = some "S → • a •" ∧
      first.dot ≠ second.dot ∧ rule.rhs ≠ later.rhs := by
  obtain ⟨compiled, compiles, checked⟩ := exists_of_ofText "S • a\nS a •" (fun compiled => decide
    (compiled.collection.item? 0 2 = some ⟨2, 0⟩ ∧ compiled.collection.item? 4 0 = some ⟨1, 2⟩ ∧
      compiled.grammar.rules[2]? = some (Rule.mk 1 [3, 2]) ∧
      compiled.grammar.rules[1]? = some (Rule.mk 1 [2, 3]) ∧
      shownItem? compiled.itemListing 0 2 = some "S → • a •" ∧
      shownItem? compiled.itemListing 4 0 = some "S → • a •")) (by decide +kernel)
  obtain ⟨first, second, rule, later, shown, seen⟩ := of_decide_eq_true checked
  exact ⟨compiled, compiles, _, _, _, _, first, second, rule, later, shown, seen, by decide,
    by decide⟩

end CompiledGrammar

end ShiftReduce
