/-
This file builds an isomorphism of two grammars whose lines differ in order and in spelling only.
-/

import Mathlib.Data.List.Nodup
import Mathlib.Data.Set.Function
import Mathlib.Logic.Equiv.Basic
import ShiftReduce.Proofs.Grammar.Isomorphism
import ShiftReduce.Proofs.Grammar.Translation

namespace ShiftReduce

/-- All places move up by one, and the first place stays. -/
def liftPlaces (places : Equiv.Perm Nat) : Equiv.Perm Nat where
  toFun
    | 0 => 0
    | index + 1 => places index + 1
  invFun
    | 0 => 0
    | index + 1 => places.symm index + 1
  left_inv index := by cases index <;> simp
  right_inv index := by cases index <;> simp

/-- A list in another order has its elements at other places. -/
theorem exists_places {α : Type} {first second : List α} (permuted : first.Perm second) :
    ∃ places : Equiv.Perm Nat, ∀ index, second[places index]? = first[index]? := by
  induction permuted with
  | nil => exact ⟨Equiv.refl Nat, fun index => rfl⟩
  | cons head _ ih =>
      obtain ⟨places, same⟩ := ih
      refine ⟨liftPlaces places, fun index => ?_⟩
      cases index with
      | zero => rfl
      | succ index => exact same index
  | swap first second rest =>
      refine ⟨Equiv.swap 0 1, fun index => ?_⟩
      match index with
      | 0 => simp
      | 1 => simp
      | index + 2 =>
          rw [Equiv.swap_apply_of_ne_of_ne (by omega) (by omega)]
          rfl
  | trans _ _ front back =>
      obtain ⟨places, same⟩ := front
      obtain ⟨others, again⟩ := back
      exact ⟨places.trans others, fun index => (again (places index)).trans (same index)⟩

namespace Grammar

/--
The target lines are the renamed source lines in any order, and the first of them begins with the
renamed first word of the source.
-/
structure Rearranges (rename : String → String) (source target : List (List String)) : Prop where
  injective : Set.InjOn rename {word | Text.IsWord word}
  permuted : target.Perm (source.map (List.map rename))
  first : target.head?.bind List.head? = (source.head?.bind List.head?).map rename

section Entries

variable {lines : List (List String)} {start declared name word : String} {kind : SymbolKind}
  {grammar : Grammar}

theorem mem_flatten_iff : word ∈ lines.flatten ↔
    word ∈ lines.flatMap (List.take 1) ∨ word ∈ lines.flatMap (List.drop 1) := by
  have each (line : List String) : word ∈ line ↔ word ∈ line.take 1 ∨ word ∈ line.drop 1 := by
    rw [← List.mem_append, List.take_append_drop]
  simp only [List.mem_flatten, List.mem_flatMap, ← exists_or, ← and_or_left, ← each]

/-- The kind of a name tells where the name stands in the lines. -/
def Stands (start : String) (lines : List (List String)) (name : String) : SymbolKind → Prop
  | .start => name = start
  | .nonterminal => name ∈ lines.flatMap (List.take 1)
  | .terminal => name ∈ lines.flatMap (List.drop 1) ∧ name ∉ lines.flatMap (List.take 1)
  | .endMarker => name = endMarkerName

theorem mem_entriesOf : (name, kind) ∈ entriesOf start lines ↔ Stands start lines name kind := by
  simp only [entriesOf, List.mem_append, List.mem_cons, List.mem_map, List.mem_eraseDups,
    List.removeAll, List.mem_filter, Bool.not_eq_true', Prod.mk.injEq,
    List.not_mem_nil, decide_eq_false_iff_not, List.elem_eq_mem]
  cases kind <;> simp [Stands]

/-- The words of the lines are the nonterminals and the terminals. -/
theorem mem_flatten_iff_stands : name ∈ lines.flatten ↔
    Stands start lines name .nonterminal ∨ Stands start lines name .terminal := by
  rw [mem_flatten_iff]
  simp only [Stands]
  grind

variable (translates : Translates lines start declared grammar)

include translates

theorem Translates.mem_names_of_stands (stands : Stands start lines name kind) :
    name ∈ grammar.vocabulary.names := by
  rw [Vocabulary.names, translates.entries]
  exact List.mem_map_of_mem (f := Prod.fst) (mem_entriesOf.2 stands)

/-- A name stands for one kind of symbols. -/
theorem Translates.kind_unique {again : SymbolKind} (one : Stands start lines name kind)
    (two : Stands start lines name again) : kind = again := by
  have distinct := grammar.vocabulary.names_nodup
  rw [translates.entries] at distinct
  exact congrArg Prod.snd
    (List.inj_on_of_nodup_map distinct (mem_entriesOf.2 one) (mem_entriesOf.2 two) rfl)

theorem Translates.not_mem_flatten (stands : Stands start lines name kind)
    (first : kind ≠ .nonterminal) (second : kind ≠ .terminal) : name ∉ lines.flatten := by
  intro inside
  rcases mem_flatten_iff_stands.1 inside with head | other
  · exact first (translates.kind_unique stands head)
  · exact second (translates.kind_unique stands other)

/-- The added names are different, and they are no words of the lines. -/
theorem Translates.apart :
    start ∉ lines.flatten ∧ endMarkerName ∉ lines.flatten ∧ start ≠ endMarkerName := by
  have begins : Stands start lines start .start := rfl
  have ends : Stands start lines endMarkerName .endMarker := rfl
  refine ⟨translates.not_mem_flatten begins (by simp) (by simp),
    translates.not_mem_flatten ends (by simp) (by simp), fun same => ?_⟩
  cases translates.kind_unique begins (same ▸ ends : Stands start lines start .endMarker)

theorem Translates.stands_of_isTerminal {symbol : Symbol}
    (terminal : grammar.isTerminal symbol = true)
    (named : grammar.vocabulary.name? symbol = some name) : Stands start lines name .terminal := by
  rw [isTerminal, Vocabulary.isTerminal, beq_iff_eq, Vocabulary.kind?] at terminal
  obtain ⟨⟨spelled, _⟩, found, rfl⟩ := Option.map_eq_some_iff.1 terminal
  rw [Vocabulary.name?, found, Option.map_some, Option.some.injEq] at named
  subst named
  exact mem_entriesOf.1 (translates.entries ▸ List.mem_of_getElem? found)

theorem Translates.isWord {word : String} (inside : word ∈ lines.flatten) : Text.IsWord word := by
  rcases mem_flatten_iff_stands.1 inside with stands | stands
  · exact grammar.wellFormed.names_words word (translates.mem_names_of_stands stands)
  · exact grammar.wellFormed.names_words word (translates.mem_names_of_stands stands)

end Entries

/-- The added names keep their roles, and all other names are words of the lines. -/
def renameName (rename : String → String) (start other name : String) : String :=
  if name = start then other
  else if name = endMarkerName then endMarkerName
  else rename name

section Renamed

variable {rename : String → String} {sourceLines targetLines : List (List String)}
  {start other declared first : String} {source target : Grammar}

theorem renameName_start : renameName rename start other start = other :=
  if_pos rfl

variable (reads : Translates sourceLines start declared source)
  (writes : Translates targetLines other first target)
  (rearranges : Rearranges rename sourceLines targetLines)

include reads

theorem renameName_endMarker :
    renameName rename start other endMarkerName = endMarkerName := by
  simp [renameName, reads.apart.2.2.symm]

theorem renameName_word {word : String} (inside : word ∈ sourceLines.flatten) :
    renameName rename start other word = rename word := by
  obtain ⟨notStart, notEnd, _⟩ := reads.apart
  have first : word ≠ start := fun same => notStart (same ▸ inside)
  have last : word ≠ endMarkerName := fun same => notEnd (same ▸ inside)
  rw [renameName, if_neg first, if_neg last]

omit reads

include rearranges

/-- A renamed line gives its renamed words, cut in whatever way. -/
theorem Rearranges.mem_flatMap {cut : List String → List String}
    (natural : ∀ line : List String, cut (line.map rename) = (cut line).map rename)
    {word : String} : word ∈ targetLines.flatMap cut ↔
      ∃ old ∈ sourceLines.flatMap cut, rename old = word := by
  rw [(rearranges.permuted.flatMap_right cut).mem_iff, List.flatMap_map]
  simp only [natural, List.mem_flatMap, List.mem_map]
  grind

include reads

/-- The renamed names stand where the names of the source stand. -/
theorem Rearranges.stands_iff {name : String} {kind : SymbolKind} :
    Stands other targetLines name kind ↔
      ∃ old, Stands start sourceLines old kind ∧ renameName rename start other old = name := by
  have heads (word : String) : word ∈ targetLines.flatMap (List.take 1) ↔
      ∃ old ∈ sourceLines.flatMap (List.take 1), rename old = word :=
    rearranges.mem_flatMap (by simp)
  have others (word : String) : word ∈ targetLines.flatMap (List.drop 1) ↔
      ∃ old ∈ sourceLines.flatMap (List.drop 1), rename old = word :=
    rearranges.mem_flatMap (by simp)
  have kept {old : String} (inside : old ∈ sourceLines.flatten) :
      renameName rename start other old = rename old := renameName_word reads inside
  cases kind with
  | start => simp [Stands, renameName_start, eq_comm]
  | nonterminal =>
      simp only [Stands, heads]
      refine exists_congr fun old => and_congr_right fun inside => ?_
      rw [kept (mem_flatten_iff.2 (.inl inside))]
  | terminal =>
      simp only [Stands, heads, others]
      constructor
      · rintro ⟨⟨old, inside, rfl⟩, fresh⟩
        refine ⟨old, ⟨inside, fun head => fresh ⟨old, head, rfl⟩⟩, ?_⟩
        rw [kept (mem_flatten_iff.2 (.inr inside))]
      · rintro ⟨old, ⟨inside, fresh⟩, rfl⟩
        have word := mem_flatten_iff.2 (.inr inside)
        rw [kept word]
        refine ⟨⟨old, inside, rfl⟩, ?_⟩
        -- A renamed word begins no line unless the word itself does, since words stay different.
        rintro ⟨again, head, same⟩
        have equal := rearranges.injective (reads.isWord (mem_flatten_iff.2 (.inl head)))
          (reads.isWord word) same
        exact fresh (equal ▸ head)
  | endMarker => simp [Stands, renameName_endMarker reads, eq_comm]

/-- Names of one kind stay different. -/
theorem Rearranges.renameName_inj {name old : String} {kind : SymbolKind}
    (one : Stands start sourceLines name kind) (two : Stands start sourceLines old kind)
    (same : renameName rename start other name = renameName rename start other old) :
    name = old := by
  have words (inside : name ∈ sourceLines.flatten) (again : old ∈ sourceLines.flatten) :
      name = old := by
    rw [renameName_word reads inside, renameName_word reads again] at same
    exact rearranges.injective (reads.isWord inside) (reads.isWord again) same
  cases kind with
  | start => exact one.trans two.symm
  | nonterminal =>
      exact words (mem_flatten_iff_stands.2 (.inl one)) (mem_flatten_iff_stands.2 (.inl two))
  | terminal =>
      exact words (mem_flatten_iff_stands.2 (.inr one)) (mem_flatten_iff_stands.2 (.inr two))
  | endMarker => exact one.trans two.symm

include writes

theorem Rearranges.entries_perm : target.vocabulary.entries.Perm
    (source.vocabulary.entries.map (Prod.map (renameName rename start other) id)) := by
  have distinct (grammar : Grammar) := List.Nodup.of_map Prod.fst grammar.vocabulary.names_nodup
  rw [List.perm_ext_iff_of_nodup (distinct target)]
  · rintro ⟨name, kind⟩
    rw [writes.entries, reads.entries, mem_entriesOf, rearranges.stands_iff reads, List.mem_map]
    simp [mem_entriesOf]
  · apply List.Nodup.map_on _ (distinct source)
    rintro ⟨name, kind⟩ listed ⟨old, again⟩ member same
    rw [reads.entries, mem_entriesOf] at listed member
    obtain ⟨names, rfl⟩ := Prod.mk.inj same
    rw [rearranges.renameName_inj reads listed member names]
    rfl

/-- The added rule and the lines are the renamed ones of the source. -/
theorem Rearranges.lines_perm : ([other, first] :: targetLines).Perm
    (([start, declared] :: sourceLines).map (List.map (renameName rename start other))) := by
  have heads := rearranges.first
  rw [writes.first, reads.first, Option.map_some, Option.some.injEq] at heads
  have inside : declared ∈ sourceLines.flatten := by
    obtain ⟨line, listed, head⟩ := Option.bind_eq_some_iff.1 reads.first
    exact List.mem_flatten.2 ⟨line, List.mem_of_mem_head? listed, List.mem_of_mem_head? head⟩
  have same : sourceLines.map (List.map (renameName rename start other)) =
      sourceLines.map (List.map rename) := by
    apply List.map_congr_left
    intro line listed
    apply List.map_congr_left
    intro word inside
    exact renameName_word reads (List.mem_flatten.2 ⟨line, listed, inside⟩)
  rw [List.map_cons, List.map_cons, List.map_singleton, renameName_start,
    renameName_word reads inside, ← heads, same]
  exact rearranges.permuted.cons _

/-- The rules of the source give those of the target when their symbols are renamed. -/
theorem Rearranges.rules_perm {symbols : Symbol → Symbol}
    (named : ∀ symbol, target.vocabulary.name? (symbols symbol) =
      (source.vocabulary.name? symbol).map (renameName rename start other)) :
    (target.rules.map target.ruleNames).Perm
      ((source.rules.map (Rule.rename symbols)).map target.ruleNames) := by
  -- Nothing is said about the rules of the target here, only about how renamed rules are written.
  have renamed (rule : Rule) : target.ruleNames (rule.rename symbols) =
      (source.ruleNames rule).map (Option.map (renameName rename start other)) := by
    simp [ruleNames, Rule.rename, named, Function.comp_def]
  have both : (source.rules.map (Rule.rename symbols)).map target.ruleNames =
      (source.rules.map source.ruleNames).map
        (List.map (Option.map (renameName rename start other))) := by
    simp [renamed, Function.comp_def]
  have spelled := (rearranges.lines_perm reads writes).map (List.map some)
  rw [both, writes.rules, reads.rules]
  simpa [Function.comp_def] using spelled

/-- Grammars of rearranged lines are isomorphic, and their terminals have corresponding names. -/
theorem Rearranges.exists_isomorphism : ∃ iso : Isomorphism source target, ∀ symbol,
    source.isTerminal symbol = true → target.vocabulary.name? (iso.symbols symbol) =
      (source.vocabulary.name? symbol).map rename := by
  obtain ⟨symbols, entries⟩ := exists_places (rearranges.entries_perm reads writes).symm
  have named (symbol : Symbol) : target.vocabulary.name? (symbols symbol) =
      (source.vocabulary.name? symbol).map (renameName rename start other) := by
    rw [Vocabulary.name?, entries, Vocabulary.name?, List.getElem?_map]
    simp [Function.comp_def]
  obtain ⟨rules, places⟩ := exists_places (rearranges.rules_perm reads writes named).symm
  refine ⟨⟨symbols, rules, ?_, ?_⟩, ?_⟩
  · intro symbol
    rw [Vocabulary.kind?, entries, Vocabulary.kind?, List.getElem?_map]
    simp [Function.comp_def]
  · intro index
    -- The rules at corresponding places have the same names, and names tell a rule.
    have same := places index
    rw [List.getElem?_map, List.getElem?_map, List.getElem?_map] at same
    cases found : source.rules[index]? with
    | none => simpa [found] using same
    | some rule =>
        rw [found, Option.map_some, Option.map_some, Option.map_eq_some_iff] at same
        obtain ⟨image, placed, names⟩ := same
        rw [placed, Option.map_some, writes.eq_of_ruleNames (List.mem_of_getElem? placed) names]
  · intro symbol terminal
    rw [named]
    cases spelled : source.vocabulary.name? symbol with
    | none => rfl
    | some name =>
        have stands := reads.stands_of_isTerminal terminal spelled
        have inside := mem_flatten_iff_stands.2 (.inr stands)
        rw [Option.map_some, renameName_word reads inside, Option.map_some]

end Renamed

end Grammar

end ShiftReduce
