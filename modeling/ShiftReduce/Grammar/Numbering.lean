/-
This file numbers the names of productions and thereby builds a grammar from them.
-/

import ShiftReduce.Grammar.Basic
import ShiftReduce.Grammar.StartName
import ShiftReduce.Vocabulary.Lemmas

namespace ShiftReduce

namespace Grammar

/-- The added production leads to the head of the first production. -/
def augment (first : Production) (others : List Production) : List Production :=
  let taken := (first :: others).flatMap Production.words
  { head := freshStartName taken
    body := [first.head]
    body_nonempty := by simp
    words_allowed := fun word listed => by
      rcases List.mem_cons.1 listed with rfl | listed
      · exact freshStartName_allowed taken
      · rw [List.mem_singleton.1 listed]
        exact first.words_allowed _ List.mem_cons_self } :: first :: others

def headVocabulary (productions : List Production) : Vocabulary :=
  Vocabulary.empty.internNonterminals (productions.map Production.head)

def wordVocabulary (productions : List Production) : Vocabulary :=
  (headVocabulary productions).internTerminals (productions.flatMap Production.body)

/-- Nonterminals are numbered first, then terminals, each in the order of first occurrence. -/
def vocabularyOf (productions : List Production) : Vocabulary :=
  (wordVocabulary productions).internEndMarker

def ruleOf (vocabulary : Vocabulary) (production : Production) : Rule :=
  ⟨vocabulary.position production.head, production.body.map vocabulary.position⟩

def rulesOf (productions : List Production) : List Rule :=
  productions.map (ruleOf (vocabularyOf productions))

section Numbering

variable {productions : List Production}

theorem mem_names_headVocabulary {name : String} :
    name ∈ (headVocabulary productions).names ↔
      ∃ production ∈ productions, production.head = name := by
  rw [headVocabulary, Vocabulary.mem_names_internNonterminals, List.mem_map]
  exact ⟨fun either => either.elim (fun none => absurd none List.not_mem_nil) id, Or.inr⟩

theorem mem_names_wordVocabulary {name : String} :
    name ∈ (wordVocabulary productions).names ↔
      ∃ production ∈ productions, name ∈ production.words := by
  simp only [wordVocabulary, Vocabulary.mem_names_internTerminals, mem_names_headVocabulary,
    List.mem_flatMap, Production.words, List.mem_cons]
  constructor
  · rintro (⟨production, listed, rfl⟩ | ⟨production, listed, inside⟩)
    · exact ⟨production, listed, Or.inl rfl⟩
    · exact ⟨production, listed, Or.inr inside⟩
  · rintro ⟨production, listed, rfl | inside⟩
    · exact Or.inl ⟨production, listed, rfl⟩
    · exact Or.inr ⟨production, listed, inside⟩

theorem allowed_of_mem_names {name : String} (known : name ∈ (wordVocabulary productions).names) :
    Text.IsWord name ∧ name ≠ endMarkerName := by
  obtain ⟨production, _, inside⟩ := mem_names_wordVocabulary.1 known
  exact production.words_allowed name inside

theorem entries_vocabularyOf (productions : List Production) :
    (vocabularyOf productions).entries =
      (wordVocabulary productions).entries ++ [(endMarkerName, .endMarker)] := by
  have fresh : endMarkerName ∉ (wordVocabulary productions).names :=
    fun known => (allowed_of_mem_names known).2 rfl
  rw [vocabularyOf, Vocabulary.internEndMarker, Vocabulary.entries_intern, if_neg fresh]

theorem headNames_prefix_words (productions : List Production) :
    (headVocabulary productions).names <+: (wordVocabulary productions).names :=
  Vocabulary.names_prefix_internTerminals _ _

theorem wordNames_prefix_vocabulary (productions : List Production) :
    (wordVocabulary productions).names <+: (vocabularyOf productions).names :=
  Vocabulary.names_prefix_intern _ _ _

theorem headNames_prefix_vocabulary (productions : List Production) :
    (headVocabulary productions).names <+: (vocabularyOf productions).names :=
  (headNames_prefix_words productions).trans (wordNames_prefix_vocabulary productions)

theorem lastSymbol_vocabularyOf (productions : List Production) :
    (vocabularyOf productions).lastSymbol = (wordVocabulary productions).size := by
  simp [Vocabulary.lastSymbol, Vocabulary.size, entries_vocabularyOf]

theorem position_lt_lastSymbol {name : String}
    (known : name ∈ (wordVocabulary productions).names) :
    (vocabularyOf productions).position name < (vocabularyOf productions).lastSymbol := by
  rw [lastSymbol_vocabularyOf,
    Vocabulary.position_of_prefix (wordNames_prefix_vocabulary productions) known]
  exact Vocabulary.position_lt_size.2 known

end Numbering

section Ordering

variable (first : Production) (others : List Production)

theorem names_prefix_headVocabulary :
    [first.head] <+: (headVocabulary (first :: others)).names :=
  Vocabulary.names_prefix_internNonterminals (Vocabulary.empty.internNonterminal first.head)
    (others.map Production.head)

theorem kinds_headVocabulary : ∃ count, (headVocabulary (first :: others)).kinds =
    .start :: List.replicate count .nonterminal :=
  have started : (Vocabulary.empty.internNonterminal first.head).isEmpty = false := rfl
  Vocabulary.kinds_internNonterminals started (others.map Production.head)

theorem kinds_vocabularyOf : ∃ count terminals,
    (headVocabulary (first :: others)).size = count + 1 ∧
    (vocabularyOf (first :: others)).kinds =
      .start :: List.replicate count .nonterminal ++ List.replicate terminals .terminal ++
        [.endMarker] := by
  obtain ⟨count, heads⟩ := kinds_headVocabulary first others
  obtain ⟨terminals, words⟩ := (headVocabulary (first :: others)).kinds_internTerminals
    ((first :: others).flatMap Production.body)
  refine ⟨count, terminals, ?_, ?_⟩
  · rw [← Vocabulary.length_kinds, heads]
    simp
  · have words : (wordVocabulary (first :: others)).kinds = _ := words
    rw [Vocabulary.kinds, entries_vocabularyOf, List.map_append]
    change (wordVocabulary (first :: others)).kinds ++ [.endMarker] = _
    rw [words, heads]

theorem nonterminalCount_vocabularyOf :
    (vocabularyOf (first :: others)).nonterminalCount =
      (headVocabulary (first :: others)).size := by
  obtain ⟨count, terminals, size, kinds⟩ := kinds_vocabularyOf first others
  rw [Vocabulary.nonterminalCount, kinds, size, List.countP_append, List.countP_append,
    List.countP_cons, List.countP_replicate, List.countP_replicate]
  rfl

theorem name?_zero : (vocabularyOf (first :: others)).name? 0 = some first.head := by
  have grown := (names_prefix_headVocabulary first others).trans
    (headNames_prefix_vocabulary _)
  rw [Vocabulary.name?_eq_getElem?]
  exact List.prefix_iff_getElem?.1 grown 0 (by simp)

end Ordering

theorem isWord_endMarkerName : Text.IsWord endMarkerName := by
  refine ⟨by decide, fun character inside => ?_⟩
  have inside : character ∈ ['$'] := inside
  rw [List.mem_singleton.1 inside]
  rfl

section Building

variable (first : Production) (others : List Production)

theorem augment_ne_start {production : Production} (listed : production ∈ first :: others)
    {word : String} (inside : word ∈ production.words) :
    word ≠ freshStartName ((first :: others).flatMap Production.words) := fun same =>
  freshStartName_not_mem _ (same ▸ List.mem_flatMap.2 ⟨production, listed, inside⟩)

/-- Only the added start symbol has position 0. -/
theorem position_ne_zero {production : Production} (listed : production ∈ first :: others)
    {word : String} (inside : word ∈ production.words) :
    (vocabularyOf (augment first others)).position word ≠ 0 := fun zero => by
  have known : word ∈ (vocabularyOf (augment first others)).names :=
    (wordNames_prefix_vocabulary _).subset
      (mem_names_wordVocabulary.2 ⟨production, List.mem_cons_of_mem _ listed, inside⟩)
  have named := Vocabulary.name?_position known
  rw [zero, augment, name?_zero] at named
  exact augment_ne_start first others listed inside (Option.some.inj named).symm

theorem position_start :
    (vocabularyOf (augment first others)).position
      (freshStartName ((first :: others).flatMap Production.words)) = 0 :=
  Vocabulary.position_of_name? (name?_zero _ _)

/-- The declared start symbol comes right behind the added one. -/
theorem position_declared :
    (vocabularyOf (augment first others)).position first.head = 1 := by
  have different :
      first.head ≠ freshStartName ((first :: others).flatMap Production.words) :=
    augment_ne_start first others List.mem_cons_self List.mem_cons_self
  have two : [freshStartName ((first :: others).flatMap Production.words), first.head] <+:
      (headVocabulary (augment first others)).names := by
    have grown := Vocabulary.names_prefix_internNonterminals
      ((Vocabulary.empty.internNonterminal
        (freshStartName ((first :: others).flatMap Production.words))).internNonterminal
          first.head) (others.map Production.head)
    rw [Vocabulary.internNonterminal, Vocabulary.names, Vocabulary.entries_intern,
      if_neg (by
        change first.head ∉ [freshStartName ((first :: others).flatMap Production.words)]
        simpa using different)] at grown
    exact grown
  have grown := two.trans (headNames_prefix_vocabulary _)
  refine Vocabulary.position_of_name? ?_
  rw [Vocabulary.name?_eq_getElem?]
  exact List.prefix_iff_getElem?.1 grown 1 (by simp)

theorem rulesOf_augment :
    rulesOf (augment first others) =
      ⟨0, [1]⟩ :: (first :: others).map (ruleOf (vocabularyOf (augment first others))) := by
  refine congrArg (· :: (first :: others).map (ruleOf (vocabularyOf (augment first others)))) ?_
  change Rule.mk ((vocabularyOf (augment first others)).position
      (freshStartName ((first :: others).flatMap Production.words)))
    [(vocabularyOf (augment first others)).position first.head] = ⟨0, [1]⟩
  rw [position_start, position_declared]

theorem wellFormed_augment :
    WellFormed (rulesOf (augment first others)) (vocabularyOf (augment first others)) where
  kinds_ordered := by
    obtain ⟨count, terminals, _, kinds⟩ := kinds_vocabularyOf _ (first :: others)
    exact ⟨count, terminals, kinds⟩
  end_named := by
    rw [lastSymbol_vocabularyOf, Vocabulary.name?, entries_vocabularyOf, Vocabulary.size]
    simp
  names_words name known := by
    rw [Vocabulary.names, entries_vocabularyOf, List.map_append, List.mem_append] at known
    rcases known with known | last
    · exact (allowed_of_mem_names known).1
    · rw [List.mem_singleton.1 last]
      exact isWord_endMarkerName
  start_rule := by rw [rulesOf_augment]; rfl
  declared_rule := by
    rw [rulesOf_augment]
    exact congrArg some (position_declared first others)
  lhs_nonterminal rule listed := by
    obtain ⟨production, written, rfl⟩ := List.mem_map.1 listed
    rw [show augment first others = _ :: first :: others from rfl, nonterminalCount_vocabularyOf]
    have known : production.head ∈ (headVocabulary (augment first others)).names :=
      mem_names_headVocabulary.2 ⟨production, written, rfl⟩
    have inside := Vocabulary.position_lt_size.2 known
    rw [← Vocabulary.position_of_prefix
      (headNames_prefix_vocabulary (augment first others)) known] at inside
    exact inside
  lhs_later rule listed := by
    rw [rulesOf_augment, List.tail_cons] at listed
    obtain ⟨production, written, rfl⟩ := List.mem_map.1 listed
    exact position_ne_zero first others written List.mem_cons_self
  rhs_nonempty rule listed := by
    obtain ⟨production, _, rfl⟩ := List.mem_map.1 listed
    simpa [ruleOf] using production.body_nonempty
  rhs_inner rule listed symbol inside := by
    obtain ⟨production, written, rfl⟩ := List.mem_map.1 listed
    obtain ⟨word, used, rfl⟩ := List.mem_map.1 inside
    constructor
    · rcases List.mem_cons.1 written with rfl | later
      · rw [List.mem_singleton.1 used]
        exact position_ne_zero first others List.mem_cons_self List.mem_cons_self
      · exact position_ne_zero first others later (List.mem_cons_of_mem _ used)
    · exact position_lt_lastSymbol
        (mem_names_wordVocabulary.2 ⟨production, written, List.mem_cons_of_mem _ used⟩)

end Building

def ofProductions (first : Production) (others : List Production) : Grammar :=
  ⟨rulesOf (augment first others), vocabularyOf (augment first others),
    wellFormed_augment first others⟩

/-- A text without productions is refused. -/
def ofText (text : String) : Except GrammarError Grammar :=
  match Production.ofText text with
  | .error fault => .error fault
  | .ok [] => .error .empty
  | .ok (first :: others) => .ok (ofProductions first others)

end Grammar

end ShiftReduce
