/-
This file states how positions, names and kinds behave when names are interned.
-/

import ShiftReduce.Vocabulary.Basic

namespace ShiftReduce.Vocabulary

theorem length_names (vocabulary : Vocabulary) : vocabulary.names.length = vocabulary.size := by
  simp [names, size]

theorem length_kinds (vocabulary : Vocabulary) : vocabulary.kinds.length = vocabulary.size := by
  simp [kinds, size]

theorem name?_eq_getElem? (vocabulary : Vocabulary) (symbol : Symbol) :
    vocabulary.name? symbol = vocabulary.names[symbol]? := by
  simp [name?, names]

theorem kind?_eq_getElem? (vocabulary : Vocabulary) (symbol : Symbol) :
    vocabulary.kind? symbol = vocabulary.kinds[symbol]? := by
  simp [kind?, kinds]

theorem position_lt_size {vocabulary : Vocabulary} {name : String} :
    vocabulary.position name < vocabulary.size ↔ name ∈ vocabulary.names := by
  rw [position, ← length_names, List.findIdx_lt_length]
  simp

theorem name?_position {vocabulary : Vocabulary} {name : String}
    (known : name ∈ vocabulary.names) :
    vocabulary.name? (vocabulary.position name) = some name := by
  have inside : vocabulary.position name < vocabulary.names.length := by
    rw [length_names]
    exact position_lt_size.2 known
  rw [name?_eq_getElem?, List.getElem?_eq_getElem inside]
  exact congrArg some (eq_of_beq (List.findIdx_getElem (p := (· == name))))

theorem position_of_name? {vocabulary : Vocabulary} {name : String} {symbol : Symbol}
    (named : vocabulary.name? symbol = some name) : vocabulary.position name = symbol := by
  rw [name?_eq_getElem?] at named
  obtain ⟨inside, here⟩ := List.getElem?_eq_some_iff.1 named
  have known : name ∈ vocabulary.names := here ▸ List.getElem_mem inside
  have back := name?_position known
  rw [name?_eq_getElem?] at back
  obtain ⟨placed, there⟩ := List.getElem?_eq_some_iff.1 back
  exact (List.getElem_inj vocabulary.names_nodup).1 (there.trans here.symm)

/-- A name is looked up to exactly the symbol that it names. -/
theorem lookup_eq_some {vocabulary : Vocabulary} {name : String} {symbol : Symbol} :
    vocabulary.lookup name = some symbol ↔ vocabulary.name? symbol = some name := by
  rw [lookup, List.findIdx?_eq_some_iff_findIdx_eq, length_names]
  constructor
  · rintro ⟨inside, here⟩
    have here : vocabulary.position name = symbol := here
    exact here ▸ name?_position (position_lt_size.1 (here ▸ inside))
  · intro named
    have here := position_of_name? named
    rw [name?_eq_getElem?] at named
    obtain ⟨inside, _⟩ := List.getElem?_eq_some_iff.1 named
    exact ⟨length_names vocabulary ▸ inside, here⟩

theorem lookup_eq_none {vocabulary : Vocabulary} {name : String} :
    vocabulary.lookup name = none ↔ name ∉ vocabulary.names := by
  rw [lookup, List.findIdx?_eq_none_iff]
  constructor
  · exact fun absent known => by simpa using absent name known
  · rintro absent other member
    exact beq_eq_false_iff_ne.2 fun same => absent (same ▸ member)

theorem entries_intern {vocabulary : Vocabulary} {name : String} {kind : SymbolKind} :
    (vocabulary.intern name kind).entries =
      if name ∈ vocabulary.names then vocabulary.entries
      else vocabulary.entries ++ [(name, kind)] := by
  unfold intern
  split <;> rfl

theorem mem_names_intern {vocabulary : Vocabulary} {name other : String} {kind : SymbolKind} :
    other ∈ (vocabulary.intern name kind).names ↔
      other ∈ vocabulary.names ∨ other = name := by
  rw [names, entries_intern]
  split
  · next known => exact ⟨Or.inl, fun either => either.elim id fun same => same ▸ known⟩
  · rw [List.map_append, List.mem_append]
    simp [names]

theorem names_prefix_intern (vocabulary : Vocabulary) (name : String) (kind : SymbolKind) :
    vocabulary.names <+: (vocabulary.intern name kind).names := by
  rw [names, names, entries_intern]
  split
  · exact List.prefix_refl _
  · rw [List.map_append]
    exact List.prefix_append _ _

theorem kinds_intern (vocabulary : Vocabulary) (name : String) (kind : SymbolKind) :
    ∃ count, (vocabulary.intern name kind).kinds =
      vocabulary.kinds ++ List.replicate count kind := by
  rw [kinds, entries_intern]
  split
  · exact ⟨0, by simp [kinds]⟩
  · exact ⟨1, by simp [kinds]⟩

theorem mem_names_internTerminals {vocabulary : Vocabulary} {added : List String}
    {name : String} :
    name ∈ (vocabulary.internTerminals added).names ↔
      name ∈ vocabulary.names ∨ name ∈ added := by
  induction added generalizing vocabulary with
  | nil => simp [internTerminals]
  | cons first rest inductionHypothesis =>
      change name ∈ ((vocabulary.internTerminal first).internTerminals rest).names ↔ _
      rw [inductionHypothesis, internTerminal, mem_names_intern, List.mem_cons, or_assoc]

theorem mem_names_internNonterminals {vocabulary : Vocabulary} {added : List String}
    {name : String} :
    name ∈ (vocabulary.internNonterminals added).names ↔
      name ∈ vocabulary.names ∨ name ∈ added := by
  induction added generalizing vocabulary with
  | nil => simp [internNonterminals]
  | cons first rest inductionHypothesis =>
      change name ∈ ((vocabulary.internNonterminal first).internNonterminals rest).names ↔ _
      rw [inductionHypothesis, internNonterminal, mem_names_intern, List.mem_cons, or_assoc]

theorem names_prefix_internTerminals (vocabulary : Vocabulary) (added : List String) :
    vocabulary.names <+: (vocabulary.internTerminals added).names := by
  induction added generalizing vocabulary with
  | nil => exact List.prefix_refl _
  | cons first rest inductionHypothesis =>
      exact (vocabulary.names_prefix_intern first .terminal).trans
        (inductionHypothesis (vocabulary.internTerminal first))

theorem names_prefix_internNonterminals (vocabulary : Vocabulary) (added : List String) :
    vocabulary.names <+: (vocabulary.internNonterminals added).names := by
  induction added generalizing vocabulary with
  | nil => exact List.prefix_refl _
  | cons first rest inductionHypothesis =>
      exact (vocabulary.names_prefix_intern first _).trans
        (inductionHypothesis (vocabulary.internNonterminal first))

theorem kinds_internTerminals (vocabulary : Vocabulary) (added : List String) :
    ∃ count, (vocabulary.internTerminals added).kinds =
      vocabulary.kinds ++ List.replicate count .terminal := by
  induction added generalizing vocabulary with
  | nil => exact ⟨0, by simp [internTerminals]⟩
  | cons first rest inductionHypothesis =>
      obtain ⟨one, head⟩ := vocabulary.kinds_intern first .terminal
      obtain ⟨more, tail⟩ := inductionHypothesis (vocabulary.internTerminal first)
      refine ⟨one + more, ?_⟩
      change ((vocabulary.internTerminal first).internTerminals rest).kinds = _
      rw [tail, internTerminal, head, List.append_assoc, List.replicate_append_replicate]

theorem kinds_internNonterminals {vocabulary : Vocabulary}
    (started : vocabulary.isEmpty = false) (added : List String) :
    ∃ count, (vocabulary.internNonterminals added).kinds =
      vocabulary.kinds ++ List.replicate count .nonterminal := by
  induction added generalizing vocabulary with
  | nil => exact ⟨0, by simp [internNonterminals]⟩
  | cons first rest inductionHypothesis =>
      obtain ⟨one, head⟩ := vocabulary.kinds_intern first .nonterminal
      have kept : (vocabulary.intern first .nonterminal).isEmpty = false := by
        rw [isEmpty, entries_intern]
        split
        · exact started
        · simp
      obtain ⟨more, tail⟩ := inductionHypothesis kept
      refine ⟨one + more, ?_⟩
      change ((vocabulary.internNonterminal first).internNonterminals rest).kinds = _
      rw [internNonterminal, started, if_neg (by simp), tail, head, List.append_assoc,
        List.replicate_append_replicate]

/-- A name that was known before keeps its position in every longer vocabulary. -/
theorem position_of_prefix {shorter longer : Vocabulary} {name : String}
    (grown : shorter.names <+: longer.names) (known : name ∈ shorter.names) :
    longer.position name = shorter.position name := by
  obtain ⟨added, grown⟩ := grown
  have inside := position_lt_size.2 known
  rw [← length_names] at inside
  rw [position, ← grown, List.findIdx_append]
  exact if_pos inside

end ShiftReduce.Vocabulary
