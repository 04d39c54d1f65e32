/-
This file shows that a sentence is tokenized into the terminals whose names it spells, or else
refused because of its first word that names no terminal.
-/

import ShiftReduce.Proofs.Run.Outcome
import ShiftReduce.Proofs.Text.Spelling

namespace ShiftReduce

namespace Grammar

/-- An excluded token is unknown, or it names a symbol that no sentence contains. -/
inductive Excluded (grammar : Grammar) (token : String) : Prop
  | unknown (absent : token ∉ grammar.vocabulary.names)
  | nonterminal {symbol : Symbol} (named : grammar.vocabulary.name? symbol = some token)
      (kind : grammar.vocabulary.kind? symbol = some .nonterminal)
  | addedStart (named : grammar.vocabulary.name? 0 = some token)
  | endMarker (same : token = endMarkerName)

variable {grammar : Grammar} {sentence token : String} {words : List String}
  {symbols : List Symbol}

theorem names_iff_name? {symbol : Symbol} : grammar.Names token symbol ↔
    grammar.vocabulary.name? symbol = some token ∧
      grammar.vocabulary.kind? symbol = some .terminal := by
  rw [Names, Vocabulary.lookup_eq_some, isTerminal, Vocabulary.isTerminal, beq_iff_eq]

/-- A name belongs to one symbol only. -/
theorem symbol_unique {symbol other : Symbol}
    (named : grammar.vocabulary.name? symbol = some token)
    (again : grammar.vocabulary.name? other = some token) : symbol = other :=
  (Vocabulary.position_of_name? named).symm.trans (Vocabulary.position_of_name? again)

theorem Excluded.not_names (excluded : grammar.Excluded token) (symbol : Symbol) :
    ¬ grammar.Names token symbol := by
  rw [names_iff_name?]
  rintro ⟨known, terminal⟩
  cases excluded with
  | unknown absent =>
      rw [Vocabulary.name?_eq_getElem?] at known
      exact absent (List.mem_of_getElem? known)
  | nonterminal named kind =>
      obtain rfl := symbol_unique named known
      rw [kind] at terminal
      cases terminal
  | addedStart named =>
      obtain rfl := symbol_unique named known
      rw [grammar.kind?_eq_start_iff.2 rfl] at terminal
      cases terminal
  | endMarker same =>
      have last := symbol_unique (same ▸ grammar.wellFormed.end_named) known
      rw [grammar.kind?_eq_endMarker_iff.2 last.symm] at terminal
      cases terminal

/-- Among the kinds of symbols only the terminals are left for the tokens of a sentence. -/
theorem excluded_iff : grammar.Excluded token ↔ ∀ symbol, ¬ grammar.Names token symbol := by
  refine ⟨Excluded.not_names, fun unnamed => ?_⟩
  cases found : grammar.vocabulary.lookup token with
  | none => exact .unknown (Vocabulary.lookup_eq_none.1 found)
  | some symbol =>
      have named := Vocabulary.lookup_eq_some.1 found
      obtain ⟨entry, listed, rfl⟩ := Option.map_eq_some_iff.1 named
      have kind : grammar.vocabulary.kind? symbol = some entry.2 := by
        rw [Vocabulary.kind?, listed, Option.map_some]
      cases which : entry.2 with
      | start =>
          rw [which, kind?_eq_start_iff] at kind
          exact .addedStart (kind ▸ named)
      | nonterminal => exact .nonterminal named (which ▸ kind)
      | terminal => exact absurd (names_iff_name?.2 ⟨named, which ▸ kind⟩) (unnamed symbol)
      | endMarker =>
          rw [which, kind?_eq_endMarker_iff] at kind
          have last := grammar.wellFormed.end_named
          exact .endMarker (Option.some.inj (named.symm.trans (kind ▸ last)))

theorem forall₂_names_iff : List.Forall₂ grammar.Names words symbols ↔
    (∀ symbol ∈ symbols, grammar.vocabulary.kind? symbol = some .terminal) ∧
      symbols.map grammar.vocabulary.name? = words.map some := by
  induction words generalizing symbols with
  | nil =>
      rw [List.forall₂_nil_left_iff, List.map_nil, List.map_eq_nil_iff]
      exact ⟨fun none => by simp [none], And.right⟩
  | cons word rest ih =>
      cases symbols with
      | nil => simp
      | cons symbol symbols =>
          rw [List.forall₂_cons, ih, names_iff_name?, List.forall_mem_cons, List.map_cons,
            List.map_cons, List.cons.injEq]
          tauto

theorem spells_iff_names (spelled : Text.Spells sentence.toList words) :
    grammar.Spells sentence symbols ↔
      (∀ symbol ∈ symbols, grammar.vocabulary.kind? symbol = some .terminal) ∧
        symbols.map grammar.vocabulary.name? = words.map some := by
  rw [Spells, spelled.wordStrings_eq]
  exact forall₂_names_iff

/-- The tokens of a sentence are the terminals with the names that it spells. -/
theorem tokenize_eq_ok_iff {result : List Symbol} (spelled : Text.Spells sentence.toList words) :
    grammar.tokenize sentence = .ok result ↔
      ∃ symbols, result = symbols ++ [grammar.endMarker] ∧ grammar.endMarker ∉ symbols ∧
        (∀ symbol ∈ symbols, grammar.vocabulary.kind? symbol = some .terminal) ∧
        symbols.map grammar.vocabulary.name? = words.map some := by
  constructor
  · intro tokenized
    obtain ⟨symbols, spells, rfl⟩ := exists_spells_of_tokenize tokenized
    refine ⟨symbols, rfl, fun inside => ?_, (spells_iff_names spelled).1 spells⟩
    have terminal := spells.terminal _ inside
    rw [isTerminal_endMarker] at terminal
    cases terminal
  · rintro ⟨symbols, rfl, _, named⟩
    exact ((spells_iff_names spelled).2 named).tokenize

theorem terminalsFrom_split {front back : List String} (position : Nat)
    (known : ∀ earlier ∈ front, ¬ grammar.Excluded earlier) (excluded : grammar.Excluded token) :
    grammar.terminalsFrom position (front ++ token :: back) =
      .error (.invalidInput token (position + front.length)) := by
  induction front generalizing position with
  | nil =>
      have unnamed : grammar.terminal? token = none := by
        rw [Option.eq_none_iff_forall_ne_some]
        exact fun symbol named => excluded.not_names symbol (terminal?_eq_some_iff.1 named)
      rw [List.nil_append, terminalsFrom, unnamed]
      rfl
  | cons first rest ih =>
      obtain ⟨here, later⟩ := List.forall_mem_cons.1 known
      rw [excluded_iff, not_forall] at here
      obtain ⟨symbol, names⟩ := here
      rw [List.cons_append, terminalsFrom, terminal?_eq_some_iff.2 (not_not.1 names),
        ih (position + 1) later, List.length_cons, Nat.add_right_comm, Nat.add_assoc]

/-- A sentence is refused because of its first excluded token, and there is no other cause. -/
theorem tokenize_eq_error_iff {error : RunError} (spelled : Text.Spells sentence.toList words) :
    grammar.tokenize sentence = .error error ↔
      ∃ front token back, words = front ++ token :: back ∧
        (∀ earlier ∈ front, ¬ grammar.Excluded earlier) ∧ grammar.Excluded token ∧
        error = .invalidInput token front.length := by
  rw [tokenize, terminals, spelled.wordStrings_eq]
  constructor
  · intro failed
    split at failed
    · next fault refused =>
        obtain ⟨front, token, back, split, known, unknown, same⟩ := exists_of_terminalsFrom refused
        refine ⟨front, token, back, split, fun earlier inside excluded => ?_,
          excluded_iff.2 unknown, ?_⟩
        · obtain ⟨symbol, names⟩ := known earlier inside
          exact excluded.not_names symbol names
        · rw [← Except.error.inj failed, same, Nat.zero_add]
    · cases failed
  · rintro ⟨front, token, back, rfl, known, excluded, rfl⟩
    rw [terminalsFrom_split 0 known excluded, Nat.zero_add]

/--
A sentence that spells the names of terminals, with any blanks between and around them, is tokenized
into these terminals and the end marker. Each sentence spells one list of tokens. It is tokenized
exactly when all of them name terminals, and then into the terminals that have these names in order,
with the end marker in the last place only. Otherwise it is refused because of the first token that
is unknown or names a nonterminal, the added start symbol or the end marker.
-/
theorem tokenize_inverts_spelling (grammar : Grammar) (sentence : String) :
    (∀ symbols words, (∀ symbol ∈ symbols, grammar.vocabulary.kind? symbol = some .terminal) →
      symbols.map grammar.vocabulary.name? = words.map some →
      Text.Spells sentence.toList words →
      grammar.tokenize sentence = .ok (symbols ++ [grammar.endMarker])) ∧
    ∃ tokens, (∀ words, Text.Spells sentence.toList words ↔ words = tokens) ∧
      (∀ result, grammar.tokenize sentence = .ok result ↔
        ∃ symbols, result = symbols ++ [grammar.endMarker] ∧ grammar.endMarker ∉ symbols ∧
          (∀ symbol ∈ symbols, grammar.vocabulary.kind? symbol = some .terminal) ∧
          symbols.map grammar.vocabulary.name? = tokens.map some) ∧
      ((∃ result, grammar.tokenize sentence = .ok result) ↔
        ∀ token ∈ tokens, ∃ symbol, grammar.vocabulary.name? symbol = some token ∧
          grammar.vocabulary.kind? symbol = some .terminal) ∧
      ∀ error, grammar.tokenize sentence = .error error ↔
        ∃ front token back, tokens = front ++ token :: back ∧
          (∀ earlier ∈ front, ¬ grammar.Excluded earlier) ∧ grammar.Excluded token ∧
          error = .invalidInput token front.length := by
  constructor
  · exact fun symbols words terminal named spelled =>
      ((spells_iff_names spelled).2 ⟨terminal, named⟩).tokenize
  · obtain ⟨tokens, spelled⟩ := Text.exists_spells sentence.toList
    refine ⟨tokens, fun words => ?unique, fun result => tokenize_eq_ok_iff spelled, ?accepted,
      fun error => tokenize_eq_error_iff spelled⟩
    case unique =>
      rw [Text.spells_iff, spelled.wordStrings_eq]
      exact eq_comm
    case accepted =>
      constructor
      · rintro ⟨result, tokenized⟩ token inside
        obtain ⟨symbols, _, _, terminal, named⟩ := (tokenize_eq_ok_iff spelled).1 tokenized
        have inside := List.mem_map_of_mem (f := some) inside
        rw [← named] at inside
        obtain ⟨symbol, listed, here⟩ := List.mem_map.1 inside
        exact ⟨symbol, here, terminal symbol listed⟩
      · intro named
        cases tokenized : grammar.tokenize sentence with
        | ok result => exact ⟨result, rfl⟩
        | error error =>
            obtain ⟨front, token, back, rfl, _, excluded, _⟩ :=
              (tokenize_eq_error_iff spelled).1 tokenized
            obtain ⟨symbol, names⟩ := named token (by simp)
            exact absurd (names_iff_name?.2 names) (excluded.not_names symbol)

/-- The gaps of this sentence hold blanks of several kinds. -/
theorem tokenize_inverts_spelling_gaps :
    ∃ compiled, CompiledGrammar.ofText "E E + n\nE n" = .ok compiled ∧
      compiled.grammar.tokenize "\u3000n\t + \u00A0n\n" = .ok [3, 2, 3, 4] := by
  obtain ⟨compiled, compiles, evaluated⟩ := CompiledGrammar.exists_of_ofText "E E + n\nE n"
    (fun compiled => decide (compiled.grammar.endMarker = 4 ∧
      (∀ symbol ∈ ([3, 2, 3] : List Symbol),
        compiled.grammar.vocabulary.kind? symbol = some .terminal) ∧
      ([3, 2, 3] : List Symbol).map compiled.grammar.vocabulary.name? =
        ["n", "+", "n"].map some))
    (by decide +kernel)
  obtain ⟨last, terminal, named⟩ := of_decide_eq_true evaluated
  obtain ⟨tokenizes, _⟩ :=
    tokenize_inverts_spelling compiled.grammar "\u3000n\t + \u00A0n\n"
  have tokenized := tokenizes [3, 2, 3] ["n", "+", "n"] terminal named
    (Text.spells_iff.2 (by decide +kernel))
  rw [last] at tokenized
  exact ⟨compiled, compiles, tokenized⟩

end Grammar

end ShiftReduce
