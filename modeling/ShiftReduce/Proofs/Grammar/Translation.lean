/-
This file states how a text is read as a grammar and shows that it is read in just this way.
-/

import ShiftReduce.Grammar.Numbering
import ShiftReduce.Proofs.Grammar.Symbols
import ShiftReduce.Proofs.Vocabulary.Histories

namespace ShiftReduce

namespace Text

/-- These are the lines that are not blank, each as the list of its words. -/
def wordLines (lines : List (List Char)) : List (List String) :=
  (lines.map wordStrings).filter fun words => !words.isEmpty

theorem wordLines_cons (line : List Char) (rest : List (List Char)) :
    wordLines (line :: rest) = wordLines [line] ++ wordLines rest := by
  simp [wordLines, ← List.filter_append]

end Text

namespace Production

/-- A line is at fault when it has one word only, or several with the end marker among them. -/
inductive Fault (number : Nat) (line : List Char) : GrammarError → Prop
  | malformed {word : String} (alone : Text.wordStrings line = [word]) :
      Fault number line (.malformedLine number (String.ofList (Text.trim line)))
  | reserved (several : 2 ≤ (Text.wordStrings line).length)
      (used : endMarkerName ∈ Text.wordStrings line) :
      Fault number line (.reservedSymbol number endMarkerName)

/-- A sound line is blank, or it has several words and does not use the end marker. -/
def Sound (line : List Char) : Prop :=
  Text.wordStrings line = [] ∨
    (2 ≤ (Text.wordStrings line).length ∧ endMarkerName ∉ Text.wordStrings line)

variable {number : Nat} {line : List Char} {lines : List (List Char)} {fault other : GrammarError}

theorem Fault.not_sound (faulty : Fault number line fault) : ¬ Sound line := by
  rw [Sound]
  cases faulty with
  | malformed alone => simp [alone]
  | reserved several used =>
      rintro (blank | ⟨_, unused⟩)
      · simp [blank] at used
      · exact unused used

theorem Fault.unique (first : Fault number line fault) (second : Fault number line other) :
    fault = other := by
  cases first with
  | malformed alone =>
      cases second with
      | malformed _ => rfl
      | reserved several _ => simp [alone] at several
  | reserved several _ =>
      cases second with
      | malformed alone => simp [alone] at several
      | reserved _ _ => rfl

/-- A line is at fault, or it is sound and holds a production with its words unless it is blank. -/
theorem ofLine_cases (number : Nat) (line : List Char) :
    (∃ fault, Fault number line fault ∧ ofLine number line = .error fault) ∨
      ∃ found : Option Production, Sound line ∧
        found.toList.map words = Text.wordLines [line] ∧ ofLine number line = .ok found := by
  unfold ofLine
  split
  · next blank => exact .inr ⟨none, .inl blank, by simp [Text.wordLines, blank], rfl⟩
  · next word alone => exact .inl ⟨_, .malformed alone, rfl⟩
  · next head next others found =>
      have several : 2 ≤ (Text.wordStrings line).length := by simp [found]
      split
      · next used => exact .inl ⟨_, .reserved several (found ▸ used), rfl⟩
      · next unused =>
          have sound : Sound line := .inr ⟨several, fun used => unused (found ▸ used)⟩
          exact .inr ⟨_, sound, by simp [Text.wordLines, found, words], rfl⟩

/-- The first faulty line decides, and without such a line every written line is a production. -/
theorem ofLines_cases (number : Nat) (lines : List (List Char)) :
    (∃ front line back fault, lines = front ++ line :: back ∧
        (∀ earlier ∈ front, Sound earlier) ∧ Fault (number + front.length) line fault ∧
        ofLines number lines = .error fault) ∨
      ((∀ line ∈ lines, Sound line) ∧ ∃ productions, ofLines number lines = .ok productions ∧
        productions.map words = Text.wordLines lines) := by
  induction lines generalizing number with
  | nil => exact .inr ⟨by simp, [], rfl, rfl⟩
  | cons line rest ih =>
      rw [ofLines]
      rcases ofLine_cases number line with ⟨fault, faulty, read⟩ | ⟨found, sound, written, read⟩
      · rw [read]
        exact .inl ⟨[], line, rest, fault, rfl, by simp, faulty, rfl⟩
      · rw [read]
        rcases ih (number + 1) with ⟨front, later, back, fault, rfl, others, faulty, failed⟩ |
          ⟨others, productions, read, same⟩
        · have counted : number + 1 + front.length = number + (line :: front).length := by
            simp only [List.length_cons]
            omega
          refine .inl ⟨line :: front, later, back, fault, rfl, ?_, counted ▸ faulty, ?_⟩
          · simpa [sound] using others
          · simp [failed]
        · refine .inr ⟨by simpa [sound] using others, found.toList ++ productions, ?_, ?_⟩
          · simp [read]
          · rw [List.map_append, written, same, ← Text.wordLines_cons]

end Production

namespace Grammar

/-- The added start symbol is spelled with the fewest primes that make it differ from every word. -/
def NamesStart (taken : List String) (name : String) : Prop :=
  ∃ extraPrimes, name = startName extraPrimes ∧ name ∉ taken ∧
    ∀ fewer < extraPrimes, startName fewer ∈ taken

/--
The added start symbol comes first. Then come the words that stand first on some line, the other
words and the end marker, and all words in the order of their first occurrence.
-/
def entriesOf (start : String) (lines : List (List String)) : List (String × SymbolKind) :=
  let heads := lines.flatMap (List.take 1)
  (start, .start) :: (heads.eraseDups.map fun name => (name, .nonterminal)) ++
    (((lines.flatMap (List.drop 1)).removeAll heads).eraseDups.map fun name => (name, .terminal)) ++
      [(endMarkerName, .endMarker)]

/-- A rule is written with the names of its symbols. -/
def ruleNames (grammar : Grammar) (rule : Rule) : List (Option String) :=
  (rule.lhs :: rule.rhs).map grammar.vocabulary.name?

/--
The grammar has one rule for each line, with the words of the line as names, behind the added rule
from the start symbol to the first word of the first line. No other rule has the left-hand side 0.
-/
structure Translates (lines : List (List String)) (start declared : String) (grammar : Grammar) :
    Prop where
  added : NamesStart lines.flatten start
  first : lines.head?.bind List.head? = some declared
  entries : grammar.vocabulary.entries = entriesOf start lines
  rules : grammar.rules.map grammar.ruleNames = ([start, declared] :: lines).map (List.map some)
  alone : ∀ index rule, grammar.rules[index]? = some rule → (rule.lhs = 0 ↔ index = 0)

theorem namesStart_freshStartName (taken : List String) :
    NamesStart taken (freshStartName taken) := by
  have free := freshStartName_not_mem taken
  unfold freshStartName at free ⊢
  cases found : ((List.range (taken.length + 1)).map startName).find? fun name =>
      !taken.contains name with
  | none =>
      have listed : startName 0 ∈ (List.range (taken.length + 1)).map startName :=
        List.mem_map_of_mem (List.mem_range.2 (Nat.succ_pos _))
      have all := List.find?_eq_none.1 found (startName 0) listed
      rw [found] at free
      simp at all
      exact absurd all free
  | some name =>
      obtain ⟨_, extraPrimes, inside, here, earlier⟩ := List.find?_eq_some_iff_getElem.1 found
      rw [found] at free
      refine ⟨extraPrimes, ?_, free, ?_⟩
      · rw [Option.getD_some, ← here]
        simp
      · intro fewer before
        simpa using earlier fewer before

theorem NamesStart.unique {taken : List String} {first second : String}
    (one : NamesStart taken first) (other : NamesStart taken second) : first = second := by
  obtain ⟨primes, rfl, free, fewer⟩ := one
  obtain ⟨others, rfl, unused, less⟩ := other
  rcases Nat.lt_trichotomy primes others with before | same | behind
  · exact absurd (less primes before) free
  · rw [same]
  · exact absurd (fewer others behind) unused

section Interning

/-- Heads are interned first, then the other words, and the end marker is interned last. -/
theorem vocabularyOf_eq_after (productions : List Production) :
    vocabularyOf productions = Vocabulary.after
      (productions.map (.nonterminal ∘ Production.head) ++
        (productions.flatMap Production.body).map .terminal ++ [.endMarker]) := by
  rw [Vocabulary.after, List.foldl_append, List.foldl_append, ← List.map_map, List.foldl_map,
    List.foldl_map]
  rfl

/-- The rules are made of the answers when the words of all productions are interned. -/
def internRules (vocabulary : Vocabulary) : List Production → List Rule × Vocabulary
  | [] => ([], vocabulary)
  | production :: rest =>
      let head := Vocabulary.Operation.nonterminal production.head
      let body := (vocabulary.perform head).answers (production.body.map .terminal)
      let later := internRules body.2 rest
      (⟨vocabulary.answered head, body.1⟩ :: later.1, later.2)

theorem internRules_of_known {vocabulary : Vocabulary} {productions : List Production}
    (known : ∀ production ∈ productions, ∀ word ∈ production.words, word ∈ vocabulary.names) :
    internRules vocabulary productions = (productions.map (ruleOf vocabulary), vocabulary) := by
  induction productions with
  | nil => rfl
  | cons production rest ih =>
      obtain ⟨words, behind⟩ := List.forall_mem_cons.1 known
      obtain ⟨head, body⟩ := List.forall_mem_cons.1 words
      have unchanged : vocabulary.perform (.nonterminal production.head) = vocabulary :=
        Vocabulary.perform_of_known head
      have named : ∀ operation ∈ production.body.map Vocabulary.Operation.terminal,
          operation.name ∈ vocabulary.names := List.forall_mem_map.2 body
      have answers := Vocabulary.answers_of_known named
      rw [internRules, Vocabulary.answered, unchanged, answers, ih behind, List.map_map]
      rfl

/-- All words are known to the finished vocabulary, so interning them again finds the rules. -/
theorem internRules_vocabularyOf (productions : List Production) :
    internRules (vocabularyOf productions) productions =
      (rulesOf productions, vocabularyOf productions) := by
  refine internRules_of_known fun production listed word inside => ?_
  exact (wordNames_prefix_vocabulary productions).subset
    (mem_names_wordVocabulary.2 ⟨production, listed, inside⟩)

end Interning

section Entries

variable (first : Production) (others : List Production)

theorem flatMap_heads (productions : List Production) :
    (productions.map Production.words).flatMap (List.take 1) = productions.map Production.head := by
  induction productions with
  | nil => rfl
  | cons production rest ih => simp [ih, Production.words]

theorem flatMap_bodies (productions : List Production) :
    (productions.map Production.words).flatMap (List.drop 1) =
      productions.flatMap Production.body := by
  induction productions with
  | nil => rfl
  | cons production rest ih => simp [ih, Production.words]

/-- The heads come before the other words, and the end marker comes last. -/
theorem entries_vocabularyOf_cons : (vocabularyOf (first :: others)).entries =
    (first.head, .start) ::
      (((others.map Production.head).removeAll [first.head]).eraseDups.map
        fun name => (name, .nonterminal)) ++
      (((first.body ++ others.flatMap Production.body).removeAll
        (first.head :: ((others.map Production.head).removeAll [first.head]).eraseDups)).eraseDups.map
          fun name => (name, .terminal)) ++ [(endMarkerName, .endMarker)] := by
  rw [entries_vocabularyOf, wordVocabulary, Vocabulary.entries_internTerminals, Vocabulary.names,
    headVocabulary, List.map_cons, Vocabulary.entries_internNonterminals]
  simp [Function.comp_def]

/-- The vocabulary of a grammar has the entries of the words of its productions. -/
theorem entries_ofProductions :
    (ofProductions first others).vocabulary.entries =
      entriesOf (freshStartName ((first :: others).flatMap Production.words))
        ((first :: others).map Production.words) := by
  rw [entriesOf, flatMap_heads, flatMap_bodies]
  change (vocabularyOf (augment first others)).entries = _
  rw [augment, entries_vocabularyOf_cons]
  dsimp only
  have apart {word : String} {production : Production} (listed : production ∈ first :: others)
      (inside : word ∈ production.words) := augment_ne_start first others listed inside
  generalize freshStartName ((first :: others).flatMap Production.words) = start at apart ⊢
  have heads : ((first :: others).map Production.head).removeAll [start] =
      (first :: others).map Production.head := by
    apply List.filter_eq_self.2
    intro word listed
    obtain ⟨production, written, rfl⟩ := List.mem_map.1 listed
    simpa using apart written List.mem_cons_self
  -- The body of the added production brings no new word.
  have bodies : ([first.head] ++ (first :: others).flatMap Production.body).removeAll
        (start :: ((first :: others).map Production.head).eraseDups) =
      ((first :: others).flatMap Production.body).removeAll
        ((first :: others).map Production.head) := by
    rw [List.singleton_append, List.cons_removeAll, if_neg (by simp)]
    apply List.filter_congr
    intro word listed
    obtain ⟨production, written, inside⟩ := List.mem_flatMap.1 listed
    have different := apart written (List.mem_cons_of_mem _ inside)
    simp [different]
  rw [heads, bodies]

/-- The rules of a grammar are written with the words of its productions. -/
theorem ruleNames_ofProductions :
    (ofProductions first others).rules.map (ofProductions first others).ruleNames =
      ([freshStartName ((first :: others).flatMap Production.words), first.head] ::
        (first :: others).map Production.words).map (List.map some) := by
  change (rulesOf (augment first others)).map _ =
    ((augment first others).map Production.words).map _
  rw [rulesOf, List.map_map, List.map_map]
  apply List.map_congr_left
  intro production listed
  have named {word : String} (inside : word ∈ production.words) :
      (vocabularyOf (augment first others)).name?
        ((vocabularyOf (augment first others)).position word) = some word :=
    Vocabulary.name?_position ((wordNames_prefix_vocabulary _).subset
      (mem_names_wordVocabulary.2 ⟨production, listed, inside⟩))
  simp only [Function.comp_apply, ruleNames, ruleOf, Production.words, List.map_cons, List.map_map]
  rw [List.cons.injEq]
  constructor
  · exact named List.mem_cons_self
  · apply List.map_congr_left
    exact fun word inside => named (List.mem_cons_of_mem _ inside)

theorem translates_ofProductions :
    Translates ((first :: others).map Production.words)
      (freshStartName ((first :: others).flatMap Production.words)) first.head
      (ofProductions first others) := by
  constructor
  case added => exact namesStart_freshStartName _
  case first => rfl
  case entries => exact entries_ofProductions first others
  case rules => exact ruleNames_ofProductions first others
  case alone =>
    intro index rule found
    constructor
    · intro zero
      by_contra later
      exact lhs_ne_zero _ ((mem_declaredRules _).2 ⟨index, later, found⟩) zero
    · rintro rfl
      rw [rules_zero, Option.some.injEq] at found
      rw [← found]

end Entries

section Unique

variable {lines : List (List String)} {start declared : String} {grammar other : Grammar}

/-- Symbols are known by their names. -/
theorem eq_map_position {vocabulary : Vocabulary} {symbols : List Symbol} {words : List String}
    (named : symbols.map vocabulary.name? = words.map some) :
    symbols = words.map vocabulary.position := by
  induction symbols generalizing words with
  | nil =>
      cases words with
      | nil => rfl
      | cons word rest => cases named
  | cons symbol symbols ih =>
      cases words with
      | nil => cases named
      | cons word rest =>
          obtain ⟨here, behind⟩ := List.cons.inj named
          rw [List.map_cons, Vocabulary.position_of_name? here, ← ih behind]

/-- The words of a line stand for a rule with the first word on the left. -/
def ruleOfWords (vocabulary : Vocabulary) (words : List String) : Rule :=
  ⟨vocabulary.position (words.headD ""), words.tail.map vocabulary.position⟩

/-- A rule is known by the words with which it is written. -/
theorem eq_ruleOfWords {rule : Rule} {words : List String}
    (named : grammar.ruleNames rule = words.map some) :
    rule = ruleOfWords grammar.vocabulary words := by
  cases words with
  | nil => cases named
  | cons word rest =>
      obtain ⟨lhs, rhs⟩ := rule
      obtain ⟨left, right⟩ := List.cons.inj (eq_map_position named)
      rw [ruleOfWords, List.headD_cons, List.tail_cons, ← left, ← right]

theorem Translates.rules_eq (translates : Translates lines start declared grammar) :
    grammar.rules = ([start, declared] :: lines).map (ruleOfWords grammar.vocabulary) := by
  apply List.ext_getElem?
  intro index
  have named := congrArg (fun rules => rules[index]?) translates.rules
  simp only [List.getElem?_map] at named
  rw [List.getElem?_map]
  cases found : grammar.rules[index]? with
  | none =>
      rw [found, Option.map_none, eq_comm, Option.map_eq_none_iff] at named
      rw [named, Option.map_none]
  | some rule =>
      rw [found, Option.map_some, eq_comm, Option.map_eq_some_iff] at named
      obtain ⟨words, listed, named⟩ := named
      rw [listed, Option.map_some, ← eq_ruleOfWords named.symm]

/-- The rules of a grammar are known by their names. -/
theorem Translates.eq_of_ruleNames (translates : Translates lines start declared grammar)
    {rule image : Rule} (listed : rule ∈ grammar.rules)
    (same : grammar.ruleNames rule = grammar.ruleNames image) : rule = image := by
  have named := List.mem_map_of_mem (f := grammar.ruleNames) listed
  rw [translates.rules] at named
  obtain ⟨words, _, written⟩ := List.mem_map.1 named
  rw [eq_ruleOfWords written.symm, eq_ruleOfWords (same.symm.trans written.symm)]

/-- There is at most one grammar for some lines. -/
theorem Translates.unique {again first : String} (one : Translates lines start declared grammar)
    (two : Translates lines again first other) : grammar = other := by
  have sameStart := one.added.unique two.added
  have sameFirst := Option.some.inj (one.first.symm.trans two.first)
  subst sameStart sameFirst
  have vocabularies : grammar.vocabulary = other.vocabulary :=
    Vocabulary.ext_entries (one.entries.trans two.entries.symm)
  have rules : grammar.rules = other.rules := by rw [one.rules_eq, two.rules_eq, vocabularies]
  cases grammar
  cases other
  simp_all

end Unique

section Reading

/--
The first faulty line decides the error. A text without faulty lines is read as the grammar that
its lines describe, and there is no such grammar when all lines are blank.
-/
inductive Reads (lines : List (List Char)) : Except GrammarError Grammar → Prop
  | fault {front back : List (List Char)} {line : List Char} {fault : GrammarError}
      (split : lines = front ++ line :: back) (sound : ∀ earlier ∈ front, Production.Sound earlier)
      (faulty : Production.Fault (front.length + 1) line fault) : Reads lines (.error fault)
  | empty (blank : ∀ line ∈ lines, Text.wordStrings line = []) : Reads lines (.error .empty)
  | grammar {start declared : String} {grammar : Grammar}
      (sound : ∀ line ∈ lines, Production.Sound line)
      (translates : Translates (Text.wordLines lines) start declared grammar) :
      Reads lines (.ok grammar)

variable {lines : List (List Char)} {first second : Except GrammarError Grammar}

theorem wordLines_eq_nil : Text.wordLines lines = [] ↔
    ∀ line ∈ lines, Text.wordStrings line = [] := by
  simp [Text.wordLines]

theorem reads_ofText (text : String) : Reads (Text.lines text.toList) (ofText text) := by
  rw [ofText, Production.ofText]
  rcases Production.ofLines_cases 1 (Text.lines text.toList) with
    ⟨front, line, back, fault, split, sound, faulty, failed⟩ | ⟨sound, productions, read, written⟩
  · rw [failed]
    rw [Nat.add_comm] at faulty
    exact .fault split sound faulty
  · rw [read]
    cases productions with
    | nil => exact .empty (wordLines_eq_nil.1 written.symm)
    | cons first others => exact .grammar sound (written ▸ translates_ofProductions first others)

/-- No faulty line stands among the sound lines before another faulty line. -/
theorem length_le_of_faulty {front back others rest : List (List Char)} {line other : List Char}
    {fault : GrammarError} (split : front ++ line :: back = others ++ other :: rest)
    (sound : ∀ earlier ∈ others, Production.Sound earlier)
    (faulty : Production.Fault (front.length + 1) line fault) : others.length ≤ front.length := by
  by_contra longer
  have inside : line ∈ others := by
    have placed := congrArg (fun lines => lines[front.length]?) split
    simp only [List.getElem?_append_right (Nat.le_refl _), Nat.sub_self, List.getElem?_cons_zero,
      List.getElem?_append_left (Nat.lt_of_not_le longer)] at placed
    exact List.mem_of_getElem? placed.symm
  exact faulty.not_sound (sound line inside)

/-- A reading with a faulty line is not a reading of sound lines. -/
theorem not_sound_of_split {front back : List (List Char)} {line : List Char}
    {fault : GrammarError} (split : lines = front ++ line :: back)
    (faulty : Production.Fault (front.length + 1) line fault)
    (sound : ∀ line ∈ lines, Production.Sound line) : False := by
  apply faulty.not_sound
  apply sound
  simp [split]

/-- The lines decide what is read. -/
theorem Reads.unique (one : Reads lines first) (two : Reads lines second) : first = second := by
  have sound_of_blank (blank : ∀ line ∈ lines, Text.wordStrings line = []) :
      ∀ line ∈ lines, Production.Sound line := fun line listed => .inl (blank line listed)
  cases one with
  | fault split sound faulty =>
      cases two with
      | fault again others broken =>
          have same := split.symm.trans again
          have longer := length_le_of_faulty same others faulty
          have shorter := length_le_of_faulty same.symm sound broken
          obtain ⟨rfl, rest⟩ := List.append_inj same (Nat.le_antisymm shorter longer)
          obtain ⟨rfl, _⟩ := List.cons.inj rest
          rw [faulty.unique broken]
      | empty blank => exact (not_sound_of_split split faulty (sound_of_blank blank)).elim
      | grammar sound _ => exact (not_sound_of_split split faulty sound).elim
  | empty blank =>
      cases two with
      | fault split _ faulty => exact (not_sound_of_split split faulty (sound_of_blank blank)).elim
      | empty _ => rfl
      | grammar _ translates =>
          have written := translates.first
          rw [wordLines_eq_nil.2 blank] at written
          cases written
  | grammar sound translates =>
      cases two with
      | fault split _ faulty => exact (not_sound_of_split split faulty sound).elim
      | empty blank =>
          have written := translates.first
          rw [wordLines_eq_nil.2 blank] at written
          cases written
      | grammar _ other => rw [translates.unique other]

/--
Reading a text gives the error of its first faulty line, or else the error of a text without
productions when all lines are blank, or else the grammar that the lines describe. The lines decide
this grammar, and its rules show the words of the lines again.
-/
theorem ofText_eq_iff_reads (text : String) (result : Except GrammarError Grammar) :
    ofText text = result ↔ Reads (Text.lines text.toList) result := by
  constructor
  · rintro rfl
    exact reads_ofText text
  · exact fun reads => (reads_ofText text).unique reads

end Reading

end Grammar

end ShiftReduce
