/-
This file states what searches that share one guard find and which symbols they leave open.
-/

import Mathlib.Logic.Relation
import ShiftReduce.CompiledGrammar
import ShiftReduce.Proofs.Lookahead.Origins

namespace ShiftReduce

open Relation (ReflTransGen)

namespace Guard

/-- A vector of marks leaves the unmarked symbols below its length open. -/
def ofMarks (marks : List Bool) : Guard :=
  ⟨(List.range marks.length).filter fun symbol => marks[symbol]? == some false,
    List.nodup_range.filter _⟩

/-- Two guards leave the same symbols open. -/
def OpensAs (guard other : Guard) : Prop :=
  ∀ symbol, guard.allows symbol = other.allows symbol

/-- An open symbol sends a search on to each symbol that its errands visit. -/
def Sends (guard : Guard) (errandsOf : Symbol → List Errand) (source target : Symbol) : Prop :=
  guard.allows source = true ∧ .visit target ∈ errandsOf source

/-- One of the errands leads to the symbol, along open symbols only. -/
def Leads (guard : Guard) (errandsOf : Symbol → List Errand) (errands : List Errand)
    (target : Symbol) : Prop :=
  ∃ source, .visit source ∈ errands ∧ ReflTransGen (guard.Sends errandsOf) source target

variable {guard other : Guard} {errandsOf : Symbol → List Errand} {waiting : List Errand}
  {source target symbol : Symbol}

theorem allows_ofMarks {marks : List Bool} :
    (ofMarks marks).allows symbol = true ↔ marks[symbol]? = some false := by
  simp only [ofMarks, allows, List.contains_iff_mem, List.mem_filter, List.mem_range, beq_iff_eq,
    and_iff_right_iff_imp]
  exact fun unmarked => (List.getElem?_eq_some_iff.1 unmarked).1

/-- To enter a symbol is to mark it. -/
theorem enter_ofMarks (marks : List Bool) (symbol : Symbol) :
    (ofMarks marks).enter symbol = ofMarks (marks.set symbol true) := by
  simp only [enter, ofMarks, mk.injEq, List.length_set]
  rw [List.Nodup.erase_eq_filter (List.nodup_range.filter _), List.filter_filter]
  refine List.filter_congr fun other _ => ?_
  rw [List.getElem?_set]
  by_cases same : symbol = other
  · rw [if_pos same, same]
    split <;> simp
  · rw [if_neg same]
    simp [Ne.symm same]

theorem OpensAs.enter (same : guard.OpensAs other) (symbol : Symbol) :
    (guard.enter symbol).OpensAs (other.enter symbol) := by
  intro found
  rw [Bool.eq_iff_iff, allows_enter, allows_enter, same]

theorem sends_of_enter (path : ReflTransGen ((guard.enter symbol).Sends errandsOf) source target) :
    ReflTransGen (guard.Sends errandsOf) source target :=
  ReflTransGen.mono (fun _ _ sends => ⟨(allows_enter.1 sends.1).2, sends.2⟩) _ _ path

/-- A path through the entered symbol may as well start behind its last visit there. -/
theorem sends_enter_or (path : ReflTransGen (guard.Sends errandsOf) source target)
    (symbol : Symbol) : ReflTransGen ((guard.enter symbol).Sends errandsOf) source target ∨
      (guard.enter symbol).Leads errandsOf (errandsOf symbol) target := by
  induction path using ReflTransGen.head_induction_on with
  | refl => exact .inl .refl
  | @head source next sends _ ih =>
      rcases ih with direct | behind
      · by_cases same : source = symbol
        · exact .inr ⟨next, same ▸ sends.2, direct⟩
        · exact .inl (.head ⟨allows_enter.2 ⟨same, sends.1⟩, sends.2⟩ direct)
      · exact .inr behind

/-- A symbol that is not open sends the search nowhere. -/
theorem eq_of_refused (path : ReflTransGen (guard.Sends errandsOf) source target)
    (refused : ¬ guard.allows source = true) : target = source := by
  rcases path.cases_head with same | ⟨_, sends, _⟩
  · exact same.symm
  · exact absurd sends.1 refused

/-- To enter a symbol is to come there and to go on with its errands. -/
theorem leads_enter (allowed : guard.allows symbol = true) :
    guard.Leads errandsOf (.visit symbol :: waiting) target ↔
      target = symbol ∨
        (guard.enter symbol).Leads errandsOf (errandsOf symbol ++ waiting) target := by
  constructor
  · rintro ⟨source, listed, path⟩
    rcases sends_enter_or path symbol with direct | ⟨next, inside, behind⟩
    · rcases List.mem_cons.1 listed with same | later
      · obtain rfl := Errand.visit.inj same
        have left : ¬ (guard.enter source).allows source = true := by simp [allows_enter]
        exact .inl (eq_of_refused direct left)
      · exact .inr ⟨source, List.mem_append_right _ later, direct⟩
    · exact .inr ⟨next, List.mem_append_left _ inside, behind⟩
  · rintro (rfl | ⟨source, listed, path⟩)
    · exact ⟨target, List.mem_cons_self, .refl⟩
    · rcases List.mem_append.1 listed with inside | later
      · exact ⟨symbol, List.mem_cons_self, .head ⟨allowed, inside⟩ (sends_of_enter path)⟩
      · exact ⟨source, List.mem_cons_of_mem _ later, sends_of_enter path⟩

end Guard

section Exploration

variable {errandsOf : Symbol → List Errand} {guard other : Guard} {errands : List Errand}
  {found symbol target : Symbol}

/-- What a visit finds is reported by an open symbol to which it leads. -/
theorem Errand.Reaches.visit_iff : Errand.Reaches errandsOf guard found (.visit symbol) ↔
    ∃ last, ReflTransGen (guard.Sends errandsOf) symbol last ∧ guard.allows last = true ∧
      ∃ symbols, .report symbols ∈ errandsOf last ∧ found ∈ symbols := by
  constructor
  · intro reaches
    generalize same : Errand.visit symbol = errand at reaches
    induction reaches generalizing symbol with
    | report _ => cases same
    | @visit symbol errand allowed listed reaches ih =>
        obtain rfl := Errand.visit.inj same
        cases errand with
        | report symbols =>
            exact ⟨_, .refl, allowed, symbols, listed, Errand.Reaches.report_iff.1 reaches⟩
        | visit next =>
            obtain ⟨last, path, reported⟩ := ih rfl
            exact ⟨last, .head ⟨allowed, listed⟩ path, reported⟩
  · rintro ⟨last, path, allowed, symbols, listed, inside⟩
    induction path using ReflTransGen.head_induction_on with
    | refl => exact .visit allowed listed (.report inside)
    | head sends _ ih => exact .visit sends.1 sends.2 ih

/-- A search enters the open symbols to which its errands lead, and it leaves the others open. -/
theorem allows_explore : (explore errandsOf guard errands).2.allows target = true ↔
    guard.allows target = true ∧ ¬ guard.Leads errandsOf errands target := by
  fun_induction explore errandsOf guard errands with
  | case1 guard => simp [Guard.Leads]
  | case2 guard symbols waiting rest ih => simpa [Guard.Leads] using ih
  | case3 guard symbol waiting allowed ih =>
      rw [ih, Guard.allows_enter, Guard.leads_enter allowed]
      grind
  | case4 guard symbol waiting refused ih =>
      rw [ih]
      refine and_congr_right fun allowed => not_congr ⟨?_, ?_⟩
      · rintro ⟨source, listed, path⟩
        exact ⟨source, List.mem_cons_of_mem _ listed, path⟩
      · rintro ⟨source, listed, path⟩
        rcases List.mem_cons.1 listed with same | later
        · obtain rfl := Errand.visit.inj same
          exact absurd (Guard.eq_of_refused path refused ▸ allowed) refused
        · exact ⟨source, later, path⟩

/-- A search sees nothing of a guard but which symbols are open. -/
theorem explore_congr (errandsOf : Symbol → List Errand) (same : guard.OpensAs other) :
    (explore errandsOf guard errands).1 = (explore errandsOf other errands).1 ∧
      (explore errandsOf guard errands).2.OpensAs (explore errandsOf other errands).2 := by
  induction guard, errands using explore.induct errandsOf generalizing other with
  | case1 guard => simpa [explore] using same
  | case2 guard symbols waiting ih =>
      obtain ⟨found, left⟩ := ih same
      rw [explore, explore]
      exact ⟨congrArg (symbols ++ ·) found, left⟩
  | case3 guard symbol waiting allowed ih =>
      rw [explore, explore, dif_pos allowed, dif_pos (same symbol ▸ allowed)]
      exact ih (same.enter symbol)
  | case4 guard symbol waiting refused ih =>
      rw [explore, explore, dif_neg refused, dif_neg (same symbol ▸ refused)]
      exact ih same

end Exploration

namespace Grammar

/-- An open nonterminal leads down to the first symbol of each of its rules. -/
def Descends (grammar : Grammar) (guard : Guard) (lhs leading : Symbol) : Prop :=
  grammar.isNonterminal lhs = true ∧ guard.allows lhs = true ∧
    ∃ rule ∈ grammar.rules, rule.lhs = lhs ∧ rule.rhs.head? = some leading

/-- An open symbol leads up to the left-hand side of each rule that it ends. -/
def Ascends (grammar : Grammar) (guard : Guard) (last lhs : Symbol) : Prop :=
  guard.allows last = true ∧
    ∃ rule ∈ grammar.rules, rule.lhs = lhs ∧ rule.rhs.getLast? = some last

/-- The rules put this behind the symbol, or the end of the input stands behind the added start. -/
def StandsBehind (grammar : Grammar) (symbol found : Symbol) : Prop :=
  (symbol = 0 ∧ found = grammar.endMarker) ∨
    ∃ rule ∈ grammar.rules, ∃ front next back, rule.rhs = front ++ symbol :: next :: back ∧
      found ∈ grammar.first next

variable {grammar : Grammar} {guard other : Guard} {found source symbol target : Symbol}

section First

theorem sends_firstErrandsOf : guard.Sends grammar.firstErrandsOf source target ↔
    grammar.Descends guard source target ∧ grammar.isNonterminal target = true := by
  rw [Guard.Sends, Descends, mem_firstErrandsOf]
  constructor
  · rintro ⟨allowed, rule, ruled, leading, rest, split, visits⟩
    obtain ⟨listed, rfl⟩ := mem_rulesFor.1 ruled
    rw [firstErrand] at visits
    split at visits
    · next nonterminal =>
        obtain rfl := Errand.visit.inj visits
        exact ⟨⟨grammar.isNonterminal_lhs listed, allowed, rule, listed, rfl, by simp [split]⟩,
          nonterminal⟩
    · cases visits
  · rintro ⟨⟨_, allowed, rule, listed, rfl, head⟩, nonterminal⟩
    obtain ⟨rest, split⟩ := List.head?_eq_some_iff.1 head
    refine ⟨allowed, rule, mem_rulesFor.2 ⟨listed, rfl⟩, target, rest, split, ?_⟩
    rw [firstErrand, if_pos nonterminal]

/-- The last step down to a nonterminal visits it, and so do the steps before. -/
theorem sends_of_descends (path : ReflTransGen (grammar.Descends guard) source target)
    (nonterminal : grammar.isNonterminal target = true) :
    grammar.isNonterminal source = true ∧
      ReflTransGen (guard.Sends grammar.firstErrandsOf) source target := by
  induction path using ReflTransGen.head_induction_on with
  | refl => exact ⟨nonterminal, .refl⟩
  | head down _ ih => exact ⟨down.1, .head (sends_firstErrandsOf.2 ⟨down, ih.1⟩) ih.2⟩

theorem leads_firstErrand : guard.Leads grammar.firstErrandsOf [grammar.firstErrand symbol] target ↔
    grammar.isNonterminal target = true ∧ ReflTransGen (grammar.Descends guard) symbol target := by
  constructor
  · rintro ⟨source, listed, path⟩
    have visits := List.mem_singleton.1 listed
    rw [firstErrand] at visits
    split at visits
    · next nonterminal =>
        obtain rfl := Errand.visit.inj visits
        refine ⟨?_, ReflTransGen.mono (fun _ _ sends => (sends_firstErrandsOf.1 sends).1) _ _ path⟩
        rcases path.cases_tail with same | ⟨_, _, sends⟩
        · exact same ▸ nonterminal
        · exact (sends_firstErrandsOf.1 sends).2
    · cases visits
  · rintro ⟨nonterminal, path⟩
    obtain ⟨opening, sends⟩ := sends_of_descends path nonterminal
    exact ⟨symbol, by simp [firstErrand, opening], sends⟩

/-- The search for what begins a symbol reports the ends of the paths down from it. -/
theorem mem_firstGuarded : found ∈ (grammar.firstGuarded symbol guard).1 ↔
    grammar.isNonterminal found = false ∧ ReflTransGen (grammar.Descends guard) symbol found := by
  rw [firstGuarded, OrderedSet.mem_ofList, mem_explore]
  simp only [List.mem_singleton, exists_eq_left]
  constructor
  · intro reaches
    generalize same : grammar.firstErrand symbol = errand at reaches
    induction reaches generalizing symbol with
    | report listed =>
        rw [firstErrand] at same
        split at same
        · cases same
        · next terminal =>
            rw [← Errand.report.inj same, List.mem_singleton] at listed
            exact ⟨by simpa [listed] using terminal, listed ▸ .refl⟩
    | visit allowed listed _ ih =>
        rw [firstErrand] at same
        split at same
        · next nonterminal =>
            obtain rfl := Errand.visit.inj same
            obtain ⟨rule, ruled, leading, rest, split, rfl⟩ := mem_firstErrandsOf.1 listed
            obtain ⟨declared, rfl⟩ := mem_rulesFor.1 ruled
            obtain ⟨terminal, path⟩ := ih rfl
            have descends : grammar.Descends guard rule.lhs leading :=
              ⟨nonterminal, allowed, rule, declared, rfl, by simp [split]⟩
            exact ⟨terminal, path.head descends⟩
        · cases same
  · rintro ⟨terminal, path⟩
    induction path using ReflTransGen.head_induction_on with
    | refl =>
        rw [firstErrand, terminal]
        exact .report List.mem_cons_self
    | head down _ ih =>
        obtain ⟨nonterminal, allowed, rule, declared, rfl, head⟩ := down
        obtain ⟨rest, split⟩ := List.head?_eq_some_iff.1 head
        rw [firstErrand, if_pos nonterminal]
        exact .visit allowed
          (mem_firstErrandsOf.2 ⟨rule, mem_rulesFor.2 ⟨declared, rfl⟩, _, rest, split, rfl⟩) ih

theorem allows_firstGuarded : (grammar.firstGuarded symbol guard).2.allows target = true ↔
    guard.allows target = true ∧ ¬ (grammar.isNonterminal target = true ∧
      ReflTransGen (grammar.Descends guard) symbol target) := by
  rw [firstGuarded, allows_explore, leads_firstErrand]

end First

section Follow

theorem mem_followErrandsOf_iff {errand : Errand} : errand ∈ grammar.followErrandsOf symbol ↔
    (symbol = 0 ∧ errand = .report [grammar.endMarker]) ∨ ∃ rule ∈ grammar.rules,
      (∃ front next back, rule.rhs = front ++ symbol :: next :: back ∧
        errand = .report (grammar.first next).toList) ∨
      ∃ front, rule.rhs = front ++ [symbol] ∧ errand = .visit rule.lhs := by
  rw [followErrandsOf, List.mem_append, List.mem_flatMap]
  simp only [mem_occurrenceErrands]
  refine or_congr ?_ Iff.rfl
  split <;> simp_all

theorem sends_followErrandsOf : guard.Sends grammar.followErrandsOf source target ↔
    grammar.Ascends guard source target := by
  rw [Guard.Sends, Ascends, mem_followErrandsOf_iff]
  refine and_congr_right fun _ => ⟨?_, ?_⟩
  · rintro (⟨_, reported⟩ | ⟨rule, listed, ⟨_, _, _, _, reported⟩ | ⟨front, split, visits⟩⟩)
    · cases reported
    · cases reported
    · exact ⟨rule, listed, (Errand.visit.inj visits).symm, by simp [split]⟩
  · rintro ⟨rule, listed, rfl, last⟩
    obtain ⟨front, split⟩ := List.getLast?_eq_some_iff.1 last
    exact .inr ⟨rule, listed, .inr ⟨front, split, rfl⟩⟩

theorem sends_eq_ascends : guard.Sends grammar.followErrandsOf = grammar.Ascends guard := by
  funext source target
  exact propext sends_followErrandsOf

theorem standsBehind_iff : grammar.StandsBehind symbol found ↔
    ∃ symbols, .report symbols ∈ grammar.followErrandsOf symbol ∧ found ∈ symbols := by
  simp only [mem_followErrandsOf_iff, StandsBehind]
  constructor
  · rintro (⟨start, rfl⟩ | ⟨rule, listed, front, next, back, split, inside⟩)
    · exact ⟨_, .inl ⟨start, rfl⟩, List.mem_cons_self⟩
    · exact ⟨_, .inr ⟨rule, listed, .inl ⟨front, next, back, split, rfl⟩⟩, inside⟩
  · rintro ⟨symbols, ⟨start, reported⟩ | ⟨rule, listed, ⟨front, next, back, split, reported⟩ |
      ⟨front, split, reported⟩⟩, inside⟩
    · obtain rfl := Errand.report.inj reported
      exact .inl ⟨start, List.mem_singleton.1 inside⟩
    · obtain rfl := Errand.report.inj reported
      exact .inr ⟨rule, listed, front, next, back, split, inside⟩
    · cases reported

/-- The search for what follows a symbol collects what stands behind the symbols up from it. -/
theorem mem_followGuarded : found ∈ (grammar.followGuarded symbol guard).1 ↔
    ∃ last, ReflTransGen (grammar.Ascends guard) symbol last ∧ guard.allows last = true ∧
      grammar.StandsBehind last found := by
  rw [followGuarded, OrderedSet.mem_ofList, mem_explore]
  simp only [List.mem_singleton, exists_eq_left, Errand.Reaches.visit_iff, sends_eq_ascends,
    standsBehind_iff]

theorem allows_followGuarded : (grammar.followGuarded symbol guard).2.allows target = true ↔
    guard.allows target = true ∧ ¬ ReflTransGen (grammar.Ascends guard) symbol target := by
  rw [followGuarded, allows_explore, Guard.Leads, sends_eq_ascends]
  simp

/-- Nothing is found behind a symbol that is not open. -/
theorem followGuarded_of_refused (refused : guard.allows symbol = false) :
    (grammar.followGuarded symbol guard).1.toList = [] := by
  rw [List.eq_nil_iff_forall_not_mem]
  intro found member
  obtain ⟨last, path, allowed, _⟩ := mem_followGuarded.1 (OrderedSet.mem_toList.1 member)
  rw [← sends_eq_ascends] at path
  obtain rfl := Guard.eq_of_refused path (by simp [refused])
  simp [refused] at allowed

end Follow

section Inquiries

inductive Inquiry
  | first (symbol : Symbol)
  | follow (symbol : Symbol)

def inquire (grammar : Grammar) (guard : Guard) : Inquiry → OrderedSet Symbol × Guard
  | .first symbol => grammar.firstGuarded symbol guard
  | .follow symbol => grammar.followGuarded symbol guard

/-- Each inquiry uses the guard that the one before it leaves. -/
def inquireAll (grammar : Grammar) (guard : Guard) :
    List Inquiry → List (OrderedSet Symbol) × Guard
  | [] => ([], guard)
  | inquiry :: rest =>
      let answer := grammar.inquire guard inquiry
      let later := grammar.inquireAll answer.2 rest
      (answer.1 :: later.1, later.2)

theorem inquire_congr (same : guard.OpensAs other) (inquiry : Inquiry) :
    (grammar.inquire guard inquiry).1 = (grammar.inquire other inquiry).1 ∧
      (grammar.inquire guard inquiry).2.OpensAs (grammar.inquire other inquiry).2 := by
  cases inquiry with
  | first symbol =>
      obtain ⟨found, left⟩ := explore_congr grammar.firstErrandsOf same
      exact ⟨congrArg OrderedSet.ofList found, left⟩
  | follow symbol =>
      obtain ⟨found, left⟩ := explore_congr grammar.followErrandsOf same
      exact ⟨congrArg OrderedSet.ofList found, left⟩

theorem inquireAll_congr (same : guard.OpensAs other) (inquiries : List Inquiry) :
    (grammar.inquireAll guard inquiries).1 = (grammar.inquireAll other inquiries).1 ∧
      (grammar.inquireAll guard inquiries).2.OpensAs (grammar.inquireAll other inquiries).2 := by
  induction inquiries generalizing guard other with
  | nil => exact ⟨rfl, same⟩
  | cons inquiry rest ih =>
      obtain ⟨found, left⟩ := inquire_congr same inquiry
      obtain ⟨later, ending⟩ := ih left
      exact ⟨List.cons_eq_cons.2 ⟨found, later⟩, ending⟩

end Inquiries

/--
A vector of marks of any size is a guard that leaves the unmarked symbols open, to enter a symbol is
to mark it, and a search sees nothing else of the guard. What begins a symbol are the symbols other
than nonterminals to which a path leads down from it, along first symbols of rules and through open
nonterminals. What follows a symbol stands behind an open symbol to which a path leads up, along
last symbols of rules. The first search enters the open nonterminals on its way down, whether or not
a path goes on from them to another symbol, the second one the open symbols on its way up, and both
leave the others open. So the answers to any inquiries that share a guard depend only on which
symbols are open before them.
-/
theorem searches_told_by_open (grammar : Grammar) :
    (∀ marks symbol, (Guard.ofMarks marks).allows symbol = true ↔ marks[symbol]? = some false) ∧
    (∀ marks symbol, (Guard.ofMarks marks).enter symbol =
      Guard.ofMarks (marks.set symbol true)) ∧
    (∀ guard symbol found, found ∈ (grammar.firstGuarded symbol guard).1 ↔
      grammar.isNonterminal found = false ∧
        ReflTransGen (grammar.Descends guard) symbol found) ∧
    (∀ guard symbol target, (grammar.firstGuarded symbol guard).2.allows target = true ↔
      guard.allows target = true ∧ ¬ (grammar.isNonterminal target = true ∧
        ReflTransGen (grammar.Descends guard) symbol target)) ∧
    (∀ guard symbol found, found ∈ (grammar.followGuarded symbol guard).1 ↔
      ∃ last, ReflTransGen (grammar.Ascends guard) symbol last ∧ guard.allows last = true ∧
        grammar.StandsBehind last found) ∧
    (∀ guard symbol, guard.allows symbol = false →
      (grammar.followGuarded symbol guard).1.toList = []) ∧
    (∀ guard symbol target, (grammar.followGuarded symbol guard).2.allows target = true ↔
      guard.allows target = true ∧ ¬ ReflTransGen (grammar.Ascends guard) symbol target) ∧
    ∀ guard other : Guard, guard.OpensAs other → ∀ inquiries,
      (grammar.inquireAll guard inquiries).1 = (grammar.inquireAll other inquiries).1 ∧
      (grammar.inquireAll guard inquiries).2.OpensAs (grammar.inquireAll other inquiries).2 :=
  ⟨fun _ _ => Guard.allows_ofMarks, Guard.enter_ofMarks, fun _ _ _ => mem_firstGuarded,
    fun _ _ _ => allows_firstGuarded, fun _ _ _ => mem_followGuarded,
    fun _ _ => followGuarded_of_refused, fun _ _ _ => allows_followGuarded,
    fun _ _ same => inquireAll_congr same⟩

/-- A guard that ends before a symbol answers like a longer one that has marked the symbol. -/
theorem searches_told_by_open_sizes : ∃ compiled, CompiledGrammar.ofText "S S a" = .ok compiled ∧
    (Guard.ofMarks [true, false]).allows 2 = false ∧
    (compiled.grammar.followGuarded 2 (Guard.ofMarks [true, false])).1.toList = [] ∧
    (Guard.ofMarks [true, false]).OpensAs (Guard.ofMarks [true, false, true]) ∧
    ∀ inquiries, (compiled.grammar.inquireAll (Guard.ofMarks [true, false]) inquiries).1 =
      (compiled.grammar.inquireAll (Guard.ofMarks [true, false, true]) inquiries).1 := by
  obtain ⟨compiled, compiles, _⟩ := CompiledGrammar.exists_of_ofText "S S a" (fun _ => true)
    (by decide +kernel)
  obtain ⟨_, _, _, _, _, refused, _, told⟩ := searches_told_by_open compiled.grammar
  have opens : (Guard.ofMarks [true, false]).OpensAs (Guard.ofMarks [true, false, true]) := by
    intro symbol
    rfl
  exact ⟨compiled, compiles, rfl, refused _ 2 rfl, opens, fun inquiries =>
    (told _ _ opens inquiries).1⟩

/-- The only rule of a nonterminal may begin with itself. The search enters it, yet no path ends. -/
theorem entered_off_paths : ∃ compiled, CompiledGrammar.ofText "S S a" = .ok compiled ∧
    ∃ guard, guard = Guard.fresh compiled.grammar.vocabulary.size ∧
      ¬ ((guard.allows 1 = true ∧ (compiled.grammar.firstGuarded 1 guard).2.allows 1 = false) ↔
        (guard.allows 1 = true ∧ compiled.grammar.isNonterminal 1 = true ∧ ∃ found,
          compiled.grammar.isNonterminal found = false ∧
          ReflTransGen (compiled.grammar.Descends guard) 1 1 ∧
          ReflTransGen (compiled.grammar.Descends guard) 1 found)) := by
  obtain ⟨compiled, compiles, evaluated⟩ := CompiledGrammar.exists_of_ofText "S S a"
    (fun compiled => let guard := Guard.fresh compiled.grammar.vocabulary.size
      decide (guard.allows 1 = true ∧ compiled.grammar.isNonterminal 1 = true ∧
        (compiled.grammar.firstGuarded 1 guard).2.allows 1 = false ∧
        ∀ rule ∈ compiled.grammar.rules, rule.lhs = 1 → rule.rhs.head? = some 1))
    (by decide +kernel)
  obtain ⟨allowed, nonterminal, entered, alone⟩ := of_decide_eq_true evaluated
  refine ⟨compiled, compiles, _, rfl, fun same => ?_⟩
  obtain ⟨_, _, found, terminal, _, path⟩ := same.1 ⟨allowed, entered⟩
  have back (other : Symbol) (path : ReflTransGen (compiled.grammar.Descends
      (.fresh compiled.grammar.vocabulary.size)) 1 other) : other = 1 := by
    -- Every step down from the nonterminal leads back to it.
    induction path with
    | refl => rfl
    | tail _ down ih =>
        obtain ⟨_, _, rule, listed, lhs, head⟩ := down
        rw [alone rule listed (lhs.trans ih)] at head
        exact (Option.some.inj head).symm
  rw [back found path, nonterminal] at terminal
  cases terminal

end Grammar

end ShiftReduce
