/-
This file shows what a session holds after any operations, told from their history alone.
-/

import ShiftReduce.Proofs.Unambiguity
import ShiftReduce.Session

namespace ShiftReduce.Session

inductive Operation
  | compile (text : String)
  | run (sentence : String)
  | clear
  | clearTrace

/-- A compilation puts something else in the place of the grammar, even when it fails. -/
def Operation.replacesGrammar : Operation → Bool
  | .compile _ | .clear => true
  | .run _ | .clearTrace => false

/-- Only a run leaves a trace behind. -/
def Operation.discardsTrace : Operation → Bool
  | .run _ => false
  | .compile _ | .clear | .clearTrace => true

theorem Operation.eq_run {operation : Operation} (keeps : operation.discardsTrace = false) :
    ∃ sentence, operation = .run sentence := by
  cases operation with
  | run sentence => exact ⟨sentence, rfl⟩
  | compile _ | clear | clearTrace => cases keeps

def perform (session : Session) : Operation → Session
  | .compile text => (session.compile text).2
  | .run sentence => (session.run sentence).2
  | .clear => session.clear
  | .clearTrace => session.clearTrace

/-- A fresh session performs the operations one after the other. -/
def after (operations : List Operation) : Session :=
  operations.foldl perform .empty

/-- The last compilation gave this grammar, and the session was not cleared since then. -/
def Holds (operations : List Operation) (compiled : CompiledGrammar) : Prop :=
  ∃ earlier text later, operations = earlier ++ .compile text :: later ∧
    CompiledGrammar.ofText text = .ok compiled ∧
    ∀ operation ∈ later, operation.replacesGrammar = false

/-- The latest operation runs this sentence, and there is a grammar to run it. -/
def Runs (operations : List Operation) (compiled : CompiledGrammar) (sentence : String) : Prop :=
  ∃ earlier, operations = earlier ++ [.run sentence] ∧ Holds operations compiled

/-- The grammar and the trace are kept in places that know nothing of each other. -/
structure Places where
  grammar : Option CompiledGrammar
  trace : Option Trace

namespace Places

def vacant : Places := ⟨none, none⟩

def perform (places : Places) : Operation → Places
  | .compile text =>
      match CompiledGrammar.ofText text with
      | .error _ => vacant
      | .ok compiled => { vacant with grammar := some compiled }
  | .run sentence =>
      match places.grammar with
      | none => places
      | some compiled => { places with trace := some (compiled.run sentence) }
  | .clear => vacant
  | .clearTrace => { places with trace := none }

/-- Whatever trace is there is replayed against whatever rules are there. -/
def tree? (places : Places) : Option Tree :=
  places.grammar.bind fun compiled =>
    places.trace.bind fun trace => (compiled.tree trace).toOption

end Places

def places (session : Session) : Places := ⟨session.compiled?, session.trace?⟩

variable {session : Session} {operations : List Operation} {operation : Operation}
  {compiled : CompiledGrammar} {sentence text : String}

section Operations

theorem compiled?_compile (session : Session) (text : String) :
    (session.compile text).2.compiled? = (CompiledGrammar.ofText text).toOption := by
  rw [compile]
  cases CompiledGrammar.ofText text <;> rfl

theorem trace?_compile (session : Session) (text : String) :
    (session.compile text).2.trace? = none := by
  rw [compile]
  cases CompiledGrammar.ofText text <;> rfl

@[simp] theorem compiled?_run (session : Session) (sentence : String) :
    (session.run sentence).2.compiled? = session.compiled? := by
  cases session <;> rfl

@[simp] theorem trace?_run (session : Session) (sentence : String) :
    (session.run sentence).2.trace? =
      session.compiled?.map fun compiled => compiled.run sentence := by
  cases session <;> rfl

@[simp] theorem compiled?_clearTrace (session : Session) :
    session.clearTrace.compiled? = session.compiled? := by
  cases session <;> rfl

@[simp] theorem trace?_clearTrace (session : Session) : session.clearTrace.trace? = none := by
  cases session <;> rfl

theorem run_of_compiled?_eq_none (absent : session.compiled? = none) (sentence : String) :
    session.run sentence = (none, session) := by
  rw [run, absent]

theorem tree?_eq (session : Session) : session.tree? = session.places.tree? := by
  cases session <;> rfl

/-- Both places change in step. -/
theorem places_perform (session : Session) (operation : Operation) :
    (session.perform operation).places = session.places.perform operation := by
  cases operation with
  | compile text =>
      rw [perform, compile, Places.perform]
      cases CompiledGrammar.ofText text <;> rfl
  | run sentence => cases session <;> rfl
  | clear => rfl
  | clearTrace => cases session <;> rfl

theorem places_foldl (session : Session) (operations : List Operation) :
    (operations.foldl perform session).places =
      operations.foldl Places.perform session.places := by
  induction operations generalizing session with
  | nil => rfl
  | cons operation rest ih => rw [List.foldl_cons, List.foldl_cons, ih, places_perform]

end Operations

section History

theorem after_concat (operations : List Operation) (operation : Operation) :
    after (operations ++ [operation]) = (after operations).perform operation :=
  List.foldl_concat ..

/-- The last operation gives the grammar itself, or it leaves the held one where it is. -/
theorem holds_concat_iff : Holds (operations ++ [operation]) compiled ↔
    (∃ text, operation = .compile text ∧ CompiledGrammar.ofText text = .ok compiled) ∨
      operation.replacesGrammar = false ∧ Holds operations compiled := by
  constructor
  · rintro ⟨earlier, text, later, split, compiles, kept⟩
    rcases later.eq_nil_or_concat' with rfl | ⟨later, last, rfl⟩
    · obtain ⟨_, same⟩ := List.append_inj' split rfl
      exact .inl ⟨text, List.singleton_inj.1 same, compiles⟩
    · rw [← List.cons_append, ← List.append_assoc] at split
      obtain ⟨rfl, same⟩ := List.append_inj' split rfl
      obtain rfl := List.singleton_inj.1 same
      exact .inr ⟨kept operation (by simp), earlier, text, later, rfl, compiles,
        fun other inside => kept other (by simp [inside])⟩
  · rintro (⟨text, rfl, compiles⟩ | ⟨keeps, earlier, text, later, rfl, compiles, kept⟩)
    · exact ⟨operations, text, [], rfl, compiles, by simp⟩
    · refine ⟨earlier, text, later ++ [operation], by simp, compiles, ?_⟩
      intro other inside
      rcases List.mem_append.1 inside with old | last
      · exact kept other old
      · rw [List.mem_singleton.1 last]
        exact keeps

theorem holds_concat (keeps : operation.replacesGrammar = false) :
    Holds (operations ++ [operation]) compiled ↔ Holds operations compiled := by
  rw [holds_concat_iff]
  cases operation <;> simp_all [Operation.replacesGrammar]

theorem Holds.append {more : List Operation} (held : Holds operations compiled)
    (keep : ∀ operation ∈ more, operation.replacesGrammar = false) :
    Holds (operations ++ more) compiled := by
  induction more using List.reverseRecOn with
  | nil => simpa using held
  | append_singleton more operation ih =>
      rw [List.forall_mem_append] at keep
      rw [← List.append_assoc]
      exact (holds_concat (keep.2 operation (by simp))).2 (ih keep.1)

/-- The held grammar is told by the history. -/
theorem compiled?_after_iff : (after operations).compiled? = some compiled ↔
    Holds operations compiled := by
  induction operations using List.reverseRecOn with
  | nil =>
      constructor
      · exact nofun
      · rintro ⟨earlier, text, later, split, _⟩
        simp at split
  | append_singleton operations operation ih =>
      rw [after_concat]
      cases operation with
      | compile text =>
          simp only [perform, compiled?_compile, holds_concat_iff, Operation.compile.injEq,
            exists_eq_left', Operation.replacesGrammar, Bool.true_eq_false, false_and, or_false]
          cases CompiledGrammar.ofText text <;> simp [Except.toOption]
      | run sentence => rw [perform, compiled?_run, ih, holds_concat rfl]
      | clear => simp [perform, clear, compiled?, holds_concat_iff, Operation.replacesGrammar]
      | clearTrace => rw [perform, compiled?_clearTrace, ih, holds_concat rfl]

theorem Holds.unique {other : CompiledGrammar} (held : Holds operations compiled)
    (again : Holds operations other) : compiled = other := by
  rw [← compiled?_after_iff] at held again
  exact Option.some.inj (held.symm.trans again)

theorem runs_concat_iff : Runs (operations ++ [operation]) compiled sentence ↔
    operation = .run sentence ∧ (after operations).compiled? = some compiled := by
  rw [compiled?_after_iff]
  constructor
  · rintro ⟨earlier, split, held⟩
    obtain ⟨_, same⟩ := List.append_inj' split rfl
    obtain rfl := List.singleton_inj.1 same
    exact ⟨rfl, (holds_concat rfl).1 held⟩
  · rintro ⟨rfl, held⟩
    exact ⟨operations, rfl, (holds_concat rfl).2 held⟩

/-- The held trace is that of the last operation, which runs the held grammar. -/
theorem trace?_after_iff {trace : Trace} : (after operations).trace? = some trace ↔
    ∃ compiled sentence, Runs operations compiled sentence ∧ trace = compiled.run sentence := by
  rcases operations.eq_nil_or_concat' with rfl | ⟨earlier, operation, rfl⟩
  · simp [after, trace?, Runs]
  · rw [after_concat]
    cases operation with
    | compile text => simp [perform, trace?_compile, runs_concat_iff]
    | run sentence =>
        simp only [perform, trace?_run, runs_concat_iff, Option.map_eq_some_iff,
          Operation.run.injEq]
        constructor
        · rintro ⟨compiled, held, rfl⟩
          exact ⟨compiled, sentence, ⟨rfl, held⟩, rfl⟩
        · rintro ⟨compiled, _, ⟨rfl, held⟩, rfl⟩
          exact ⟨compiled, held, rfl⟩
    | clear => simp [perform, clear, trace?, runs_concat_iff]
    | clearTrace => simp [perform, runs_concat_iff]

/-- There is a trace when some run found a grammar and no later operation discarded its trace. -/
theorem isSome_trace?_after_iff : (after operations).trace?.isSome = true ↔
    ∃ earlier sentence later, operations = earlier ++ .run sentence :: later ∧
      (∃ compiled, Holds earlier compiled) ∧
      ∀ operation ∈ later, operation.discardsTrace = false := by
  rw [Option.isSome_iff_exists]
  constructor
  · rintro ⟨trace, found⟩
    obtain ⟨compiled, sentence, ⟨earlier, rfl, held⟩, _⟩ := trace?_after_iff.1 found
    exact ⟨earlier, sentence, [], rfl, ⟨compiled, (holds_concat rfl).1 held⟩, by simp⟩
  · rintro ⟨earlier, sentence, later, rfl, ⟨compiled, held⟩, kept⟩
    have runs : ∀ operation ∈ Operation.run sentence :: later, ∃ other, operation = .run other := by
      intro operation inside
      rcases List.mem_cons.1 inside with rfl | behind
      · exact ⟨sentence, rfl⟩
      · exact Operation.eq_run (kept operation behind)
    -- The last of these operations is a run, and it finds the grammar that the others have left.
    obtain ⟨front, last, split⟩ :=
      (List.eq_nil_or_concat' (Operation.run sentence :: later)).resolve_left (List.cons_ne_nil _ _)
    rw [split] at runs ⊢
    obtain ⟨other, rfl⟩ := runs last (by simp)
    have held : Holds (earlier ++ front) compiled := held.append fun operation inside => by
      obtain ⟨_, rfl⟩ := runs operation (by simp [inside])
      rfl
    rw [← List.append_assoc]
    exact ⟨_, trace?_after_iff.2 ⟨compiled, other,
      runs_concat_iff.2 ⟨rfl, compiled?_after_iff.2 held⟩, rfl⟩⟩

/-- A tree is the parse of the sentence that the last operation ran and accepted. -/
theorem tree?_after_iff {tree : Tree} : (after operations).tree? = some tree ↔
    ∃ compiled sentence, Runs operations compiled sentence ∧
      (compiled.run sentence).state = .accepted ∧ tree.IsParse compiled.grammar ∧
      compiled.grammar.Spells sentence tree.leaves := by
  simp only [tree?_eq, Places.tree?, places, Option.bind_eq_some_iff, toOption_eq_some_iff,
    trace?_after_iff, compiled?_after_iff]
  constructor
  · rintro ⟨compiled, held, _, ⟨other, sentence, runs, rfl⟩, rebuilt⟩
    obtain ⟨_, _, again⟩ := id runs
    obtain rfl := held.unique again
    exact ⟨compiled, sentence, runs, CompiledGrammar.tree_run_eq_ok_iff.1 rebuilt⟩
  · rintro ⟨compiled, sentence, runs, accepted⟩
    obtain ⟨_, _, held⟩ := id runs
    exact ⟨compiled, held, _, ⟨compiled, sentence, runs, rfl⟩,
      CompiledGrammar.tree_run_eq_ok_iff.2 accepted⟩

theorem isSome_tree?_after_iff : (after operations).tree?.isSome = true ↔
    ∃ trace, (after operations).trace? = some trace ∧ trace.state = .accepted := by
  simp only [Option.isSome_iff_exists, tree?_after_iff, trace?_after_iff]
  constructor
  · rintro ⟨tree, compiled, sentence, runs, accepted, _⟩
    exact ⟨_, ⟨compiled, sentence, runs, rfl⟩, accepted⟩
  · rintro ⟨_, ⟨compiled, sentence, runs, rfl⟩, accepted⟩
    obtain ⟨tree, rebuilt⟩ := CompiledGrammar.exists_tree_run_iff.2 accepted
    exact ⟨tree, compiled, sentence, runs, CompiledGrammar.tree_run_eq_ok_iff.1 rebuilt⟩

theorem after_failed_compile {error : GrammarError}
    (fails : CompiledGrammar.ofText text = .error error) :
    after (operations ++ [.compile text]) = .empty := by
  rw [after_concat, perform, compile, fails]

/--
After any operations a session holds the grammar of the last compilation, if that succeeded and no
clearing came later, and the trace of the last run, if that found a grammar and nothing discarded
the trace since. The trace is always that of the held grammar, so the tree is the parse of the last
sentence, and there is one exactly when the trace is accepted. A run without a grammar changes
nothing. It is the same when grammar and trace are kept in places that know nothing of each other.
-/
theorem after_told_by_history (operations : List Operation) :
    (∀ compiled, (after operations).compiled? = some compiled ↔ Holds operations compiled) ∧
    (∀ text error, CompiledGrammar.ofText text = .error error →
      after (operations ++ [.compile text]) = .empty) ∧
    ((after operations).trace?.isSome = true ↔ ∃ earlier sentence later,
      operations = earlier ++ .run sentence :: later ∧ (∃ compiled, Holds earlier compiled) ∧
      ∀ operation ∈ later, operation.discardsTrace = false) ∧
    (∀ trace, (after operations).trace? = some trace ↔
      ∃ compiled sentence, Runs operations compiled sentence ∧ trace = compiled.run sentence) ∧
    ((∀ compiled, ¬ Holds operations compiled) → ∀ sentence,
      (after operations).run sentence = (none, after operations)) ∧
    ((after operations).tree?.isSome = true ↔
      ∃ trace, (after operations).trace? = some trace ∧ trace.state = .accepted) ∧
    (∀ tree, (after operations).tree? = some tree ↔ ∃ compiled sentence,
      Runs operations compiled sentence ∧ (compiled.run sentence).state = .accepted ∧
      tree.IsParse compiled.grammar ∧ compiled.grammar.Spells sentence tree.leaves) ∧
    (after operations).places = operations.foldl Places.perform .vacant ∧
    (after operations).tree? = (operations.foldl Places.perform .vacant).tree? := by
  have inStep : (after operations).places = operations.foldl Places.perform .vacant :=
    places_foldl .empty operations
  refine ⟨fun compiled => compiled?_after_iff, fun text error => after_failed_compile,
    isSome_trace?_after_iff, fun trace => trace?_after_iff, ?_, isSome_tree?_after_iff,
    fun tree => tree?_after_iff, inStep, by rw [tree?_eq, inStep]⟩
  intro absent sentence
  apply run_of_compiled?_eq_none
  rw [Option.eq_none_iff_forall_ne_some]
  exact fun compiled held => absent compiled (compiled?_after_iff.1 held)

end History

end ShiftReduce.Session
