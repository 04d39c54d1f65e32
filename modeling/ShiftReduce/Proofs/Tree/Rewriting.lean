/-
This file shows that a replay against any rules rewrites a string at its rightmost left-hand sides.
-/

import ShiftReduce.Proofs.Unambiguity

namespace ShiftReduce

/--
The rightmost occurrence of the left-hand side gives way to the right-hand side. An empty right-hand
side leaves the string as it is.
-/
inductive Rule.RewritesLast (rule : Rule) : List Symbol → List Symbol → Prop
  | replace (front back : List Symbol) (last : rule.lhs ∉ back) (filled : rule.rhs ≠ []) :
      RewritesLast rule (front ++ rule.lhs :: back) (front ++ rule.rhs ++ back)
  | keep {string : List Symbol} (occurs : rule.lhs ∈ string) (empty : rule.rhs = []) :
      RewritesLast rule string string

/-- A string splits in one way only at the last occurrence of a symbol. -/
theorem eq_of_last_occurrence {symbol : Symbol} {front behind front' behind' : List Symbol}
    (last : symbol ∉ behind) (last' : symbol ∉ behind')
    (same : front ++ symbol :: behind = front' ++ symbol :: behind') :
    front = front' ∧ behind = behind' := by
  rcases List.append_eq_append_iff.1 same with ⟨between, rfl, cut⟩ | ⟨between, rfl, cut⟩
  · cases between <;> simp_all
  · cases between <;> simp_all

namespace Rule.RewritesLast

variable {rule : Rule} {before after other back : List Symbol}

theorem occurs (rewrites : rule.RewritesLast before after) : rule.lhs ∈ before := by
  cases rewrites with
  | replace front back last filled => simp
  | keep occurs empty => exact occurs

theorem exists_of_mem (occurs : rule.lhs ∈ before) : ∃ after, rule.RewritesLast before after := by
  by_cases empty : rule.rhs = []
  · exact ⟨before, .keep occurs empty⟩
  · obtain ⟨back, front, split, last⟩ := List.eq_append_cons_of_mem (List.mem_reverse.2 occurs)
    rw [List.reverse_eq_iff] at split
    have whole := RewritesLast.replace front.reverse back.reverse (by simpa) empty
    exact ⟨_, by simpa [split] using whole⟩

theorem unique (rewrites : rule.RewritesLast before after)
    (again : rule.RewritesLast before other) : after = other := by
  generalize same : before = string at again
  cases rewrites with
  | replace front back last filled =>
      cases again with
      | replace front' back' last' _ =>
          obtain ⟨rfl, rfl⟩ := eq_of_last_occurrence last last' same
          rfl
      | keep _ empty => exact absurd empty filled
  | keep _ empty =>
      cases again with
      | replace _ _ _ filled => exact absurd empty filled
      | keep _ _ => exact same

theorem behind (rewrites : rule.RewritesLast before after) (front : List Symbol) :
    rule.RewritesLast (front ++ before) (front ++ after) := by
  cases rewrites with
  | replace inner back last filled =>
      have whole := RewritesLast.replace (front ++ inner) back last filled
      simpa only [List.append_assoc] using whole
  | keep occurs empty => exact .keep (List.mem_append_right _ occurs) empty

theorem ahead (rewrites : rule.RewritesLast before after) (clear : rule.lhs ∉ back) :
    rule.RewritesLast (before ++ back) (after ++ back) := by
  cases rewrites with
  | replace front inner last filled =>
      have whole := RewritesLast.replace front (inner ++ back) (by simp [last, clear]) filled
      simpa only [List.append_assoc, List.cons_append] using whole
  | keep occurs empty => exact .keep (List.mem_append_left _ occurs) empty

end Rule.RewritesLast

/-- A rule adds one inner node to a tree, unless its right-hand side is empty. -/
def Rule.innerNodes (rules : List Rule) : List Rule :=
  rules.filter fun rule => rule.rhs ≠ []

namespace Tree

/-- A rule rewrites the leaves of a forest, adds its node and keeps the roots. -/
structure Grows (rule : Rule) (before after : List Tree) : Prop where
  roots : after.map Tree.symbol = before.map Tree.symbol
  leaves : rule.RewritesLast (leavesOf before) (leavesOf after)
  nodes : (postorderOf after).Perm (postorderOf before ++ Rule.innerNodes [rule])

section Growth

variable {rule : Rule} {tree result : Tree} {trees results : List Tree} {symbol : Symbol}

theorem postorderOf_leaves (symbols : List Symbol) : postorderOf (symbols.map leaf) = [] := by
  induction symbols with
  | nil => simp [postorderOf]
  | cons symbol rest ih => simp [postorderOf, postorder_leaf, ih]

theorem grows_leaf (rule : Rule) :
    Grows rule [leaf rule.lhs] [.node rule.lhs (rule.rhs.map leaf)] := by
  by_cases empty : rule.rhs = []
  · rw [empty, List.map_nil, ← leaf]
    refine ⟨rfl, .keep ?_ empty, ?_⟩
    · simp [leavesOf_singleton, leaves_leaf]
    · simp [Rule.innerNodes, empty]
  · have inner : rule.rhs.map leaf ≠ [] := by simpa using empty
    refine ⟨rfl, ?_, ?_⟩
    · have whole : rule.RewritesLast _ _ := .replace [] [] List.not_mem_nil empty
      simpa [leavesOf_singleton, leaves_leaf, leaves_node inner, leavesOf_leaves] using whole
    · have symbols : (rule.rhs.map leaf).map Tree.symbol = rule.rhs := by
        rw [List.map_map]
        exact List.map_id rule.rhs
      simp [postorderOf_singleton, postorder_leaf, postorder_node inner, postorderOf_leaves,
        symbols, Rule.innerNodes, empty]

theorem Grows.node (grows : Grows rule trees results) (inner : trees ≠ []) :
    Grows rule [.node symbol trees] [.node symbol results] := by
  have filled : results ≠ [] := by
    intro none
    have roots := grows.roots
    rw [none, List.map_nil, eq_comm, List.map_eq_nil_iff] at roots
    exact inner roots
  refine ⟨rfl, ?_, ?_⟩
  · simpa [leavesOf_singleton, leaves_node, inner, filled] using grows.leaves
  · simp only [postorderOf_singleton, postorder_node, inner, filled, ne_eq, not_false_eq_true,
      grows.roots]
    exact (grows.nodes.append_right _).trans (by
      simpa only [List.append_assoc] using List.perm_append_comm.append_left _)

theorem Grows.behind (grows : Grows rule trees results) (tree : Tree) :
    Grows rule (tree :: trees) (tree :: results) := by
  refine ⟨?_, ?_, ?_⟩
  · rw [List.map_cons, List.map_cons, grows.roots]
  · rw [leavesOf, leavesOf]
    exact grows.leaves.behind _
  · rw [postorderOf, postorderOf, List.append_assoc]
    exact grows.nodes.append_left _

theorem Grows.ahead (grows : Grows rule [tree] [result]) (clear : rule.lhs ∉ leavesOf trees) :
    Grows rule (tree :: trees) (result :: trees) := by
  obtain ⟨roots, leaves, nodes⟩ := grows
  rw [leavesOf_singleton, leavesOf_singleton] at leaves
  rw [postorderOf_singleton, postorderOf_singleton] at nodes
  refine ⟨?_, ?_, ?_⟩
  · simpa using roots
  · rw [leavesOf, leavesOf]
    exact leaves.ahead clear
  · rw [postorderOf, postorderOf]
    exact (nodes.append_right _).trans (by
      simpa only [List.append_assoc] using List.perm_append_comm.append_left _)

mutual

/-- A tree has no place for a rule exactly when no leaf has the left-hand side. -/
theorem expand?_eq_none_iff (rule : Rule) : (tree : Tree) →
    (tree.expand? rule = none ↔ rule.lhs ∉ tree.leaves)
  | .node symbol [] => by simp [expand?, leaves, eq_comm]
  | .node symbol (child :: children) => by
      rw [expand?, leaves, Option.map_eq_none_iff]
      exact expandOf?_eq_none_iff rule (child :: children)

theorem expandOf?_eq_none_iff (rule : Rule) : (trees : List Tree) →
    (expandOf? rule trees = none ↔ rule.lhs ∉ leavesOf trees)
  | [] => by simp [expandOf?, leavesOf]
  | tree :: trees => by
      have here := expand?_eq_none_iff rule tree
      have behind := expandOf?_eq_none_iff rule trees
      rw [leavesOf, List.mem_append, not_or, ← here, ← behind]
      cases closed : expandOf? rule trees with
      | none => simp [expandOf?_cons_of_none closed]
      | some expanded => simp [expandOf?_cons_of_some closed]

end

mutual

/-- The first place that the search finds is the rightmost one. -/
theorem grows_of_expand? : (tree : Tree) → {result : Tree} →
    tree.expand? rule = some result → Grows rule [tree] [result]
  | .node symbol [], result, expands => by
      rw [expand?] at expands
      split at expands
      · next here =>
          obtain rfl := Option.some.inj expands
          exact here ▸ grows_leaf rule
      · cases expands
  | .node symbol (child :: children), result, expands => by
      rw [expand?] at expands
      obtain ⟨expanded, inside, rfl⟩ := Option.map_eq_some_iff.1 expands
      exact (grows_of_expandOf? (child :: children) inside).node (List.cons_ne_nil _ _)

theorem grows_of_expandOf? : (trees : List Tree) → {results : List Tree} →
    expandOf? rule trees = some results → Grows rule trees results
  | [], results, expands => by cases expands
  | tree :: trees, results, expands => by
      cases closed : expandOf? rule trees with
      | some expanded =>
          rw [expandOf?_cons_of_some closed] at expands
          obtain rfl := Option.some.inj expands
          exact (grows_of_expandOf? trees closed).behind tree
      | none =>
          rw [expandOf?_cons_of_none closed] at expands
          obtain ⟨expanded, here, rfl⟩ := Option.map_eq_some_iff.1 expands
          exact (grows_of_expand? tree here).ahead ((expandOf?_eq_none_iff rule trees).1 closed)

end

/-- A rule that rewrites the leaves of a tree expands it accordingly. -/
theorem exists_expand? {after : List Symbol} (rewrites : rule.RewritesLast tree.leaves after) :
    ∃ result, tree.expand? rule = some result ∧ result.leaves = after ∧
      result.symbol = tree.symbol ∧
      result.postorder.Perm (tree.postorder ++ Rule.innerNodes [rule]) := by
  obtain ⟨result, expands⟩ : ∃ result, tree.expand? rule = some result := by
    rw [← Option.isSome_iff_exists, ← Option.ne_none_iff_isSome, Ne, expand?_eq_none_iff]
    exact not_not_intro rewrites.occurs
  obtain ⟨roots, leaves, nodes⟩ := grows_of_expand? tree expands
  rw [leavesOf_singleton, leavesOf_singleton] at leaves
  rw [postorderOf_singleton, postorderOf_singleton] at nodes
  exact ⟨result, expands, leaves.unique rewrites, by simpa using roots, nodes⟩

end Growth

/-- Reductions rewrite a string one after the other, each by its own rule. -/
inductive Replays (rules : List Rule) : List Symbol → List Reduction → List Symbol → Prop
  | done (string : List Symbol) : Replays rules string [] string
  | step {reduction : Reduction} {rest : List Reduction} {rule : Rule}
      {before middle after : List Symbol} (found : rules[reduction.rule]? = some rule)
      (rewrites : rule.RewritesLast before middle) (later : Replays rules middle rest after) :
      Replays rules before (reduction :: rest) after

/-- A reduction breaks off without its rule or without an occurrence of the left-hand side. -/
inductive Breaks (rules : List Rule) (string : List Symbol) (reduction : Reduction) :
    TreeError → Prop
  | unknownRule (absent : rules[reduction.rule]? = none) :
      Breaks rules string reduction (.unknownRule reduction.step reduction.rule)
  | unattached {rule : Rule} (found : rules[reduction.rule]? = some rule)
      (missing : rule.lhs ∉ string) :
      Breaks rules string reduction (.unattached reduction.step reduction.rule)

/-- The first reduction that cannot rewrite the string decides the error. -/
def BreaksOff (rules : List Rule) (before : List Symbol) (reductions : List Reduction)
    (error : TreeError) : Prop :=
  ∃ earlier reduction later string, reductions = earlier ++ reduction :: later ∧
    Replays rules before earlier string ∧ Breaks rules string reduction error

/-- The string starts as the left-hand side of the first rule. -/
def firstString (rules : List Rule) (reductions : List Reduction) : List Symbol :=
  ((reductions.head?.bind fun first => rules[first.rule]?).map Rule.lhs).toList

section Replay

variable {rules : List Rule} {reductions earlier later : List Reduction} {reduction : Reduction}
  {tree : Tree} {before after : List Symbol} {error : TreeError}

theorem Breaks.attach_eq (breaks : Breaks rules tree.leaves reduction error) :
    attach rules (some tree) reduction = .error error := by
  cases breaks with
  | unknownRule absent => simp [attach, absent]
  | unattached found missing =>
      simp [attach, found, (expand?_eq_none_iff _ tree).2 missing]

/-- While the reductions rewrite the leaves, the replay expands the tree. -/
theorem Replays.exists_tree (replays : Replays rules tree.leaves reductions after)
    (later : List Reduction) : ∃ result,
      replay rules (some tree) (reductions ++ later) = replay rules (some result) later ∧
      result.leaves = after ∧ result.symbol = tree.symbol ∧
      result.postorder.Perm (tree.postorder ++
        Rule.innerNodes (reductions.filterMap fun reduction => rules[reduction.rule]?)) := by
  generalize start : tree.leaves = before at replays
  induction replays generalizing tree with
  | done string => exact ⟨tree, rfl, start, rfl, by simp [Rule.innerNodes]⟩
  | @step reduction rest rule before middle after found rewrites _ ih =>
      obtain ⟨expanded, expands, leaves, root, nodes⟩ := exists_expand? (start ▸ rewrites)
      obtain ⟨result, continues, yields, top, more⟩ := ih leaves
      refine ⟨result, ?_, yields, top.trans root, ?_⟩
      · rw [List.cons_append, replay, attach_of_some found expands]
        exact continues
      · refine more.trans ((nodes.append_right _).trans ?_)
        rw [List.append_assoc, Rule.innerNodes, Rule.innerNodes, Rule.innerNodes,
          ← List.filter_append, List.filterMap_cons, found]
        exact .refl _

/-- Either all reductions rewrite the string, or one of them is the first that cannot. -/
theorem replays_or_breaksOff (rules : List Rule) (before : List Symbol)
    (reductions : List Reduction) : (∃ after, Replays rules before reductions after) ∨
      ∃ error, BreaksOff rules before reductions error := by
  induction reductions generalizing before with
  | nil => exact .inl ⟨before, .done before⟩
  | cons reduction rest ih =>
      cases found : rules[reduction.rule]? with
      | none => exact .inr ⟨_, [], reduction, rest, before, rfl, .done before, .unknownRule found⟩
      | some rule =>
          by_cases occurs : rule.lhs ∈ before
          · obtain ⟨middle, rewrites⟩ := Rule.RewritesLast.exists_of_mem occurs
            rcases ih middle with
              ⟨after, later⟩ | ⟨error, earlier, other, later, string, rfl, replays, breaks⟩
            · exact .inl ⟨after, .step found rewrites later⟩
            · exact .inr ⟨error, reduction :: earlier, other, later, string, rfl,
                .step found rewrites replays, breaks⟩
          · exact .inr ⟨_, [], reduction, rest, before, rfl, .done before, .unattached found occurs⟩

theorem BreaksOff.replay_eq (breaksOff : BreaksOff rules tree.leaves reductions error) :
    replay rules (some tree) reductions = .error error := by
  obtain ⟨earlier, reduction, later, string, rfl, replays, breaks⟩ := breaksOff
  obtain ⟨result, continues, leaves, _⟩ := replays.exists_tree (reduction :: later)
  rw [continues, replay, Breaks.attach_eq (leaves ▸ breaks)]

theorem replay_some_eq_error_iff : replay rules (some tree) reductions = .error error ↔
    BreaksOff rules tree.leaves reductions error := by
  constructor
  · intro fails
    rcases replays_or_breaksOff rules tree.leaves reductions with ⟨after, replays⟩ |
      ⟨other, breaksOff⟩
    · obtain ⟨result, succeeds, _⟩ := replays.exists_tree []
      rw [List.append_nil, fails, replay] at succeeds
      cases succeeds
    · rw [breaksOff.replay_eq, Except.error.injEq] at fails
      exact fails ▸ breaksOff
  · exact BreaksOff.replay_eq

/-- The first reduction makes the root, unless its rule is unknown. -/
theorem replay_none_eq_error_iff (filled : reductions ≠ []) :
    replay rules none reductions = .error error ↔
      BreaksOff rules (firstString rules reductions) reductions error := by
  obtain ⟨first, rest, rfl⟩ := List.exists_cons_of_ne_nil filled
  cases found : rules[first.rule]? with
  | some rule =>
      have start : firstString rules (first :: rest) = (leaf rule.lhs).leaves := by
        simp [firstString, found, leaves_leaf]
      rw [replay_none_eq rules found, start, replay_some_eq_error_iff]
  | none =>
      simp only [replay, attach, found, Except.error.injEq]
      constructor
      · rintro rfl
        exact ⟨[], first, rest, _, rfl, .done _, .unknownRule found⟩
      · rintro ⟨earlier, reduction, later, string, split, replays, breaks⟩
        cases replays with
        | done _ =>
            obtain ⟨rfl, rfl⟩ := List.cons.inj split
            cases breaks with
            | unknownRule _ => rfl
            | unattached known _ => simp [found] at known
        | step known _ _ =>
            obtain ⟨rfl, _⟩ := List.cons.inj split
            simp [found] at known

/-- A replay that does not break off gives the tree over the string that is left. -/
theorem exists_tree_of_replay (filled : reductions ≠ [])
    (succeeds : ∀ error, replay rules none reductions ≠ .error error) :
    ∃ tree : Tree, replay rules none reductions = .ok (some tree) ∧
      Replays rules (firstString rules reductions) reductions tree.leaves ∧
      firstString rules reductions = [tree.symbol] ∧
      tree.postorder.Perm
        (Rule.innerNodes (reductions.filterMap fun reduction => rules[reduction.rule]?)) := by
  obtain ⟨first, rest, rfl⟩ := List.exists_cons_of_ne_nil filled
  cases found : rules[first.rule]? with
  | none =>
      have fails : replay rules none (first :: rest) =
          .error (.unknownRule first.step first.rule) := by simp [replay, attach, found]
      exact absurd fails (succeeds _)
  | some rule =>
      have start : firstString rules (first :: rest) = [rule.lhs] := by simp [firstString, found]
      rcases replays_or_breaksOff rules (firstString rules (first :: rest)) (first :: rest) with
        ⟨after, replays⟩ | ⟨error, breaksOff⟩
      · have replays' := replays
        rw [start, ← leaves_leaf] at replays'
        obtain ⟨tree, ends, rfl, root, nodes⟩ := replays'.exists_tree []
        rw [List.append_nil, ← replay_none_eq rules found, replay] at ends
        rw [postorder_leaf, List.nil_append] at nodes
        exact ⟨tree, ends, replays, by rw [start, root]; rfl, nodes⟩
      · exact absurd ((replay_none_eq_error_iff filled).2 breaksOff) (succeeds error)

variable {trace : Trace}

theorem ofTrace_of_replay_error (accepted : trace.isAccepted = true)
    (fails : replay rules none trace.reductions.reverse = .error error) :
    ofTrace trace rules = .error error := by
  rw [ofTrace, if_pos accepted, fails]

theorem ofTrace_of_replay_some (accepted : trace.isAccepted = true)
    (succeeds : replay rules none trace.reductions.reverse = .ok (some tree)) :
    ofTrace trace rules = .ok tree := by
  rw [ofTrace, if_pos accepted, succeeds]

end Replay

end Tree

namespace CompiledGrammar

variable {compiled : CompiledGrammar} {sentence : String}

/-- The last move but one of an accepted run reduces to the declared start symbol. -/
theorem reductions_ne_nil (accepted : (compiled.run sentence).state = .accepted) :
    (compiled.run sentence).reductions ≠ [] := by
  obtain ⟨tree, rebuilt⟩ := exists_tree_run_iff.2 accepted
  intro none
  rw [CompiledGrammar.tree, Tree.ofTrace, none] at rebuilt
  split at rebuilt <;> cases rebuilt

/--
A replay of an accepted run against any rules takes the reductions from the last one back and
rewrites a string that starts as the left-hand side of the first rule. Each reduction replaces the
rightmost occurrence of its left-hand side, and an empty right-hand side leaves the string as it is.
The first reduction whose rule is unknown or whose left-hand side does not occur decides the error.
Otherwise there is a tree over the last string. Its root is the first string, and its inner nodes
are instances of the rules with a right-hand side, one for each reduction by such a rule.
-/
theorem replay_rewrites_last (accepted : (compiled.run sentence).state = .accepted)
    (rules : List Rule) :
    let trace := compiled.run sentence
    let reductions := trace.reductions.reverse
    let start := Tree.firstString rules reductions
    (∀ error, Tree.ofTrace trace rules = .error error ↔
      ∃ earlier reduction later string, reductions = earlier ++ reduction :: later ∧
        Tree.Replays rules start earlier string ∧
        Tree.Breaks rules string reduction error) ∧
    ((∃ error, Tree.ofTrace trace rules = .error error) ∨
      ∃ tree : Tree, Tree.ofTrace trace rules = .ok tree ∧
        Tree.Replays rules start reductions tree.leaves ∧ start = [tree.symbol] ∧
        tree.postorder.Perm
          (Rule.innerNodes (reductions.filterMap fun reduction => rules[reduction.rule]?))) := by
  intro trace reductions start
  have filled : reductions ≠ [] := by simpa [reductions, trace] using reductions_ne_nil accepted
  have ended : trace.isAccepted = true := beq_iff_eq.2 accepted
  by_cases fails : ∃ error, Tree.replay rules none reductions = .error error
  · obtain ⟨error, fails⟩ := fails
    have outcome := Tree.ofTrace_of_replay_error ended fails
    refine ⟨fun other => ?_, .inl ⟨error, outcome⟩⟩
    have breaksOff : _ ↔ Tree.BreaksOff rules start reductions other :=
      Tree.replay_none_eq_error_iff filled
    rw [fails, Except.error.injEq] at breaksOff
    rw [outcome, Except.error.injEq]
    exact breaksOff
  · obtain ⟨tree, succeeds, built⟩ := Tree.exists_tree_of_replay filled (not_exists.1 fails)
    have outcome := Tree.ofTrace_of_replay_some ended succeeds
    refine ⟨fun other => ?_, .inr ⟨tree, outcome, built⟩⟩
    have breaksOff : _ ↔ Tree.BreaksOff rules start reductions other :=
      Tree.replay_none_eq_error_iff filled
    rw [succeeds] at breaksOff
    rw [outcome]
    constructor
    · intro failed
      cases failed
    · intro broken
      cases breaksOff.2 broken

/-- One replay against other rules goes through an empty one, and another one finds no rule 2. -/
theorem replay_rewrites_last_pairs :
    ∃ compiled, ofText "S ( S S )\nS x" = .ok compiled ∧
      (compiled.run "( x x )").state = .accepted ∧
      (∃ tree : Tree, tree.leaves = [7, 7] ∧
        Tree.Replays [⟨0, [1]⟩, ⟨7, [7, 7]⟩, ⟨7, []⟩] [7]
          (compiled.run "( x x )").reductions.reverse tree.leaves ∧
        tree.postorder.Perm [⟨7, [7, 7]⟩]) ∧
      ∃ earlier reduction later string,
        (compiled.run "( x x )").reductions.reverse = earlier ++ reduction :: later ∧
        Tree.Replays [⟨0, [1]⟩, ⟨7, [7, 7]⟩] [7] earlier string ∧
        Tree.Breaks [⟨0, [1]⟩, ⟨7, [7, 7]⟩] string reduction (.unknownRule 4 2) := by
  obtain ⟨compiled, compiles, evaluated⟩ := exists_of_ofText "S ( S S )\nS x"
    (fun compiled => let trace := compiled.run "( x x )"
      decide (trace.state = .accepted ∧
        trace.reductions.reverse = [⟨6, 1⟩, ⟨4, 2⟩, ⟨2, 2⟩] ∧
        Tree.ofTrace trace [⟨0, [1]⟩, ⟨7, [7, 7]⟩, ⟨7, []⟩] = .ok (.node 7 [.leaf 7, .leaf 7]) ∧
        Tree.ofTrace trace [⟨0, [1]⟩, ⟨7, [7, 7]⟩] = .error (.unknownRule 4 2)))
    (by decide +kernel)
  obtain ⟨accepted, reductions, through, broken⟩ := of_decide_eq_true evaluated
  refine ⟨compiled, compiles, accepted, ⟨.node 7 [.leaf 7, .leaf 7], by decide, ?_⟩, ?_⟩
  · rcases (replay_rewrites_last accepted [⟨0, [1]⟩, ⟨7, [7, 7]⟩, ⟨7, []⟩]).2 with
      ⟨error, fails⟩ | ⟨tree, rebuilt, replays, _, nodes⟩
    · rw [through] at fails
      cases fails
    · rw [through, Except.ok.injEq] at rebuilt
      subst rebuilt
      rw [reductions] at replays nodes ⊢
      exact ⟨replays, nodes⟩
  · have breaksOff := ((replay_rewrites_last accepted [⟨0, [1]⟩, ⟨7, [7, 7]⟩]).1 _).1 broken
    rw [reductions] at breaksOff ⊢
    exact breaksOff

end CompiledGrammar

end ShiftReduce
