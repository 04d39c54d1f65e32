/-
This file shows that the depth-first search reports exactly what its errands can reach.
-/

import ShiftReduce.Lookahead

namespace ShiftReduce

/-- An errand reaches a symbol by way of symbols that may be entered. -/
inductive Errand.Reaches (errandsOf : Symbol → List Errand) (guard : Guard) (found : Symbol) :
    Errand → Prop
  | report {symbols : List Symbol} (listed : found ∈ symbols) :
      Reaches errandsOf guard found (.report symbols)
  | visit {symbol : Symbol} {errand : Errand} (allowed : guard.allows symbol = true)
      (listed : errand ∈ errandsOf symbol) (next : Reaches errandsOf guard found errand) :
      Reaches errandsOf guard found (.visit symbol)

namespace Errand.Reaches

variable {errandsOf : Symbol → List Errand} {guard : Guard} {found : Symbol}

theorem report_iff {symbols : List Symbol} :
    Reaches errandsOf guard found (.report symbols) ↔ found ∈ symbols := by
  constructor
  · intro reaches
    cases reaches with
    | report listed => exact listed
  · exact report

theorem not_visit_of_refused {symbol : Symbol} (refused : ¬ guard.allows symbol = true) :
    ¬ Reaches errandsOf guard found (.visit symbol) := by
  intro reaches
  cases reaches with
  | visit allowed _ _ => exact refused allowed

theorem of_enter {errand : Errand}
    (reaches : Reaches errandsOf (guard.enter entered) found errand) :
    Reaches errandsOf guard found errand := by
  induction reaches with
  | report listed => exact .report listed
  | visit allowed listed _ ih => exact .visit (Guard.allows_enter.1 allowed).2 listed ih

/-- A path through the entered symbol may as well start behind its last visit there. -/
theorem enter_or {errand : Errand} (reaches : Reaches errandsOf guard found errand)
    (entered : Symbol) :
    Reaches errandsOf (guard.enter entered) found errand ∨
      ∃ other ∈ errandsOf entered, Reaches errandsOf (guard.enter entered) found other := by
  induction reaches with
  | report listed => exact .inl (.report listed)
  | @visit symbol errand allowed listed _ ih =>
      rcases ih with direct | behind
      · by_cases same : symbol = entered
        · exact .inr ⟨errand, same ▸ listed, direct⟩
        · exact .inl (.visit (Guard.allows_enter.2 ⟨same, allowed⟩) listed direct)
      · exact .inr behind

end Errand.Reaches

open Errand in
/-- The guard is shared by all errands, and still no report is lost. -/
theorem mem_explore {errandsOf : Symbol → List Errand} {guard : Guard} {errands : List Errand}
    {found : Symbol} :
    found ∈ (explore errandsOf guard errands).1 ↔
      ∃ errand ∈ errands, Reaches errandsOf guard found errand := by
  fun_induction explore errandsOf guard errands with
  | case1 guard => simp
  | case2 guard symbols waiting rest ih =>
      rw [List.mem_append, ih]
      simp [Reaches.report_iff]
  | case3 guard symbol waiting allowed ih =>
      rw [ih]
      constructor
      · intro given
        obtain ⟨errand, listed, reaches⟩ := given
        rcases List.mem_append.1 listed with inside | later
        · exact ⟨.visit symbol, List.mem_cons_self, .visit allowed inside reaches.of_enter⟩
        · exact ⟨errand, List.mem_cons_of_mem _ later, reaches.of_enter⟩
      · intro given
        obtain ⟨errand, listed, reaches⟩ := given
        rcases reaches.enter_or symbol with direct | ⟨other, inside, behind⟩
        · rcases List.mem_cons.1 listed with rfl | later
          · have left : ¬ (guard.enter symbol).allows symbol = true :=
              fun again => (Guard.allows_enter.1 again).1 rfl
            exact absurd direct (Reaches.not_visit_of_refused left)
          · exact ⟨errand, List.mem_append_right _ later, direct⟩
        · exact ⟨other, List.mem_append_left _ inside, behind⟩
  | case4 guard symbol waiting refused ih =>
      rw [ih]
      simp [Reaches.not_visit_of_refused refused]

end ShiftReduce
