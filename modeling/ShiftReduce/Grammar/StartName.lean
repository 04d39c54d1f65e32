/-
This file chooses a name for the added start symbol that no production uses.
-/

import ShiftReduce.Grammar.Production

namespace ShiftReduce.Grammar

/-- The added start symbol is spelled with as many primes as make it new. -/
def startName (extraPrimes : Nat) : String :=
  "S'" ++ String.ofList (List.replicate extraPrimes '\'')

/-- One more candidate than there are taken names always leaves a free one. -/
def freshStartName (taken : List String) : String :=
  (((List.range (taken.length + 1)).map startName).find? fun name => !taken.contains name).getD
    (startName 0)

theorem toList_startName (extraPrimes : Nat) :
    (startName extraPrimes).toList = 'S' :: '\'' :: List.replicate extraPrimes '\'' := by
  simp [startName]

theorem startName_injective {first second : Nat} (same : startName first = startName second) :
    first = second := by
  have same := congrArg (fun name => name.toList.length) same
  simpa [toList_startName] using same

theorem startName_allowed (extraPrimes : Nat) :
    Text.IsWord (startName extraPrimes) ∧ startName extraPrimes ≠ endMarkerName := by
  refine ⟨⟨fun hidden => ?_, fun character inside => ?_⟩, fun same => ?_⟩
  · simpa [toList_startName] using congrArg String.toList hidden
  · rw [toList_startName] at inside
    simp only [List.mem_cons, List.mem_replicate] at inside
    rcases inside with rfl | rfl | ⟨_, rfl⟩ <;> decide
  · simpa [toList_startName, endMarkerName] using congrArg String.toList same

theorem exists_freshStartName (taken : List String) :
    ∃ extraPrimes, freshStartName taken = startName extraPrimes ∧
      startName extraPrimes ∉ taken := by
  unfold freshStartName
  cases found : ((List.range (taken.length + 1)).map startName).find? fun name =>
      !taken.contains name with
  | none =>
      have all : (List.range (taken.length + 1)).map startName ⊆ taken := fun name listed => by
        simpa using List.find?_eq_none.1 found name listed
      have distinct : ((List.range (taken.length + 1)).map startName).Nodup :=
        List.Pairwise.map startName
          (fun _ _ different same => different (startName_injective same)) List.nodup_range
      have fits := distinct.length_le_of_subset all
      rw [List.length_map, List.length_range] at fits
      exact absurd fits (Nat.not_succ_le_self _)
  | some name =>
      obtain ⟨extraPrimes, _, rfl⟩ := List.mem_map.1 (List.mem_of_find?_eq_some found)
      exact ⟨extraPrimes, rfl, by simpa using List.find?_some found⟩

theorem freshStartName_allowed (taken : List String) :
    Text.IsWord (freshStartName taken) ∧ freshStartName taken ≠ endMarkerName := by
  obtain ⟨extraPrimes, same, _⟩ := exists_freshStartName taken
  exact same ▸ startName_allowed extraPrimes

theorem freshStartName_not_mem (taken : List String) : freshStartName taken ∉ taken := by
  obtain ⟨extraPrimes, same, free⟩ := exists_freshStartName taken
  exact same ▸ free

end ShiftReduce.Grammar
