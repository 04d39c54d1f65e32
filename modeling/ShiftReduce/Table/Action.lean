/-
This file defines the actions of a parse table and how the actions of one cell are combined.
-/

namespace ShiftReduce

/-- A conflict lists the actions that compete for one cell. -/
inductive Action
  | shift (state : Nat)
  | reduce (rule : Nat)
  | accept
  | conflict (actions : List Action)

namespace Action

mutual

def decideEq : (first second : Action) → Decidable (first = second)
  | .shift state, .shift other => decidable_of_iff (state = other) (by simp)
  | .reduce rule, .reduce other => decidable_of_iff (rule = other) (by simp)
  | .accept, .accept => isTrue rfl
  | .conflict actions, .conflict others =>
      match decideEqList actions others with
      | isTrue same => isTrue (congrArg conflict same)
      | isFalse different => isFalse fun same => different (conflict.inj same)
  | .shift _, .reduce _ | .shift _, .accept | .shift _, .conflict _
  | .reduce _, .shift _ | .reduce _, .accept | .reduce _, .conflict _
  | .accept, .shift _ | .accept, .reduce _ | .accept, .conflict _
  | .conflict _, .shift _ | .conflict _, .reduce _ | .conflict _, .accept => isFalse nofun

def decideEqList : (first second : List Action) → Decidable (first = second)
  | [], [] => isTrue rfl
  | action :: actions, other :: others =>
      match decideEq action other, decideEqList actions others with
      | isTrue same, isTrue rest => isTrue (by rw [same, rest])
      | isFalse different, _ => isFalse fun same => different (List.cons.inj same).1
      | _, isFalse different => isFalse fun same => different (List.cons.inj same).2
  | [], _ :: _ | _ :: _, [] => isFalse nofun

end

instance : DecidableEq Action := decideEq

def isConflict : Action → Bool
  | .conflict _ => true
  | _ => false

/-- A conflict is the same as no action, not even as itself. -/
def sameAs : Action → Action → Bool
  | .shift state, .shift other => state == other
  | .reduce rule, .reduce other => rule == other
  | .accept, .accept => true
  | _, _ => false

/-- A new action joins a cell unless the cell already has it, and two different actions conflict. -/
def merge : Option Action → Action → Action
  | none, added => added
  | some (.conflict actions), added =>
      if actions.any (·.sameAs added) then .conflict actions else .conflict (actions ++ [added])
  | some present, added => if present.sameAs added then present else .conflict [present, added]

theorem isConflict_merge {present : Action} (conflict : present.isConflict = true)
    (added : Action) : (merge (some present) added).isConflict = true := by
  cases present with
  | conflict actions =>
      rw [merge]
      split <;> rfl
  | shift _ | reduce _ | accept => exact absurd conflict (by simp [isConflict])

/-- The actions that come to one cell are merged in their order. -/
def mergeAll (cell : Option Action) (actions : List Action) : Option Action :=
  actions.foldl (fun cell added => some (merge cell added)) cell

mutual

def text : Action → String
  | .shift state => "s" ++ toString state
  | .reduce rule => "r" ++ toString rule
  | .accept => "A"
  | .conflict actions => ", ".intercalate (texts actions)

def texts : List Action → List String
  | [] => []
  | action :: actions => text action :: texts actions

end

theorem texts_eq_map (actions : List Action) : texts actions = actions.map text := by
  induction actions with
  | nil => rfl
  | cons action rest inductionHypothesis => rw [texts, inductionHypothesis, List.map_cons]

end Action

end ShiftReduce
