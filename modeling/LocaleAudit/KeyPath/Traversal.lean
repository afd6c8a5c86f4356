import LocaleAudit.KeyPath

namespace LocaleAudit

/-!
# Leaves one by one

A traversal gives the leaves of a tree on demand. It holds the objects it is in, the innermost
first, each with its path and the fields it has not come to yet.
-/

namespace KeyPath

structure Traversal where
  opened : List (String × Json.Fields)
  deriving Repr

namespace Traversal

def start (tree : Tree) : Traversal :=
  ⟨[("", tree)]⟩

/-- One step goes into an object, past a leaf, which is given, or out of an object that is done.
There is none when all objects are done. -/
def step : Traversal → Option (Option (String × Json.Value) × Traversal)
  | ⟨[]⟩ => none
  | ⟨(_, []) :: outer⟩ => some (none, ⟨outer⟩)
  | ⟨(parent, (key, .object child) :: rest) :: outer⟩ =>
    some (none, ⟨(join parent key, child) :: (parent, rest) :: outer⟩)
  | ⟨(parent, (key, v) :: rest) :: outer⟩ =>
    some (some (join parent key, v), ⟨(parent, rest) :: outer⟩)

/-- What a step can be. -/
inductive Steps : Traversal → Option (String × Json.Value) → Traversal → Prop where
  | out (parent : String) (outer : List (String × Json.Fields)) :
      Steps ⟨(parent, []) :: outer⟩ none ⟨outer⟩
  | into (parent key : String) (child rest : Json.Fields) (outer : List (String × Json.Fields)) :
      Steps ⟨(parent, (key, .object child) :: rest) :: outer⟩ none
        ⟨(join parent key, child) :: (parent, rest) :: outer⟩
  | past (parent key : String) {v : Json.Value} (rest : Json.Fields)
      (outer : List (String × Json.Fields)) (hleaf : v.isObject = false) :
      Steps ⟨(parent, (key, v) :: rest) :: outer⟩ (some (join parent key, v))
        ⟨(parent, rest) :: outer⟩

theorem steps_of_step {t rest : Traversal} {given : Option (String × Json.Value)}
    (h : t.step = some (given, rest)) : Steps t given rest := by
  unfold step at h
  split at h
  · cases h
  · cases h
    exact .out _ _
  · cases h
    exact .into _ _ _ _ _
  · rename_i v _ _ hobject
    cases h
    refine .past _ _ _ _ ?_
    rw [Bool.eq_false_iff]
    intro hv
    cases v with
    | object child => exact hobject child rfl
    | _ => cases hv

/-! ## How many steps are left -/

mutual

/-- Past a leaf it is one step; to an object belong the step into it and the step out of it. -/
def stepsAt : Json.Value → Nat
  | .object fields => stepsBelow fields + 2
  | .null => 1
  | .bool _ => 1
  | .number _ => 1
  | .string _ => 1
  | .array _ => 1
termination_by structural v => v

def stepsBelow : List (String × Json.Value) → Nat
  | [] => 0
  | (_, v) :: rest => stepsAt v + stepsBelow rest
termination_by structural fields => fields

end

def stepsWithin : List (String × Json.Fields) → Nat
  | [] => 0
  | (_, fields) :: outer => stepsBelow fields + 1 + stepsWithin outer

def stepsLeft (t : Traversal) : Nat :=
  stepsWithin t.opened

theorem stepsLeft_of_step {t rest : Traversal} {given : Option (String × Json.Value)}
    (h : t.step = some (given, rest)) : rest.stepsLeft + 1 = t.stepsLeft := by
  cases steps_of_step h with
  | out parent outer =>
    simp only [stepsLeft, stepsWithin, stepsBelow]
    omega
  | into parent key child fields outer =>
    simp only [stepsLeft, stepsWithin, stepsBelow, stepsAt]
    omega
  | @past parent key v fields outer hleaf =>
    have hone : stepsAt v = 1 := by
      cases v with
      | object child => cases hleaf
      | _ => rfl
    simp only [stepsLeft, stepsWithin, stepsBelow, hone]
    omega

/-! ## The leaves that are left -/

/-- The next leaf, and the traversal behind it. -/
def next? (t : Traversal) : Option ((String × Json.Value) × Traversal) :=
  match _hstep : t.step with
  | none => none
  | some (none, rest) => next? rest
  | some (some leaf, rest) => some (leaf, rest)
termination_by t.stepsLeft
decreasing_by
  have := stepsLeft_of_step _hstep
  omega

theorem stepsLeft_of_next? {t rest : Traversal} {leaf : String × Json.Value}
    (h : t.next? = some (leaf, rest)) : rest.stepsLeft < t.stepsLeft := by
  fun_induction next? t with
  | case1 t hstep => cases h
  | case2 t within hstep ih =>
    have hsteps := stepsLeft_of_step hstep
    have hrest := ih h
    omega
  | case3 t leaf within hstep =>
    cases h
    have hsteps := stepsLeft_of_step hstep
    omega

/-- All leaves that are left, taken one after the other. -/
def toList (t : Traversal) : List (String × Json.Value) :=
  match _hnext : t.next? with
  | none => []
  | some (leaf, rest) => leaf :: toList rest
termination_by t.stepsLeft
decreasing_by exact stepsLeft_of_next? _hnext

end Traversal

end KeyPath

end LocaleAudit
