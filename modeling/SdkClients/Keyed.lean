set_option autoImplicit false

/-!
Values under distinct keys, in the order in which the keys first came.

`put` gives a key a new value: a key that is already there keeps its place, and a new
key goes to the end. `ofList` puts a list of pairs one after the other.
-/

namespace SdkClients.Keyed

variable {κ α : Type} [DecidableEq κ]

/-- The value of a key. -/
def get? (entries : List (κ × α)) (name : κ) : Option α :=
  (entries.find? (fun entry => entry.1 == name)).map (·.2)

/-- Sets the value of a key. -/
def put (name : κ) (value : α) : List (κ × α) → List (κ × α)
  | [] => [(name, value)]
  | (known, old) :: others =>
      if known = name then (known, value) :: others else (known, old) :: put name value others

/-- The pairs put in order: the first place and the last value of every key. -/
def ofList (pairs : List (κ × α)) : List (κ × α) :=
  pairs.foldl (fun entries pair => put pair.1 pair.2 entries) []

/-- No key occurs twice. -/
def Distinct (entries : List (κ × α)) : Prop := (entries.map (·.1)).Nodup

theorem get?_cons (entry : κ × α) (entries : List (κ × α)) (name : κ) :
    get? (entry :: entries) name = if entry.1 = name then some entry.2 else get? entries name := by
  unfold get?
  rw [List.find?_cons]
  by_cases same : entry.1 = name
  · simp only [same, beq_self_eq_true, if_true, Option.map_some]
  · simp only [beq_false_of_ne same, same, if_false]

theorem get?_put (entries : List (κ × α)) (name other : κ) (value : α) :
    get? (put name value entries) other =
      if name = other then some value else get? entries other := by
  induction entries with
  | nil => rw [put, get?_cons]
  | cons entry entries ih =>
      rw [put]
      by_cases here : entry.1 = name
      · rw [if_pos here, get?_cons, get?_cons, here]
        by_cases same : name = other
        · rw [if_pos same, if_pos same]
        · rw [if_neg same, if_neg same, if_neg same]
      · rw [if_neg here, get?_cons, get?_cons, ih]
        by_cases same : entry.1 = other
        · have different : name ≠ other := fun equal => here (same.trans equal.symm)
          rw [if_pos same, if_neg different, if_pos same]
        · rw [if_neg same, if_neg same]

end SdkClients.Keyed
