/-!
Slots: named values in a fixed order. A name is read and overwritten at its first slot, so an
overwritten slot keeps its position; `assign?` refuses a name without a slot, `put` gives it a new
last one.
-/

namespace ProductionSystem

/-- Named values in order. -/
abbrev Slots (α : Type) := List (String × α)

namespace Slots

variable {α : Type}

/-- The value in the first slot of the name. -/
def get? (name : String) : Slots α → Option α
  | [] => none
  | (key, a) :: rest => if name = key then some a else get? name rest

def has (name : String) (slots : Slots α) : Bool := (get? name slots).isSome

def names (slots : Slots α) : List String := slots.map (·.1)

/-- Overwrites the first slot of a name, if it has one. -/
def assign? (name : String) (a : α) : Slots α → Option (Slots α)
  | [] => none
  | (key, b) :: rest =>
    if name = key then some ((key, a) :: rest) else (assign? name a rest).map ((key, b) :: ·)

/-- Overwrites the first slot of a name, or adds a last slot for it. -/
def put (name : String) (a : α) (slots : Slots α) : Slots α :=
  (assign? name a slots).getD (slots ++ [(name, a)])

theorem isSome_assign? (name : String) (a : α) (slots : Slots α) :
    (assign? name a slots).isSome = has name slots := by
  induction slots with
  | nil => rfl
  | cons first rest ih =>
    by_cases h : name = first.1
    · simp [assign?, has, get?, h]
    · simpa [assign?, has, get?, h] using ih

/-- Overwriting keeps the names and their order. -/
theorem names_of_assign? {name : String} {a : α} {slots written : Slots α}
    (h : assign? name a slots = some written) : names written = names slots := by
  induction slots generalizing written with
  | nil => simp [assign?] at h
  | cons first rest ih =>
    obtain ⟨key, b⟩ := first
    simp only [assign?] at h
    split at h
    · obtain rfl := Option.some.inj h
      rfl
    · obtain ⟨tail, htail, rfl⟩ := Option.map_eq_some_iff.1 h
      simpa [names] using ih htail

end Slots

end ProductionSystem
