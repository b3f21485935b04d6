import ProductionSystem.Slots

/-!
Dictionaries: finite maps from names, kept in increasing order of the names. The order is part of
the type, so two dictionaries with the same entries are equal, and `get?_insert` says all that an
insertion changes.
-/

namespace ProductionSystem

/-- A finite map from names. -/
structure Dictionary (α : Type) where
  entries : Slots α
  ordered : entries.Pairwise fun a b => a.1 < b.1
  deriving DecidableEq

namespace Dictionary

variable {α : Type}

def empty : Dictionary α := ⟨[], .nil⟩

instance : EmptyCollection (Dictionary α) := ⟨empty⟩

instance : Inhabited (Dictionary α) := ⟨empty⟩

/-- What a name stands for, if anything. -/
def get? (d : Dictionary α) (name : String) : Option α := Slots.get? name d.entries

def contains (d : Dictionary α) (name : String) : Bool := (d.get? name).isSome

/-- The defined names, in increasing order. -/
def names (d : Dictionary α) : List String := Slots.names d.entries

def size (d : Dictionary α) : Nat := d.entries.length

def isEmpty (d : Dictionary α) : Bool := d.entries.isEmpty

/-- Puts an entry at its place in an ordered list, over an entry of the same name. -/
def place (name : String) (a : α) : Slots α → Slots α
  | [] => [(name, a)]
  | (key, b) :: rest =>
    if name < key then (name, a) :: (key, b) :: rest
    else if name = key then (name, a) :: rest
    else (key, b) :: place name a rest

theorem mem_place {name : String} {a : α} {slots : Slots α} {e : String × α}
    (h : e ∈ place name a slots) : e = (name, a) ∨ e ∈ slots := by
  induction slots with
  | nil => simpa [place] using h
  | cons first rest ih =>
    simp only [place] at h
    split at h
    · simpa using h
    · split at h
      · exact (List.mem_cons.1 h).imp id (List.mem_cons_of_mem _)
      · rcases List.mem_cons.1 h with h | h
        · exact .inr (h ▸ List.mem_cons_self)
        · exact (ih h).imp id (List.mem_cons_of_mem _)

theorem pairwise_place (name : String) (a : α) {slots : Slots α}
    (h : slots.Pairwise fun a b => a.1 < b.1) :
    (place name a slots).Pairwise fun a b => a.1 < b.1 := by
  induction slots with
  | nil => simp [place]
  | cons first rest ih =>
    obtain ⟨hfirst, hrest⟩ := List.pairwise_cons.1 h
    simp only [place]
    split
    · rename_i hlt
      refine List.pairwise_cons.2 ⟨fun e he => ?_, h⟩
      rcases List.mem_cons.1 he with rfl | he
      · exact hlt
      · exact String.lt_trans hlt (hfirst e he)
    · split
      · rename_i _ heq
        exact List.pairwise_cons.2 ⟨fun e he => heq ▸ hfirst e he, hrest⟩
      · rename_i hlt hne
        refine List.pairwise_cons.2 ⟨fun e he => ?_, ih hrest⟩
        rcases mem_place he with rfl | he
        · exact Decidable.byContradiction fun h =>
            hne (String.le_antisymm (String.not_lt.1 h) (String.not_lt.1 hlt))
        · exact hfirst e he

/-- Defines a name, replacing what it stood for. -/
def insert (d : Dictionary α) (name : String) (a : α) : Dictionary α :=
  ⟨place name a d.entries, pairwise_place name a d.ordered⟩

/-- The dictionary with the given entries; of two for one name the later one counts. -/
def ofList (entries : List (String × α)) : Dictionary α :=
  entries.foldl (fun d e => d.insert e.1 e.2) empty

@[simp] theorem get?_empty (name : String) : (empty : Dictionary α).get? name = none := rfl

theorem get?_place (name : String) (a : α) (slots : Slots α) (other : String) :
    Slots.get? other (place name a slots) = if other = name then some a else Slots.get? other slots := by
  induction slots with
  | nil => rfl
  | cons first rest ih =>
    simp only [place]
    split
    · rfl
    · split
      · rename_i _ heq
        subst heq
        simp only [Slots.get?]
        split <;> rfl
      · rename_i _ hne
        by_cases h : other = first.1
        · simp [Slots.get?, h, Ne.symm hne]
        · simp [Slots.get?, h, ih]

/-- An insertion defines its name and changes nothing else. -/
theorem get?_insert (d : Dictionary α) (name : String) (a : α) (other : String) :
    (d.insert name a).get? other = if other = name then some a else d.get? other :=
  get?_place name a d.entries other

end Dictionary

end ProductionSystem
