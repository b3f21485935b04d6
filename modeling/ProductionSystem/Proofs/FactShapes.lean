import ProductionSystem.Proofs.LiveLists

/-!
What stays of a fact whatever happens to it. Writing to a fact changes values and removing it marks it; its id, its
type and the names of its fields, in their order, are its own from the beginning. Being removed only shortens
the list of a type.
-/

namespace ProductionSystem

namespace Fact

/-- What never changes of a fact. -/
structure Shape where
  id : FactId
  type : String
  names : List String
  deriving DecidableEq

def shape (fact : Fact) : Shape := ⟨fact.id, fact.type, Slots.names fact.fields⟩

theorem names_overwrite (fields : Fields) (values : List (String × Value)) :
    Slots.names (overwrite fields values) = Slots.names fields := by
  refine List.foldlRecOn (motive := fun written => Slots.names written = Slots.names fields) values _ rfl
    fun written h entry _ => ?_
  cases hassign : Slots.assign? entry.1 entry.2 written with
  | none => exact h
  | some next => exact (Slots.names_of_assign? hassign).trans h

variable {fact changed : Fact}

theorem shape_of_set {field : String} {value : Value} (h : fact.set field value = .ok changed) :
    changed.shape = fact.shape := by
  unfold set at h
  split at h
  · rename_i fields hassign
    obtain rfl := Except.ok.inj h
    exact congrArg (Shape.mk fact.id fact.type) (Slots.names_of_assign? hassign)
  · cases h

theorem shape_of_setMany {values : List (String × Value)} (h : fact.setMany values = .ok changed) :
    changed.shape = fact.shape := by
  unfold setMany at h
  split at h
  · cases h
  · obtain rfl := Except.ok.inj h
    exact congrArg (Shape.mk fact.id fact.type) (names_overwrite fact.fields values)

end Fact

namespace Template

theorem names_override {type : String} {fields changed : Fields} {overrides : List (String × Value)}
    (h : override type fields overrides = .ok changed) : Slots.names changed = Slots.names fields := by
  induction overrides generalizing fields with
  | nil =>
      obtain rfl := Except.ok.inj h
      rfl
  | cons field overrides ih =>
      obtain ⟨name, value⟩ := field
      unfold override at h
      split at h
      · rename_i next hassign
        exact (ih h).trans (Slots.names_of_assign? hassign)
      · cases h

/-- An instance has the type of the template and its fields. -/
theorem shape_of_instantiate {template : Template} {id : FactId} {overrides : List (String × Value)} {fact : Fact}
    (h : template.instantiate id overrides = .ok fact) :
    fact.shape = ⟨id, template.type, template.fieldNames⟩ := by
  unfold instantiate at h
  cases hfields : override template.type template.defaults overrides with
  | error cause =>
      rw [hfields] at h
      cases h
  | ok fields =>
      rw [hfields] at h
      obtain rfl := Except.ok.inj h
      exact congrArg (Fact.Shape.mk id template.type) (names_override hfields)

end Template

namespace Store

/-- Does every fact that was there keep its shape? -/
def KeepsShapes (store after : Store) : Prop :=
  ∀ ref fact, store.fact? ref = some fact → (after.fact? ref).map Fact.shape = some fact.shape

namespace KeepsShapes

theorem of_facts {store after : Store} (h : after.facts = store.facts) : store.KeepsShapes after := by
  intro ref fact hfact
  rw [fact?, h, ← fact?, hfact]
  rfl

theorem trans {first second third : Store} (h : first.KeepsShapes second) (h' : second.KeepsShapes third) :
    first.KeepsShapes third := by
  intro ref fact hfact
  obtain ⟨kept, hkept, hshape⟩ := Option.map_eq_some_iff.1 (h ref fact hfact)
  rw [← hshape]
  exact h' ref kept hkept

theorem enter (store : Store) (fact : Fact) : store.KeepsShapes (store.enter fact).2 := by
  intro ref other hother
  rw [fact?_enter_of_some hother fact]
  rfl

theorem update {store : Store} {ref : FactRef} {fact changed : Fact} (hfact : store.fact? ref = some fact)
    (hshape : changed.shape = fact.shape) : store.KeepsShapes (store.update ref changed) := by
  intro other kept hkept
  show (store.facts.setIfInBounds ref.index changed)[other.index]?.map Fact.shape = _
  rw [Array.getElem?_setIfInBounds]
  split
  · rename_i hsame
    obtain ⟨hindex, -⟩ := Array.getElem?_eq_some_iff.1 hfact
    have hboth : fact = kept := Option.some.inj (by rw [← hfact, ← hkept, fact?, fact?, hsame])
    rw [if_pos hindex, Option.map_some, hshape, hboth]
  · rw [← fact?, hkept]
    rfl

theorem remove (store : Store) (ref : FactRef) : store.KeepsShapes (store.remove ref).2 := by
  unfold Store.remove
  split
  · exact .of_facts rfl
  · rename_i fact hfact
    dsimp only
    split
    · let shortened : Store :=
        { store with
          live := store.live.insert fact.type ((store.get fact.type).eraseP (store.hasId fact.id)) }
      have hkept : shortened.KeepsShapes (shortened.update ref { fact with retracted := true }) := update hfact rfl
      exact hkept
    · exact .of_facts rfl

theorem set (store : Store) (ref : FactRef) (field : String) (value : Value) :
    store.KeepsShapes (store.set ref field value).2 := by
  unfold Store.set
  split
  · exact .of_facts rfl
  · rename_i fact hfact
    split
    · rename_i changed hchanged
      exact update hfact (Fact.shape_of_set hchanged)
    · exact .of_facts rfl

theorem setMany (store : Store) (ref : FactRef) (values : List (String × Value)) :
    store.KeepsShapes (store.setMany ref values).2 := by
  unfold Store.setMany
  split
  · exact .of_facts rfl
  · rename_i fact hfact
    split
    · rename_i changed hchanged
      exact update hfact (Fact.shape_of_setMany hchanged)
    · exact .of_facts rfl

variable {store after : Store} {ref : FactRef}

theorem hasType_eq (h : store.KeepsShapes after) (hknown : ref.index < store.facts.size) (type : String) :
    after.hasType type ref = store.hasType type ref := by
  have hfact : store.fact? ref = some store.facts[ref.index] := Array.getElem?_eq_getElem hknown
  obtain ⟨kept, hkept, hshape⟩ := Option.map_eq_some_iff.1 (h ref _ hfact)
  have htype : kept.type = store.facts[ref.index].type := congrArg Fact.Shape.type hshape
  simp only [hasType, hkept, hfact, htype]

theorem size_le (h : store.KeepsShapes after) : store.facts.size ≤ after.facts.size := by
  refine Nat.le_of_not_lt fun hless => ?_
  have hfact : store.fact? ⟨after.facts.size⟩ = some store.facts[after.facts.size] := Array.getElem?_eq_getElem hless
  have hmissing : after.fact? ⟨after.facts.size⟩ = none := Array.getElem?_eq_none (Nat.le_refl _)
  have hkept := h _ _ hfact
  rw [hmissing] at hkept
  cases hkept

end KeepsShapes

theorem template?_remove (store : Store) (ref : FactRef) (type : String) :
    (store.remove ref).2.template? type = store.template? type := by
  unfold remove
  split
  · rfl
  · dsimp only
    split <;> rfl

theorem template?_setMany (store : Store) (ref : FactRef) (values : List (String × Value)) (type : String) :
    (store.setMany ref values).2.template? type = store.template? type := by
  unfold setMany
  split
  · rfl
  · split <;> rfl

theorem template?_set (store : Store) (ref : FactRef) (field : String) (value : Value) (type : String) :
    (store.set ref field value).2.template? type = store.template? type := by
  unfold set
  split
  · rfl
  · split <;> rfl

theorem nextId_remove (store : Store) (ref : FactRef) : (store.remove ref).2.nextId = store.nextId := by
  unfold remove
  split
  · rfl
  · dsimp only
    split <;> rfl

theorem nextId_setMany (store : Store) (ref : FactRef) (values : List (String × Value)) :
    (store.setMany ref values).2.nextId = store.nextId := by
  unfold setMany
  split
  · rfl
  · split <;> rfl

/-- Removing a fact takes at most one out of a list. -/
theorem get_remove_sublist (store : Store) (ref : FactRef) (type : String) :
    ((store.remove ref).2.get type).Sublist (store.get type) := by
  unfold remove
  split
  · exact .refl _
  · rename_i fact hfact
    dsimp only
    split
    · show (LiveIndex.of (store.live.insert fact.type _) type).Sublist _
      rw [LiveIndex.of_insert]
      split
      · rename_i htype
        rw [htype]
        exact List.eraseP_sublist
      · exact .refl _
    · exact .refl _

end Store

end ProductionSystem
