import Mathlib.Logic.Function.Basic
import ProductionSystem.Proofs.FactOrigins
import ProductionSystem.Proofs.FailedLoads

/-!
Writing to named fields. Overriding the defaults of a new fact, overwriting several fields of a fact and overwriting
them one at a time are different loops: the first checks each name when its turn comes, the second checks all
names before it writes, and the third stops in the middle. Each of them writes to a field the last value given for
it and refuses the first name that is no field, so they agree.
-/

namespace ProductionSystem

namespace Slots

variable {α : Type} {slots : Slots α} {value? value?' : String → Option α}

/-- The value in the last slot of a name: what stays of a list of writes. -/
def last? (name : String) (slots : Slots α) : Option α := get? name slots.reverse

/-- Gives new values to some of the names. Like every write it only changes the first slot of a name. -/
def revised (value? : String → Option α) : Slots α → Slots α
  | [] => []
  | (name, a) :: rest => (name, (value? name).getD a) :: revised (Function.update value? name none) rest

/-- A new value for one name. -/
def single (name : String) (a : α) : String → Option α := Function.update (fun _ => none) name (some a)

theorem get?_append (name : String) (slots slots' : Slots α) :
    get? name (slots ++ slots') = (get? name slots).or (get? name slots') := by
  induction slots with
  | nil => rfl
  | cons first rest ih =>
      obtain ⟨key, a⟩ := first
      rw [List.cons_append, get?, get?, ih]
      split <;> rfl

theorem last?_cons (name : String) (first : String × α) (rest : Slots α) :
    last? name (first :: rest) = (last? name rest).or (single first.1 first.2 name) := by
  rw [last?, List.reverse_cons, get?_append, single, Function.update_apply]
  rfl

theorem last?_concat (name : String) (slots : Slots α) (last : String × α) :
    last? name (slots ++ [last]) = if name = last.1 then some last.2 else last? name slots := by
  rw [last?, List.reverse_append, List.reverse_singleton, List.singleton_append, get?]
  rfl

theorem revised_none (slots : Slots α) : revised (fun _ => none) slots = slots := by
  induction slots with
  | nil => rfl
  | cons first rest ih =>
      obtain ⟨key, a⟩ := first
      rw [revised, Function.update_eq_self key fun _ => none, ih]
      rfl

/-- Only the values given for the names of the slots matter. -/
theorem revised_congr (h : ∀ name ∈ names slots, value? name = value?' name) :
    revised value? slots = revised value?' slots := by
  induction slots generalizing value? value?' with
  | nil => rfl
  | cons first rest ih =>
      obtain ⟨key, a⟩ := first
      obtain ⟨hkey, hrest⟩ := List.forall_mem_cons.1 h
      rw [revised, revised, hkey, ih fun name hname => ?_]
      rw [Function.update_apply, Function.update_apply, hrest name hname]

/-- Of two revisions the later one counts. -/
theorem revised_revised (value? value?' : String → Option α) (slots : Slots α) :
    revised value?' (revised value? slots) = revised (fun name => (value?' name).or (value? name)) slots := by
  induction slots generalizing value? value?' with
  | nil => rfl
  | cons first rest ih =>
      obtain ⟨key, a⟩ := first
      -- behind the first slot of a name neither revision has a value left for it
      have hrest : (fun name => (Function.update value?' key none name).or (Function.update value? key none name)) =
          Function.update (fun name => (value?' name).or (value? name)) key none := by
        funext name
        simp only [Function.update_apply]
        split <;> rfl
      rw [revised, revised, revised, ih, hrest]
      cases value?' key <;> rfl

theorem names_revised (value? : String → Option α) (slots : Slots α) : names (revised value? slots) = names slots := by
  induction slots generalizing value? with
  | nil => rfl
  | cons first rest ih => exact congrArg (first.1 :: ·) (ih _)

/-- If no name has two slots, every slot of a name with a new value is overwritten. -/
theorem revised_eq_map (value? : String → Option α) (hnodup : (names slots).Nodup) :
    revised value? slots = slots.map fun entry => (entry.1, (value? entry.1).getD entry.2) := by
  induction slots with
  | nil => rfl
  | cons first rest ih =>
      obtain ⟨key, a⟩ := first
      obtain ⟨hfirst, hrest⟩ := List.nodup_cons.1 hnodup
      have hother : ∀ name ∈ names rest, Function.update value? key none name = value? name := fun name hname =>
        Function.update_of_ne (fun heq : name = key => hfirst (heq ▸ hname)) none value?
      rw [revised, List.map_cons, ← ih hrest, revised_congr hother]

/-- A write is a revision of one name. -/
theorem assign?_eq (name : String) (a : α) (slots : Slots α) :
    assign? name a slots = if name ∈ names slots then some (revised (single name a) slots) else none := by
  induction slots with
  | nil => rfl
  | cons first rest ih =>
      obtain ⟨key, b⟩ := first
      rw [assign?, ih]
      by_cases hkey : name = key
      · subst hkey
        have hnothing : Function.update (single name a) name none = fun _ => none := by
          rw [single, Function.update_idem]
          exact Function.update_eq_self name fun _ => none
        have hmem : name ∈ names ((name, b) :: rest) := List.mem_cons_self
        rw [if_pos rfl, if_pos hmem, revised, hnothing, revised_none, single, Function.update_self]
        rfl
      · have hother : single name a key = none := Function.update_of_ne (Ne.symm hkey) _ _
        have hkept : Function.update (single name a) key none = single name a := by
          rw [← hother]
          exact Function.update_eq_self key _
        have hnames : name ∈ names ((key, b) :: rest) ↔ name ∈ names rest := by
          rw [names, List.map_cons, List.mem_cons, or_iff_right hkey]
          rfl
        rw [if_neg hkey, revised, hkept, hother]
        simp only [hnames]
        split <;> rfl

theorem getD_assign? (name : String) (a : α) (slots : Slots α) :
    (assign? name a slots).getD slots = revised (single name a) slots := by
  rw [assign?_eq]
  split
  · rfl
  · rename_i hname
    have hother : ∀ other ∈ names slots, single name a other = none := fun other hother =>
      Function.update_of_ne (fun heq : other = name => hname (heq ▸ hother)) _ _
    rw [revised_congr hother, revised_none]
    rfl

theorem names_put (name : String) (a : α) (slots : Slots α) :
    names (put name a slots) = if name ∈ names slots then names slots else names slots ++ [name] := by
  rw [put, assign?_eq]
  split
  · exact names_revised _ _
  · rw [Option.getD_none, names, List.map_append]
    rfl

/-- A name that has a slot is left with its new value, if there is one. -/
theorem get?_revised_of_mem {name : String} (h : name ∈ names slots) :
    get? name (revised value? slots) = (value? name).or (get? name slots) := by
  induction slots generalizing value? with
  | nil => cases h
  | cons first rest ih =>
      obtain ⟨key, b⟩ := first
      rw [revised, get?, get?]
      split
      · rename_i hkey
        subst hkey
        cases value? name <;> rfl
      · rename_i hkey
        rw [ih ((List.mem_cons.1 h).resolve_left hkey), Function.update_of_ne hkey]

/-- If no name has two slots, every slot is the first of its name. -/
theorem get?_of_mem (hdistinct : (names slots).Nodup) {entry : String × α}
    (h : entry ∈ slots) : get? entry.1 slots = some entry.2 := by
  induction slots with
  | nil => cases h
  | cons first rest ih =>
      obtain ⟨key, a⟩ := first
      obtain ⟨hfresh, hdistinct⟩ := List.nodup_cons.1 hdistinct
      rw [get?]
      rcases List.mem_cons.1 h with rfl | h
      · rw [if_pos rfl]
      · have hother : entry.1 ≠ key := by
          intro heq
          have hname : entry.1 ∈ names rest := List.mem_map_of_mem h
          rw [heq] at hname
          exact hfresh hname
        rw [if_neg hother, ih hdistinct h]

theorem put_cons (name : String) (a : α) (first : String × α) (rest : Slots α) :
    put name a (first :: rest) = if name = first.1 then (first.1, a) :: rest else first :: put name a rest := by
  obtain ⟨key, b⟩ := first
  rw [put, assign?, put]
  split
  · rfl
  · cases assign? name a rest <;> rfl

theorem get?_put (name : String) (a : α) (slots : Slots α) (other : String) :
    get? other (put name a slots) = if other = name then some a else get? other slots := by
  induction slots with
  | nil => rfl
  | cons first rest ih =>
      rw [put_cons]
      by_cases hfirst : name = first.1
      · rw [if_pos hfirst, get?, get?, hfirst]
        split <;> rfl
      · rw [if_neg hfirst, get?, get?, ih]
        by_cases hother : other = name
        · rw [hother, if_neg hfirst, if_pos rfl, if_neg hfirst, if_pos rfl]
        · simp only [if_neg hother]

end Slots

namespace Fact

variable (fact : Fact)

theorem set_eq (field : String) (value : Value) :
    fact.set field value =
      if field ∈ Slots.names fact.fields then
        .ok { fact with fields := Slots.revised (Slots.single field value) fact.fields }
      else .error (.field fact.type field) := by
  by_cases hfield : field ∈ Slots.names fact.fields
  · simp only [set, Slots.assign?_eq, if_pos hfield]
  · simp only [set, Slots.assign?_eq, if_neg hfield]

theorem overwrite_eq_revised (fields : Fields) (values : List (String × Value)) :
    overwrite fields values = Slots.revised (Slots.last? · values) fields := by
  induction values generalizing fields with
  | nil => exact (Slots.revised_none fields).symm
  | cons first rest ih =>
      have hstep : overwrite fields (first :: rest) =
          overwrite (Slots.revised (Slots.single first.1 first.2) fields) rest := by
        rw [← Slots.getD_assign?]
        rfl
      rw [hstep, ih, Slots.revised_revised]
      simp only [Slots.last?_cons]

/-- All names are looked at before the first value is written; the last value of each name is the one that stays. -/
theorem setMany_eq (values : List (String × Value)) :
    fact.setMany values =
      match values.find? fun entry => entry.1 ∉ Slots.names fact.fields with
      | some entry => .error (.field fact.type entry.1)
      | none => .ok { fact with fields := Slots.revised (Slots.last? · values) fact.fields } := by
  have hunknown : (fun entry : String × Value => !fact.hasField entry.1) =
      fun entry => decide (entry.1 ∉ Slots.names fact.fields) := by
    funext entry
    simp only [hasField, ← Slots.has_eq_true_iff, Bool.not_eq_true, Bool.decide_eq_false]
  rw [setMany, unknownField?, hunknown, overwrite_eq_revised]
  cases values.find? fun entry => decide (entry.1 ∉ Slots.names fact.fields) <;> rfl

/-- Several fields can be overwritten by overwriting the first of them and then the others. -/
theorem setMany_cons (field : String) (value : Value) (rest : List (String × Value)) :
    fact.setMany ((field, value) :: rest) = (fact.set field value).bind fun changed => changed.setMany rest := by
  rw [setMany_eq, set_eq]
  by_cases hfield : field ∈ Slots.names fact.fields
  · rw [if_pos hfield, List.find?_cons_of_neg (by simpa using hfield)]
    dsimp only [Except.bind]
    -- the first write keeps the names, so the others are checked against the same ones
    rw [setMany_eq]
    simp only [Slots.names_revised, Slots.revised_revised, Slots.last?_cons]
  · rw [if_neg hfield, List.find?_cons_of_pos (by simpa using hfield)]
    rfl

/-- Overwrites fields one at a time. -/
def setEach (values : List (String × Value)) : Except ErrorKind Fact :=
  values.foldlM (fun fact entry => fact.set entry.1 entry.2) fact

theorem setEach_eq_setMany (values : List (String × Value)) : fact.setEach values = fact.setMany values := by
  induction values generalizing fact with
  | nil => rfl
  | cons first rest ih =>
      obtain ⟨field, value⟩ := first
      have hrest : (fun changed : Fact => changed.setEach rest) = fun changed => changed.setMany rest := funext ih
      rw [setMany_cons, ← hrest]
      exact List.foldlM_cons

/-- Checking each name when its turn comes refuses the same name as checking all of them first. -/
theorem setMany_eq_override (overrides : List (String × Value)) :
    fact.setMany overrides =
      (Template.override fact.type fact.fields overrides).map fun fields => { fact with fields } := by
  induction overrides generalizing fact with
  | nil => rfl
  | cons first rest ih =>
      obtain ⟨name, value⟩ := first
      rw [setMany_cons, set, Template.override]
      cases Slots.assign? name value fact.fields with
      | none => rfl
      | some fields => exact ih { fact with fields }

end Fact

/-- The fields of a new fact with the given overrides: the last one of a name counts. -/
def Template.fieldsWith (template : Template) (overrides : List (String × Value)) : Fields :=
  Slots.revised (Slots.last? · overrides) template.defaults

/-- If no field is given two values, a new fact has the values that are given. -/
theorem Template.get?_fieldsWith {template : Template} {overrides : List (String × Value)}
    (hdistinct : (overrides.map Prod.fst).Nodup) {field : String × Value} (hfield : field ∈ overrides)
    (hknown : field.1 ∈ template.fieldNames) :
    Slots.get? field.1 (template.fieldsWith overrides) = some field.2 := by
  have hlast : Slots.last? field.1 overrides = some field.2 := by
    refine Slots.get?_of_mem ?_ (List.mem_reverse.2 hfield)
    rw [Slots.names, List.map_reverse]
    exact List.nodup_reverse.2 hdistinct
  rw [fieldsWith, Slots.get?_revised_of_mem hknown, hlast, Option.some_or]

theorem Template.instantiate_eq_setMany (template : Template) (id : FactId) (overrides : List (String × Value)) :
    template.instantiate id overrides =
      ({ id, type := template.type, fields := template.defaults } : Fact).setMany overrides := by
  rw [Fact.setMany_eq_override]
  rfl

theorem Template.instantiate_eq (template : Template) (id : FactId) (overrides : List (String × Value)) :
    template.instantiate id overrides =
      match overrides.find? fun entry => entry.1 ∉ template.fieldNames with
      | some entry => .error (.field template.type entry.1)
      | none => .ok { id, type := template.type, fields := template.fieldsWith overrides } :=
  (template.instantiate_eq_setMany id overrides).trans (Fact.setMany_eq _ overrides)

namespace Store

variable {store : Store} {ref : FactRef} {fact : Fact}

/-- Overwrites fields of a fact one at a time, up to the first name that is no field of it. -/
def setEach (store : Store) (ref : FactRef) : List (String × Value) → Except ErrorKind Unit × Store
  | [] => (.ok (), store)
  | (field, value) :: rest =>
    match store.set ref field value with
    | (.ok (), after) => after.setEach ref rest
    | (.error kind, after) => (.error kind, after)

theorem update_self (h : store.fact? ref = some fact) : store.update ref fact = store := by
  obtain ⟨hindex, hfact⟩ := Array.getElem?_eq_some_iff.1 h
  rw [update, ← hfact, Array.setIfInBounds_def, dif_pos hindex, Array.set_getElem_self]

theorem fact?_update_self (h : store.fact? ref = some fact) (changed : Fact) :
    (store.update ref changed).fact? ref = some changed := by
  obtain ⟨hindex, -⟩ := Array.getElem?_eq_some_iff.1 h
  exact Array.getElem?_setIfInBounds_self_of_lt hindex

theorem update_update (store : Store) (ref : FactRef) (fact changed : Fact) :
    (store.update ref fact).update ref changed = store.update ref changed := by
  simp only [update, Array.setIfInBounds_setIfInBounds]

variable {values : List (String × Value)}

theorem setMany_of_ok {changed : Fact} (hfact : store.fact? ref = some fact) (h : fact.setMany values = .ok changed) :
    store.setMany ref values = (.ok (), store.update ref changed) := by
  simp only [setMany, hfact, h]

theorem setEach_of_ok {changed : Fact} (hfact : store.fact? ref = some fact) (h : fact.setMany values = .ok changed) :
    store.setEach ref values = (.ok (), store.update ref changed) := by
  induction values generalizing store fact with
  | nil =>
      obtain rfl := Except.ok.inj h
      exact congrArg (Prod.mk _) (update_self hfact).symm
  | cons first rest ih =>
      obtain ⟨field, value⟩ := first
      rw [Fact.setMany_cons] at h
      cases hnext : fact.set field value with
      | error kind =>
          rw [hnext] at h
          cases h
      | ok next =>
          rw [hnext] at h
          have hset : store.set ref field value = (.ok (), store.update ref next) := by
            simp only [set, hfact, hnext]
          rw [setEach, hset, ← update_update store ref next changed]
          exact ih (fact?_update_self hfact next) h

theorem setEach_of_unknown (hfact : store.fact? ref = none) : store.setEach ref values = (.ok (), store) := by
  induction values with
  | nil => rfl
  | cons first rest ih =>
      have hset : store.set ref first.1 first.2 = (.ok (), store) := by simp only [set, hfact]
      rw [setEach, hset]
      exact ih

/-- If all names are fields, it makes no difference whether they are written at once or one at a time. -/
theorem setEach_eq_setMany (h : (store.setMany ref values).1 = .ok ()) :
    store.setEach ref values = store.setMany ref values := by
  cases hfact : store.fact? ref with
  | none =>
      rw [setEach_of_unknown hfact]
      simp only [setMany, hfact]
  | some fact =>
      cases hmany : fact.setMany values with
      | ok changed => rw [setEach_of_ok hfact hmany, setMany_of_ok hfact hmany]
      | error kind =>
          simp only [setMany, hfact, hmany] at h
          cases h

end Store

/-- How a field is declared. -/
inductive FieldDeclaration where
  | withDefault (name : String) (default : Value)
  | absent (name : String)

/-- The name of the field, and the default that it gets. -/
def FieldDeclaration.entry : FieldDeclaration → String × Value
  | withDefault name default => (name, default)
  | absent name => (name, .nil)

namespace Template

def declare (template : Template) : FieldDeclaration → Template
  | .withDefault name default => template.withField name default
  | .absent name => template.withAbsent name

/-- The template of a type, built up by declaring its fields. -/
def declared (type : String) (declarations : List FieldDeclaration) : Template :=
  declarations.foldl declare { type }

/-- Has a template the fields that were written down, in the order in which each came first and with the default that
came last? -/
structure Collects (template : Template) (written : Fields) : Prop where
  fieldNames : template.fieldNames = (Slots.names written).eraseDups
  nodup : template.fieldNames.Nodup
  default (name : String) : Slots.get? name template.defaults = Slots.last? name written

theorem declare_eq (template : Template) (declaration : FieldDeclaration) :
    template.declare declaration = template.withField declaration.entry.1 declaration.entry.2 := by
  cases declaration <;> rfl

theorem Collects.withField {template : Template} {written : Fields} (h : template.Collects written) (name : String)
    (default : Value) : (template.withField name default).Collects (written ++ [(name, default)]) where
  fieldNames := by
    have hnames : Slots.names (written ++ [(name, default)]) = Slots.names written ++ [name] := List.map_append
    have hknown : name ∈ template.fieldNames ↔ name ∈ Slots.names written := by
      rw [h.fieldNames, List.mem_eraseDups]
    rw [hnames, List.eraseDups_append, ← h.fieldNames]
    refine (Slots.names_put name default template.defaults).trans ?_
    by_cases hname : name ∈ template.fieldNames
    · have hnothing : [name].removeAll (Slots.names written) = [] := by
        simp [List.cons_removeAll, hknown.1 hname]
      rw [hnothing]
      exact (if_pos hname).trans (List.append_nil _).symm
    · have hnew : [name].removeAll (Slots.names written) = [name] := by
        simp [List.cons_removeAll, hknown.not.1 hname]
      rw [hnew]
      exact if_neg hname
  nodup := Slots.nodup_names_put name default h.nodup
  default other := by
    rw [Slots.last?_concat, ← h.default other]
    exact Slots.get?_put name default template.defaults other

theorem collects_declared (type : String) (declarations : List FieldDeclaration) :
    (declared type declarations).Collects (declarations.map FieldDeclaration.entry) := by
  induction declarations using List.reverseRecOn with
  | nil => exact ⟨rfl, List.nodup_nil, fun _ => rfl⟩
  | append_singleton declarations last ih =>
      rw [declared, List.foldl_concat, List.map_append, ← declared, declare_eq]
      exact ih.withField last.entry.1 last.entry.2

theorem type_declared (type : String) (declarations : List FieldDeclaration) :
    (declared type declarations).type = type :=
  List.foldlRecOn (motive := fun template => template.type = type) declarations declare rfl
    fun template htype declaration _ => by rw [declare_eq]; exact htype

end Template

/-- **Overriding at creation is modifying afterwards.** A template has the fields that were declared, each once, in the
order in which they were first declared and with the default that was declared last. Creating a fact from it with
overrides is creating one without and overwriting the fields at once: either both refuse the first name that is no
field, or both give each field the last value for it, and its default if there is none. Overwriting several fields of
any fact at once is overwriting one after the other, of a fact in memory whenever it succeeds. -/
theorem creating_with_is_modifying (type : String) (declarations : List FieldDeclaration) (id : FactId)
    (overrides : List (String × Value)) :
    let template := Template.declared type declarations
    template.Collects (declarations.map FieldDeclaration.entry) ∧
      template.instantiate id [] = .ok { id, type, fields := template.defaults } ∧
      template.instantiate id overrides = (template.instantiate id []).bind (·.setMany overrides) ∧
      (template.instantiate id overrides =
        match overrides.find? fun entry => entry.1 ∉ template.fieldNames with
        | some entry => .error (.field type entry.1)
        | none =>
          .ok {
            id, type
            fields := template.defaults.map fun field =>
              (field.1, (Slots.last? field.1 overrides).getD field.2) }) ∧
      (∀ fact : Fact, ∀ values, fact.setEach values = fact.setMany values) ∧
      ∀ store : Store, ∀ ref values, (store.setMany ref values).1 = .ok () →
        store.setEach ref values = store.setMany ref values := by
  intro template
  have hcollects : template.Collects (declarations.map FieldDeclaration.entry) :=
    Template.collects_declared type declarations
  have htype : template.type = type := Template.type_declared type declarations
  have hplain : template.instantiate id [] = .ok { id, type, fields := template.defaults } := by
    rw [← htype]
    rfl
  have hsame : template.instantiate id overrides = (template.instantiate id []).bind (·.setMany overrides) :=
    template.instantiate_eq_setMany id overrides
  refine ⟨hcollects, hplain, hsame, ?_, Fact.setEach_eq_setMany, fun _ _ _ => Store.setEach_eq_setMany⟩
  rw [template.instantiate_eq, Template.fieldsWith, Slots.revised_eq_map _ hcollects.nodup, htype]

/-- Of a part, the size is declared twice, and the color has no default. -/
def partDeclarations : List FieldDeclaration :=
  [.withDefault "size" (.int 1), .absent "color", .withDefault "size" (.int 2)]

/-- A part that is created red, and then blue after all, keeps the later default of its size; and what is written to it
in memory at once could have been written one after the other. -/
theorem creating_with_is_modifying_repeated :
    let template := Template.declared "part" partDeclarations
    let store := (({} : Store).register template).make "part" []
    let writes : List (String × Value) := [("size", .int 3), ("color", .str "red"), ("size", .int 4)]
    template.fieldNames = ["size", "color"] ∧
      template.instantiate ⟨0⟩ [("color", .str "red"), ("color", .str "blue")] =
        .ok { id := ⟨0⟩, type := "part", fields := [("size", .int 2), ("color", .str "blue")] } ∧
      (store.2.setMany ⟨0⟩ writes).1 = .ok () ∧
      store.2.setEach ⟨0⟩ writes = store.2.setMany ⟨0⟩ writes := by
  intro template store writes
  obtain ⟨hcollects, -, -, hcreated, -, heach⟩ :=
    creating_with_is_modifying "part" partDeclarations ⟨0⟩ [("color", .str "red"), ("color", .str "blue")]
  have hwritten : (store.2.setMany ⟨0⟩ writes).1 = .ok () := rfl
  exact ⟨hcollects.fieldNames, hcreated, hwritten, heach store.2 ⟨0⟩ writes hwritten⟩

end ProductionSystem
