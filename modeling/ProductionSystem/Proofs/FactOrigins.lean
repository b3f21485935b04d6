import Mathlib.Data.List.Induction
import ProductionSystem.Proofs.Backtracking
import ProductionSystem.Proofs.MemoryTrace
import ProductionSystem.Proofs.ProducerAccounts

/-!
Where facts come from. If facts enter memory only through being made, every fact has an origin: the one moment of the
history at which it was made. From then on it has the type and the fields of the template that stood for its
type at that moment, in the order of their declaration, whatever is registered or written later.
-/

namespace ProductionSystem

section Names

variable {α : Type}

/-- Putting a value keeps the names distinct. -/
theorem Slots.nodup_names_put (name : String) (a : α) {slots : Slots α} (h : (names slots).Nodup) :
    (names (put name a slots)).Nodup := by
  unfold put
  cases hassign : assign? name a slots with
  | some written => rwa [Option.getD_some, names_of_assign? hassign]
  | none =>
      have hnew : ∀ other ∈ names slots, other ≠ name := by
        intro other hother heq
        have hhas := isSome_assign? name a slots
        rw [hassign, Option.isSome_none] at hhas
        exact Bool.false_ne_true (hhas.trans (has_eq_true_iff.2 (heq ▸ hother)))
      rw [Option.getD_none, names, List.map_append]
      refine List.nodup_append.2 ⟨h, List.nodup_singleton _, fun other hother last hlast => ?_⟩
      rw [List.mem_singleton.1 hlast]
      exact hnew other hother

theorem Template.Built.nodup {template : Template} (h : template.Built) : template.fieldNames.Nodup := by
  induction h with
  | new type => exact List.nodup_nil
  | withField _ name default ih => exact Slots.nodup_names_put name default ih

end Names

namespace Store

variable {store : Store} {operation : Operation}

/-- A make that fails uses up an id at most; one that succeeds enters a fact of the template and enqueues it. -/
theorem make_cases {P : Except ErrorKind FactRef × Store → Prop} (store : Store) (type : String)
    (overrides : List (String × Value)) (fails : ∀ cause nextId, P (.error cause, { store with nextId }))
    (makes : ∀ template fact, store.template? type = some template →
      fact.shape = ⟨⟨store.nextId⟩, template.type, template.fieldNames⟩ →
        P (.ok ⟨store.facts.size⟩,
          ({ store with nextId := store.nextId + 1 }.enter fact).2.enqueue ⟨store.facts.size⟩)) :
    P (store.make type overrides) := by
  unfold make
  split
  · exact fails _ store.nextId
  · rename_i template htemplate
    dsimp only [takeId]
    split
    · exact fails _ (store.nextId + 1)
    · rename_i fact hfact
      exact makes template fact htemplate (Template.shape_of_instantiate hfact)

theorem KeepsShapes.make (store : Store) (type : String) (overrides : List (String × Value)) :
    store.KeepsShapes (store.make type overrides).2 := by
  refine make_cases (P := fun result => store.KeepsShapes result.2) store type overrides (fun _ _ => .of_facts rfl) ?_
  exact fun _ fact _ _ => KeepsShapes.enter store fact

/-- No operation changes the shape of a fact. -/
theorem KeepsShapes.operate (h : operation.Lawful) : store.KeepsShapes (store.operate operation) := by
  cases operation with
  | make type overrides => exact .make store type overrides
  | remove ref => exact store.operate_remove ref ▸ .remove store ref
  | set ref field value => exact store.operate_set ref field value ▸ .set store ref field value
  | setMany ref values => exact store.operate_setMany ref values ▸ .setMany store ref values
  | create _ _ _ | enqueue _ | drainSince _ _ _ | drainBlocking _ _ => exact h.elim
  | register _ | wake | drain | snapshot | reset => exact .of_facts rfl

theorem KeepsShapes.undergo {operations : List Operation} (h : ∀ operation ∈ operations, operation.Lawful) :
    store.KeepsShapes (store.undergo operations) :=
  List.foldlRecOn (motive := store.KeepsShapes) operations Store.operate (.of_facts rfl)
    fun _ hkept operation hmem => hkept.trans (.operate (h operation hmem))

/-- What an operation other than a make does to what memory knows: no fact is new, and whatever is pending or live
was so before. -/
structure Confined (store after : Store) : Prop where
  size : after.facts.size = store.facts.size
  pending : after.pending ⊆ store.pending
  live : ∀ type, ∀ ref ∈ after.get type, ref ∈ store.pending ∨ ref ∈ store.get type

theorem Confined.set (store : Store) (ref : FactRef) (field : String) (value : Value) :
    store.Confined (store.set ref field value).2 := by
  unfold Store.set
  split
  · exact ⟨rfl, List.Subset.refl _, fun _ _ => .inr⟩
  · split
    · exact ⟨Array.size_setIfInBounds .., List.Subset.refl _, fun _ _ => .inr⟩
    · exact ⟨rfl, List.Subset.refl _, fun _ _ => .inr⟩

theorem Confined.setMany (store : Store) (ref : FactRef) (values : List (String × Value)) :
    store.Confined (store.setMany ref values).2 := by
  unfold Store.setMany
  split
  · exact ⟨rfl, List.Subset.refl _, fun _ _ => .inr⟩
  · split
    · exact ⟨Array.size_setIfInBounds .., List.Subset.refl _, fun _ _ => .inr⟩
    · exact ⟨rfl, List.Subset.refl _, fun _ _ => .inr⟩

theorem Confined.remove (store : Store) (ref : FactRef) : store.Confined (store.remove ref).2 where
  size := (KeepsQueue.remove store ref).size
  pending := (KeepsQueue.remove store ref).pending ▸ List.Subset.refl _
  live type _ hmem := .inr ((get_remove_sublist store ref type).subset hmem)

theorem Confined.drain (store : Store) : store.Confined store.drain where
  size := rfl
  pending := List.nil_subset _
  live type ref hmem := by
    rw [get_drain] at hmem
    exact (List.mem_append.1 hmem).symm.imp_left List.mem_of_mem_filter

/-- Only making brings something new. -/
theorem confined_or_make (store : Store) (h : operation.Lawful) :
    store.Confined (store.operate operation) ∨ ∃ type overrides, operation = .make type overrides := by
  cases operation with
  | make type overrides => exact .inr ⟨type, overrides, rfl⟩
  | remove ref => exact .inl (store.operate_remove ref ▸ .remove store ref)
  | set ref field value => exact .inl (store.operate_set ref field value ▸ .set store ref field value)
  | setMany ref values => exact .inl (store.operate_setMany ref values ▸ .setMany store ref values)
  | create _ _ _ | enqueue _ | drainSince _ _ _ | drainBlocking _ _ => exact h.elim
  | register _ | wake | snapshot => exact .inl ⟨rfl, List.Subset.refl _, fun _ _ => .inr⟩
  | drain => exact .inl (.drain store)
  | reset => exact .inl ⟨rfl, List.nil_subset _, fun _ _ hmem => (List.not_mem_nil hmem).elim⟩

/-- A template stood for the type before, or it is registered now. -/
theorem of_template?_operate {type : String} {template : Template} (hlawful : operation.Lawful)
    (h : (store.operate operation).template? type = some template) :
    store.template? type = some template ∨ operation = .register template ∧ type = template.type := by
  cases operation with
  | register new =>
      have hinsert : (if type = new.type then some new else store.template? type) = some template :=
        (Dictionary.get?_insert store.templates new.type new type).symm.trans h
      split at hinsert
      · obtain rfl := Option.some.inj hinsert
        exact .inr ⟨rfl, ‹_›⟩
      · exact .inl hinsert
  | make made overrides =>
      refine .inl (Eq.trans ?_ h)
      exact make_cases (P := fun result => store.template? type = result.2.template? type) store made overrides
        (fun _ _ => rfl) fun _ _ _ _ => rfl
  | remove ref =>
      rw [operate_remove, template?_remove] at h
      exact .inl h
  | set ref field value =>
      rw [operate_set, template?_set] at h
      exact .inl h
  | setMany ref values =>
      rw [operate_setMany, template?_setMany] at h
      exact .inl h
  | create _ _ _ | enqueue _ | drainSince _ _ _ | drainBlocking _ _ => exact hlawful.elim
  | wake | drain | snapshot => exact .inl h
  | reset => cases h

theorem Coherent.of_confined {after : Store} (h : store.Coherent) (hconfined : store.Confined after)
    (htemplates : ∀ type template, after.template? type = some template → template.type = type) : after.Coherent where
  pending ref hmem := hconfined.size ▸ h.pending ref (hconfined.pending hmem)
  live type ref hmem := hconfined.size ▸ (hconfined.live type ref hmem).elim (h.pending ref) (h.live type ref)
  templates := htemplates

theorem Coherent.operate (h : store.Coherent) (hlawful : operation.Lawful) : (store.operate operation).Coherent := by
  have htemplates : ∀ type template, (store.operate operation).template? type = some template → template.type = type :=
    fun type template htemplate =>
      (of_template?_operate hlawful htemplate).elim (h.templates type template) fun hnew => hnew.2.symm
  rcases store.confined_or_make hlawful with hconfined | ⟨type, overrides, rfl⟩
  · exact h.of_confined hconfined htemplates
  · revert htemplates
    refine make_cases (P := fun result =>
      (∀ type template, result.2.template? type = some template → template.type = type) → result.2.Coherent) store type
        overrides (fun _ _ => fun htemplates => ⟨h.pending, h.live, htemplates⟩) fun _ fact _ _ htemplates => ?_
    have hsize : (store.facts.push fact).size = store.facts.size + 1 := Array.size_push ..
    have hold {ref : FactRef} (hknown : ref.index < store.facts.size) : ref.index < (store.facts.push fact).size :=
      hsize ▸ Nat.lt_succ_of_lt hknown
    refine ⟨fun ref hmem => ?_, fun type ref hmem => hold (h.live type ref hmem), htemplates⟩
    rcases List.mem_append.1 hmem with hmem | hmem
    · exact hold (h.pending ref hmem)
    · rw [List.mem_singleton.1 hmem]
      exact hsize ▸ Nat.lt_succ_self _

end Store

/-- A moment of a history at which a fact was made: what was done before, the call, what was done later, and the
template that stood for the type at that moment. -/
structure Origin where
  before : List Operation
  type : String
  overrides : List (String × Value)
  later : List Operation
  template : Template

namespace Origin

/-- Memory at the moment. -/
def memory (origin : Origin) : Store := ({} : Store).undergo origin.before

/-- Was a fact made at the moment? -/
structure Of (operations : List Operation) (ref : FactRef) (origin : Origin) : Prop where
  history : operations = origin.before ++ .make origin.type origin.overrides :: origin.later
  registered : origin.memory.template? origin.type = some origin.template
  made : (origin.memory.make origin.type origin.overrides).1 = .ok ref

namespace Of

variable {operations : List Operation} {ref : FactRef} {origin other : Origin}

/-- A fact that is made is the next one, and is there afterwards. -/
theorem size (h : origin.Of operations ref) : origin.memory.facts.size = ref.index ∧
    (origin.memory.operate (.make origin.type origin.overrides)).facts.size = ref.index + 1 := by
  refine Store.make_cases (P := fun result => result.1 = .ok ref → origin.memory.facts.size = ref.index ∧
    result.2.facts.size = ref.index + 1) origin.memory origin.type origin.overrides (fun _ _ => nofun)
      (fun _ fact _ _ hmade => ?_) h.made
  obtain rfl := Except.ok.inj hmade
  exact ⟨rfl, Array.size_push ..⟩

/-- A fact is made only once: if it was made at a moment, then not at a later one. -/
theorem eq_of_append (hlawful : ∀ operation ∈ operations, operation.Lawful) (h : origin.Of operations ref)
    (hother : other.Of operations ref) {between : List Operation} (hbefore : other.before = origin.before ++ between)
    (hlater : .make origin.type origin.overrides :: origin.later =
      between ++ .make other.type other.overrides :: other.later) : other = origin := by
  cases between with
  | nil =>
      obtain ⟨hmake, hrest⟩ := List.cons.inj hlater
      obtain ⟨htype, hoverrides⟩ := Operation.make.inj hmake
      rw [List.append_nil] at hbefore
      have htemplate : some other.template = some origin.template := by
        rw [← hother.registered, ← h.registered, memory, memory, hbefore, htype]
      obtain ⟨_, _, _, _, _⟩ := origin
      exact (Origin.mk.injEq ..).mpr ⟨hbefore, htype.symm, hoverrides.symm, hrest.symm, Option.some.inj htemplate⟩
  | cons operation between =>
      -- what was made first is there at the later moment, so the fact made then is another one
      obtain ⟨rfl, -⟩ := List.cons.inj hlater
      have hmemory : other.memory =
          (origin.memory.operate (.make origin.type origin.overrides)).undergo between := by
        rw [memory, hbefore, Store.undergo_append]
        rfl
      have hkept : (origin.memory.operate (.make origin.type origin.overrides)).KeepsShapes other.memory := by
        rw [hmemory]
        refine .undergo fun operation hmem => hlawful operation ?_
        rw [hother.history, hbefore]
        exact List.mem_append_left _ (List.mem_append_right _ (List.mem_cons_of_mem _ hmem))
      have hle := hkept.size_le
      rw [h.size.2, hother.size.1] at hle
      exact (Nat.not_succ_le_self _ hle).elim

theorem unique (hlawful : ∀ operation ∈ operations, operation.Lawful) (h : origin.Of operations ref)
    (hother : other.Of operations ref) : other = origin := by
  rcases List.append_eq_append_iff.1 (h.history.symm.trans hother.history) with
    ⟨between, hbefore, hlater⟩ | ⟨between, hbefore, hlater⟩
  · exact h.eq_of_append hlawful hother hbefore hlater
  · exact (hother.eq_of_append hlawful h hbefore hlater).symm

end Of

end Origin

/-- Has a fact the type and the fields of a template, each once and in the order of their declaration? -/
structure Fact.Conforms (fact : Fact) (template : Template) : Prop where
  type : fact.type = template.type
  names : Slots.names fact.fields = template.fieldNames
  distinct : (Slots.names fact.fields).Nodup

namespace Fact.Conforms

variable {fact : Fact} {template : Template}

theorem of_shape {id : FactId} (hshape : fact.shape = ⟨id, template.type, template.fieldNames⟩)
    (hdistinct : template.fieldNames.Nodup) : fact.Conforms template := by
  have hnames : Slots.names fact.fields = template.fieldNames := congrArg Fact.Shape.names hshape
  exact ⟨congrArg Fact.Shape.type hshape, hnames, hnames ▸ hdistinct⟩

theorem of_shape_eq {changed : Fact} (h : fact.Conforms template) (hshape : changed.shape = fact.shape) :
    changed.Conforms template := by
  have hnames : Slots.names changed.fields = Slots.names fact.fields := congrArg Fact.Shape.names hshape
  exact ⟨(congrArg Fact.Shape.type hshape).trans h.type, hnames.trans h.names, hnames ▸ h.distinct⟩

end Fact.Conforms

/-- What memory holds after operations: known facts and templates that were built, and every fact has an origin among
the operations, whose template it conforms to. -/
structure Store.Accounted (operations : List Operation) (store : Store) : Prop where
  coherent : store.Coherent
  built : ∀ type template, store.template? type = some template → template.Built
  origins : ∀ ref fact, store.fact? ref = some fact →
    ∃ origin : Origin, origin.Of operations ref ∧ origin.template.type = origin.type ∧ fact.Conforms origin.template

namespace Store.Accounted

variable {operations : List Operation} (h : (({} : Store).undergo operations).Accounted operations)

include h

/-- A fact that is made has an origin. -/
theorem exists_origin_of_make {type : String} {overrides : List (String × Value)} {ref : FactRef} {fact : Fact}
    (hnew : (({} : Store).undergo operations).facts.size ≤ ref.index)
    (hfact : ((({} : Store).undergo operations).make type overrides).2.fact? ref = some fact) :
    ∃ origin : Origin, origin.Of (operations ++ [.make type overrides]) ref ∧ origin.template.type = origin.type ∧
      fact.Conforms origin.template := by
  let store := ({} : Store).undergo operations
  have hknown : ref.index < (store.make type overrides).2.facts.size := (Array.getElem?_eq_some_iff.1 hfact).1
  revert hfact hknown
  refine make_cases (P := fun result => store.make type overrides = result → result.2.fact? ref = some fact →
    ref.index < result.2.facts.size → _) store type overrides (fun _ _ _ _ hknown => ?_) ?_ rfl
  · exact (Nat.not_lt.2 hnew hknown).elim
  · intro template made htemplate hshape hmake hfact hknown
    have hsize : (store.facts.push made).size = store.facts.size + 1 := Array.size_push ..
    have hbound : ref.index < (store.facts.push made).size := hknown
    rw [hsize] at hbound
    have hindex : ref.index ≤ store.facts.size := Nat.le_of_lt_succ hbound
    obtain rfl : ref = ⟨store.facts.size⟩ := congrArg FactRef.mk (Nat.le_antisymm hindex hnew)
    obtain rfl : made = fact := Option.some.inj ((Array.getElem?_push_size ..).symm.trans hfact)
    refine ⟨⟨operations, type, overrides, [], template⟩, ⟨rfl, htemplate, congrArg Prod.fst hmake⟩,
      h.coherent.templates type template htemplate, ?_⟩
    exact .of_shape hshape (h.built type template htemplate).nodup

theorem operate {operation : Operation} (hlawful : operation.Lawful) :
    (({} : Store).undergo (operations ++ [operation])).Accounted (operations ++ [operation]) := by
  rw [undergo_append]
  let store := ({} : Store).undergo operations
  refine ⟨h.coherent.operate hlawful, fun type template htemplate => ?_, fun ref fact hfact => ?_⟩
  · rcases of_template?_operate hlawful htemplate with hold | ⟨rfl, -⟩
    · exact h.built type template hold
    · exact hlawful
  -- a fact that was there keeps its origin and its shape, any other was made just now
  by_cases hold : ref.index < store.facts.size
  · have hthen : store.fact? ref = some store.facts[ref.index] := Array.getElem?_eq_getElem hold
    obtain ⟨origin, horigin, htype, hconforms⟩ := h.origins ref _ hthen
    have hshape : fact.shape = store.facts[ref.index].shape := by
      have hkept := KeepsShapes.operate hlawful ref _ hthen
      rw [show (store.operate operation).fact? ref = some fact from hfact] at hkept
      exact Option.some.inj hkept
    refine ⟨{ origin with later := origin.later ++ [operation] }, ⟨?_, horigin.registered, horigin.made⟩, htype, ?_⟩
    · rw [horigin.history, List.append_assoc, List.cons_append]
    · exact hconforms.of_shape_eq hshape
  · rcases store.confined_or_make hlawful with hconfined | ⟨type, overrides, rfl⟩
    · have hknown : ref.index < (store.operate operation).facts.size := (Array.getElem?_eq_some_iff.1 hfact).1
      exact (hold (hconfined.size ▸ hknown)).elim
    · exact h.exists_origin_of_make (Nat.le_of_not_lt hold) hfact

omit h in
theorem undergo (operations : List Operation) (hlawful : ∀ operation ∈ operations, operation.Lawful) :
    (({} : Store).undergo operations).Accounted operations := by
  induction operations using List.reverseRecOn with
  | nil =>
      refine ⟨⟨nofun, nofun, fun type template htemplate => ?_⟩, fun type template htemplate => ?_, nofun⟩
      · cases htemplate
      · cases htemplate
  | append_singleton operations operation ih =>
      obtain ⟨hbefore, hlast⟩ := List.forall_mem_append.1 hlawful
      exact (ih hbefore).operate (hlast operation List.mem_cons_self)

end Store.Accounted

/-- **Facts conform to their templates.** Let facts come into an engine only by being made, by its owner, by files or by
actions, and let templates be built. Whatever else is done with it, of every fact that is pending or live there is just
one moment at which it was made, and it has the type and the fields of the template that was registered for its type
at that moment: each field once, in the order of the template. No later act changes the fields of a fact, be its
type declared again or not. -/
theorem facts_conform (reading : Reading) (config : Config) (acts : List Act)
    (hacts : ∀ act ∈ acts, act.Lawful reading) :
    let machine := ((Machine.new config).acts acts).2
    let store := machine.engine.store
    let operations := (Machine.new config).trace reading acts
    store = ({} : Store).undergo operations ∧
      (∀ ref, (ref ∈ store.pending ∨ ∃ type, ref ∈ store.get type) →
        ∃ fact origin, store.fact? ref = some fact ∧ Origin.Of operations ref origin ∧
          (∀ other, Origin.Of operations ref other → other = origin) ∧
          origin.template.type = origin.type ∧ fact.Conforms origin.template) ∧
      ∀ later : List Act, (∀ act ∈ later, act.Lawful reading) →
        store.KeepsShapes (machine.acts later).2.engine.store := by
  intro machine store operations
  have hsound : (Machine.new config).Sound config := .new config
  have hnone : ∀ command ∈ (Machine.new config).commands, reading.Lawful command :=
    fun _ hcommand => (Machine.not_mem_commands_new config hcommand).elim
  obtain ⟨hstore, hlawful⟩ := Machine.store_acts hsound hnone hacts
  have hmemory : store = ({} : Store).undergo operations := hstore
  refine ⟨hmemory, fun ref hthere => ?_, fun later hlater => ?_⟩
  · obtain ⟨hcoherent, -, horigins⟩ := Store.Accounted.undergo operations hlawful
    rw [← hmemory] at hcoherent horigins
    have hknown : ref.index < store.facts.size :=
      hthere.elim (hcoherent.pending ref) fun ⟨type, hlive⟩ => hcoherent.live type ref hlive
    have hfact : store.fact? ref = some store.facts[ref.index] := Array.getElem?_eq_getElem hknown
    obtain ⟨origin, horigin, htype, hconforms⟩ := horigins ref _ hfact
    exact ⟨_, origin, hfact, horigin, fun _ => horigin.unique hlawful, htype, hconforms⟩
  · have hcommands : ∀ command ∈ machine.commands, reading.Lawful command := fun command hcommand => by
      rcases Machine.of_mem_commands_acts hcommand with hnew | ⟨act, hact, hbrings⟩
      · exact hnone command hnew
      · exact (hacts act hact).1 command hbrings
    obtain ⟨hafter, hlawfulLater⟩ := Machine.store_acts (hsound.acts acts) hcommands hlater
    have hundergo : (machine.acts later).2.engine.store = store.undergo (machine.trace reading later) := hafter
    rw [hundergo]
    exact .undergo hlawfulLater

/-- A rule that gives a part a size, and then tries to give it a color. -/
def finishing : Rule where
  name := "finish"
  conditions := [⟨"part", []⟩]
  actions := [
    ⟨Builtin.modify.command, [.literal (.int 0), .literal (.str "size"), .literal (.int 2)]⟩,
    ⟨Builtin.modify.command, [.literal (.int 0), .literal (.str "color"), .literal (.str "red")]⟩]

/-- A file that declares parts with a color, and makes one. -/
def coloredParts : Json := .obj [("ops", .arr [
  .arr [.str "literalize", .str "part", .str "color", .str "size"],
  .arr [.str "make", .str "part", .str "color", .str "green"]])]

/-- A part that only has a size is made, and a run begins that is to fire one rule. -/
def partMaking : List Act := [
  .memory (.register ⟨"part", [("size", .nil)]⟩), .memory (.make "part" []), .addRules [finishing], .begin (some 1),
  .loop, .loop]

/-- The rule is fired. Then parts are declared again. -/
def partColoring : List Act :=
  List.replicate 5 .loop ++ [.load .builtins (.document coloredParts), .memory .drain]

def partsMade : Machine := ((Machine.new .sequential).acts partMaking).2

def finishingMatch : Match := ⟨⟨0, finishing⟩, [⟨0⟩], Dictionary.empty⟩

theorem acts_partMaking_partColoring : ((Machine.new .sequential).acts (partMaking ++ .loop :: partColoring)).2 =
    ((partsMade.fire finishingMatch).acts partColoring).2 := by
  have hall : partsMade.engine.matchAll = Match.all none partsMade.engine.view [⟨0, finishing⟩] := rfl
  have hchoose : partsMade.engine.choose = some finishingMatch := by
    rw [Engine.choose_of_matchAll hall]
    rfl
  rw [Machine.acts_append]
  exact Machine.acts_loop_of_choose rfl hchoose partColoring

/-- The part that was made first got its size, but no color. -/
theorem facts_conform_parts :
    let history := partMaking ++ .loop :: partColoring
    let machine := ((Machine.new .sequential).acts history).2
    let store := machine.engine.store
    let operations := (Machine.new .sequential).trace Builtin.reading history
    (∀ act ∈ history, act.Lawful Builtin.reading) ∧ machine.engine.failures.size = 1 ∧
      store.get "part" = [⟨0⟩, ⟨1⟩] ∧ (store.template? "part").map Template.fieldNames = some ["color", "size"] ∧
      (∃ fact origin, store.fact? ⟨0⟩ = some fact ∧ Origin.Of operations ⟨0⟩ origin ∧ fact.Conforms origin.template ∧
        fact.get "size" = .int 2 ∧ origin.template.fieldNames = ["size"]) ∧
      ∃ fact origin, store.fact? ⟨1⟩ = some fact ∧ Origin.Of operations ⟨1⟩ origin ∧ fact.Conforms origin.template ∧
        origin.template.fieldNames = ["color", "size"] := by
  intro history machine store operations
  have hmachine : machine = ((partsMade.fire finishingMatch).acts partColoring).2 := acts_partMaking_partColoring
  have hfinishing : ∀ command ∈ finishing.commands, Builtin.reading.Lawful command :=
    List.forall_mem_cons.2 ⟨Builtin.lawful_reading .modify .sync,
      List.forall_mem_singleton.2 (Builtin.lawful_reading .modify .sync)⟩
  have hbuilt : (⟨"part", [("size", .nil)]⟩ : Template).Built := .withField (.new "part") "size" .nil
  have hlawful : ∀ act ∈ history, act.Lawful Builtin.reading := by
    simpa [history, partMaking, partColoring, Act.Lawful, Act.Brings, Operation.Lawful, hbuilt] using
      ⟨hfinishing, fun command hnames => Registry.lawful_of_builtins hnames⟩
  have hlive : store.get "part" = [⟨0⟩, ⟨1⟩] := by
    show machine.engine.store.get "part" = _
    rw [hmachine]
    rfl
  have hfirst : store.fact? ⟨0⟩ = some ⟨⟨0⟩, "part", [("size", .int 2)], false⟩ := by
    show machine.engine.store.fact? ⟨0⟩ = _
    rw [hmachine]
    rfl
  have hsecond : store.fact? ⟨1⟩ = some ⟨⟨1⟩, "part", [("color", .str "green"), ("size", .nil)], false⟩ := by
    show machine.engine.store.fact? ⟨1⟩ = _
    rw [hmachine]
    rfl
  obtain ⟨-, hconform, -⟩ := facts_conform Builtin.reading .sequential history hlawful
  refine ⟨hlawful, by rw [hmachine]; rfl, hlive, ?_, ?_, ?_⟩
  · show (machine.engine.store.template? "part").map _ = _
    rw [hmachine]
    rfl
  · obtain ⟨fact, origin, hfact, horigin, -, -, hconforms⟩ := hconform ⟨0⟩ (.inr ⟨"part", hlive ▸ by simp⟩)
    obtain rfl := Option.some.inj (hfirst.symm.trans hfact)
    exact ⟨_, origin, hfact, horigin, hconforms, rfl, hconforms.names.symm⟩
  · obtain ⟨fact, origin, hfact, horigin, -, -, hconforms⟩ := hconform ⟨1⟩ (.inr ⟨"part", hlive ▸ by simp⟩)
    obtain rfl := Option.some.inj (hsecond.symm.trans hfact)
    exact ⟨_, origin, hfact, horigin, hconforms, hconforms.names.symm⟩

end ProductionSystem
