import ProductionSystem.Proofs.LoadedDocuments

/-!
What a load leaves behind when it fails. Declarations and facts take effect statement by statement and the rules of
a document wait for its end, so a load that stops at a statement has taken in what stands before it, but for the
rules. The statement itself leaves nothing, except that a fact with a field that its type does not have uses up an
id.
-/

namespace ProductionSystem

namespace Template

theorem override_eq_error_iff {type : String} {fields : Fields} {overrides : List (String × Value)}
    {kind : ErrorKind} :
    override type fields overrides = .error kind ↔
      ∃ field, overrides.find? (fun value => value.1 ∉ Slots.names fields) = some field ∧
        .field type field.1 = kind := by
  induction overrides generalizing fields with
  | nil => simp [override]
  | cons first overrides ih =>
      obtain ⟨name, value⟩ := first
      have hhas : (Slots.assign? name value fields).isSome = true ↔ name ∈ Slots.names fields := by
        rw [Slots.isSome_assign?, Slots.has_eq_true_iff]
      cases hassign : Slots.assign? name value fields with
      | none =>
          have hname : name ∉ Slots.names fields := fun h => by
            have hsome := hhas.2 h
            rw [hassign] at hsome
            cases hsome
          rw [List.find?_cons_of_pos (by simpa using hname)]
          simp only [override, hassign, Except.error.injEq, Option.some.injEq, exists_eq_left']
      | some changed =>
          have hname : name ∈ Slots.names fields := hhas.1 (by rw [hassign]; rfl)
          rw [List.find?_cons_of_neg (by simpa using hname)]
          simp only [override, hassign, ih, Slots.names_of_assign? hassign]

end Template

namespace Store

/-- Why a fact is not made, and the error that tells it: its type is not declared, or a field, the first of those
given, does not belong to the type. -/
inductive Refuses (store : Store) (type : String) (values : List (String × Value)) : ErrorKind → Prop
  | undeclared (htype : store.template? type = none) : Refuses store type values (.schema type)
  | unknownField {template : Template} {field : String × Value} (htype : store.template? type = some template)
      (hfield : values.find? (fun value => value.1 ∉ template.fieldNames) = some field) :
      Refuses store type values (.field template.type field.1)

/-- The store after a fact was refused: a field that is not known uses up an id. -/
def refusing (store : Store) (kind : ErrorKind) : Store :=
  { store with nextId := if kind.isField then store.nextId + 1 else store.nextId }

variable {store after : Store} {type : String} {values : List (String × Value)} {kind : ErrorKind}

theorem make_of_refuses (h : store.Refuses type values kind) :
    store.make type values = (.error kind, store.refusing kind) := by
  cases h with
  | undeclared htype =>
      simp only [make, htype]
      rfl
  | @unknownField template field htype hfield =>
      have hfields : Template.override template.type template.defaults values = .error (.field template.type field.1) :=
        Template.override_eq_error_iff.2 ⟨field, hfield, rfl⟩
      simp only [make, htype, takeId, Template.instantiate, hfields, Except.map]
      rfl

theorem refuses_of_make (h : (store.make type values).1 = .error kind) : store.Refuses type values kind := by
  unfold make takeId at h
  split at h
  · rename_i htype
    obtain rfl := Except.error.inj h
    exact .undeclared htype
  · rename_i template htype
    dsimp only [Template.instantiate] at h
    cases hfields : Template.override template.type template.defaults values with
    | ok fields =>
        rw [hfields] at h
        cases h
    | error e =>
        rw [hfields] at h
        obtain ⟨field, hfield, rfl⟩ := Template.override_eq_error_iff.1 hfields
        obtain rfl := Except.error.inj h
        exact .unknownField htype hfield

end Store

/-- Why a document is not taken in as a statement, and the error that tells it: it is no statement, or a fact that is
not made. -/
inductive Json.IsRefused (registry : Registry) (store : Store) (json : Json) : ErrorKind → Prop
  | illFormed {problem : LoadProblem} (hjson : Statement.ofJson registry json = .error problem) :
      IsRefused registry store json (.load problem.message)
  | inapplicable {type : String} {values : List (String × Value)} {kind : ErrorKind}
      (hjson : json.IsStatement registry (.make type values)) (hrefuses : store.Refuses type values kind) :
      IsRefused registry store json kind

/-- Where the statements of a document stop being taken in: those before are all statements that fit, and the next
is refused. -/
structure Document.StopsAfter (registry : Registry) (store : Store) (items : List Json) (taken : List Statement)
    (kind : ErrorKind) : Prop where
  statements : List.Forall₂ (Json.IsStatement registry) (items.take taken.length) taken
  fit : Statement.AllFit store.schema taken
  refused : ∃ json, items[taken.length]? = some json ∧
    json.IsRefused registry (taken.foldl Store.takeIn store) kind

namespace Document

variable {registry : Registry} {store : Store} {json : Json} {items : List Json} {statement : Statement}
  {taken : List Statement} {kind : ErrorKind}

theorem not_stopsAfter_nil : ¬StopsAfter registry store [] taken kind := fun h => by
  obtain ⟨json, hjson, -⟩ := h.refused
  simp at hjson

theorem stopsAfter_cons_nil_iff :
    StopsAfter registry store (json :: items) [] kind ↔ json.IsRefused registry store kind := by
  refine ⟨fun h => ?_, fun h => ⟨.nil, trivial, json, rfl, h⟩⟩
  obtain ⟨json', hjson, hrefused⟩ := h.refused
  obtain rfl := Option.some.inj hjson
  exact hrefused

theorem stopsAfter_cons_cons_iff :
    StopsAfter registry store (json :: items) (statement :: taken) kind ↔
      json.IsStatement registry statement ∧ statement.Fits store.schema ∧
        StopsAfter registry (store.takeIn statement) items taken kind := by
  constructor
  · rintro ⟨hstatements, hfit, hrefused⟩
    obtain ⟨hstatement, hstatements⟩ := List.forall₂_cons.1 hstatements
    refine ⟨hstatement, hfit.1, hstatements, ?_, hrefused⟩
    rw [Store.schema_takeIn]
    exact hfit.2
  · rintro ⟨hstatement, hfits, hstatements, hfit, hrefused⟩
    rw [Store.schema_takeIn] at hfit
    exact ⟨.cons hstatement hstatements, ⟨hfits, hfit⟩, hrefused⟩

end Document

namespace Loading

/-- The load after a statement was refused. -/
def refusing (loading : Loading) (kind : ErrorKind) : Loading :=
  { loading with engine := loading.engine.withStore (loading.engine.store.refusing kind) }

variable {loading last : Loading} {registry : Registry} {kind : ErrorKind}

theorem apply_eq_error_iff {statement : Statement} :
    loading.apply statement = (.error kind, last) ↔
      ∃ type values, statement = .make type values ∧ loading.engine.store.Refuses type values kind ∧
        loading.refusing kind = last := by
  constructor
  · intro h
    cases statement with
    | make type values =>
        unfold apply at h
        dsimp only at h
        split at h
        · cases h
        · rename_i e engine hmake
          obtain ⟨he, rfl⟩ := Prod.mk.inj h
          obtain rfl := Except.error.inj he
          have hrefuses := Store.refuses_of_make (Prod.mk.inj hmake).1
          simp only [Engine.make, Store.make_of_refuses hrefuses, Prod.mk.injEq, true_and] at hmake
          exact ⟨type, values, rfl, hrefuses, by rw [refusing, hmake]⟩
    | literalize _ | rule _ | skipped => cases h
  · rintro ⟨type, values, rfl, hrefuses, rfl⟩
    simp only [apply, Engine.make, Store.make_of_refuses hrefuses, refusing]

theorem step_eq_error_iff {json : Json} :
    loading.step registry json = (.error kind, last) ↔
      json.IsRefused registry loading.engine.store kind ∧ loading.refusing kind = last := by
  constructor
  · intro h
    unfold step at h
    split at h
    · rename_i statement hjson
      obtain ⟨type, values, rfl, hrefuses, hlast⟩ := apply_eq_error_iff.1 h
      exact ⟨.inapplicable (Statement.ofJson_eq_ok_iff.1 hjson) hrefuses, hlast⟩
    · rename_i problem hjson
      obtain ⟨hkind, rfl⟩ := Prod.mk.inj h
      obtain rfl := Except.error.inj hkind
      exact ⟨.illFormed hjson, rfl⟩
  · rintro ⟨hrefused, rfl⟩
    cases hrefused with
    | illFormed hjson =>
        simp only [step, hjson]
        rfl
    | inapplicable hjson hrefuses =>
        simp only [step, Statement.ofJson_eq_ok_iff.2 hjson]
        exact apply_eq_error_iff.2 ⟨_, _, rfl, hrefuses, rfl⟩

/-- Statements fail to be taken in at the first that is refused, and the error names its place. -/
theorem steps_eq_error_iff {index : Nat} {items : List Json} {e : Error} :
    loading.steps registry index items = (.error e, last) ↔
      ∃ taken kind, Document.StopsAfter registry loading.engine.store items taken kind ∧
        e = (kind : Error).withFrame ("statement " ++ toString (index + taken.length)) ∧
        (taken.foldl taking loading).refusing kind = last := by
  induction items generalizing loading index with
  | nil =>
      refine ⟨nofun, ?_⟩
      rintro ⟨taken, kind, h, -⟩
      exact absurd h Document.not_stopsAfter_nil
  | cons json items ih =>
      have hplace (n : Nat) : index + 1 + n = index + (n + 1) := by omega
      constructor
      · intro h
        unfold steps at h
        split at h
        · rename_i next hstep
          obtain ⟨statement, hstatement, hfits, rfl⟩ := step_eq_ok_iff.1 hstep
          obtain ⟨taken, kind, hstops, rfl, rfl⟩ := ih.1 h
          refine ⟨statement :: taken, kind, Document.stopsAfter_cons_cons_iff.2 ⟨hstatement, hfits, hstops⟩, ?_, rfl⟩
          rw [hplace, List.length_cons]
        · rename_i kind next hstep
          obtain ⟨hrefused, rfl⟩ := step_eq_error_iff.1 hstep
          obtain ⟨he, rfl⟩ := Prod.mk.inj h
          exact ⟨[], kind, Document.stopsAfter_cons_nil_iff.2 hrefused, (Except.error.inj he).symm, rfl⟩
      · rintro ⟨taken, kind, hstops, rfl, rfl⟩
        rw [steps]
        cases taken with
        | nil =>
            have hrefused := Document.stopsAfter_cons_nil_iff.1 hstops
            rw [step_eq_error_iff.2 ⟨hrefused, rfl⟩]
            rfl
        | cons statement taken =>
            obtain ⟨hstatement, hfits, hstops⟩ := Document.stopsAfter_cons_cons_iff.1 hstops
            rw [step_eq_ok_iff.2 ⟨statement, hstatement, hfits, rfl⟩]
            refine ih.2 ⟨taken, kind, hstops, ?_, rfl⟩
            rw [hplace, List.length_cons]

end Loading

namespace Store

/-- Nothing changes for the facts of a store but that others may be waiting behind them. -/
structure Grows (store after : Store) : Prop where
  live : after.live = store.live
  pending : store.pending <+: after.pending
  facts : ∀ ref fact, store.fact? ref = some fact → after.fact? ref = some fact

namespace Grows

theorem refl (store : Store) : Grows store store := ⟨rfl, List.prefix_rfl, fun _ _ => id⟩

theorem trans {first second third : Store} (h : Grows first second) (h' : Grows second third) : Grows first third :=
  ⟨h'.live.trans h.live, h.pending.trans h'.pending, fun ref fact hfact => h'.facts ref fact (h.facts ref fact hfact)⟩

theorem make (store : Store) (type : String) (values : List (String × Value)) :
    Grows store (store.make type values).2 := by
  unfold Store.make takeId enter enqueue
  dsimp only
  split
  · exact refl store
  · split
    · exact ⟨rfl, List.prefix_rfl, fun _ _ => id⟩
    · exact ⟨rfl, List.prefix_append _ _, fun _ _ hfact => fact?_enter_of_some hfact _⟩

theorem takeIn (store : Store) (statement : Statement) : Grows store (store.takeIn statement) := by
  cases statement with
  | literalize template => exact ⟨rfl, List.prefix_rfl, fun _ _ => id⟩
  | make type values => exact make store type values
  | rule _ | skipped => exact refl store

theorem foldl_takeIn (taken : List Statement) (store : Store) : Grows store (taken.foldl Store.takeIn store) := by
  induction taken generalizing store with
  | nil => exact refl store
  | cons statement taken ih => exact (takeIn store statement).trans (ih _)

end Grows

end Store

namespace Engine

theorem loadDocument_eq_error_iff {engine after : Engine} {registry : Registry} {json : Json} {name : Option String}
    {items : List Json} (hdocument : Document.ofJson json = .ok ⟨name, some items⟩) {e : Error} :
    engine.loadDocument registry json = (.error e, after) ↔
      ∃ taken kind, Document.StopsAfter registry engine.store items taken kind ∧
        e = ⟨kind, some { stack := ["statement " ++ toString taken.length] }⟩ ∧
        engine.withStore ((taken.foldl Store.takeIn engine.store).refusing kind) = after := by
  have hsteps {loading : Loading} :=
    @Loading.steps_eq_error_iff { engine, summary := { name } } loading registry 0 items e
  simp only [Nat.zero_add] at hsteps
  constructor
  · intro h
    simp only [loadDocument, hdocument] at h
    split at h
    · cases h
    · rename_i loading hloading
      obtain ⟨he, rfl⟩ := Prod.mk.inj h
      obtain rfl := Except.error.inj he
      obtain ⟨taken, kind, hstops, he, rfl⟩ := hsteps.1 hloading
      refine ⟨taken, kind, hstops, he, ?_⟩
      rw [Loading.foldl_taking]
      rfl
  · rintro ⟨taken, kind, hstops, he, rfl⟩
    simp only [loadDocument, hdocument, hsteps.2 ⟨taken, kind, hstops, he, rfl⟩, Loading.foldl_taking]
    rfl

end Engine

/-- **What a failed load leaves behind.** A document with statements fails to load exactly if there is a first
statement that is refused, because it is none or because it is a fact that is not made then. The error is the one
of that statement and its stack holds the place of the statement and nothing else; a load from a file names the
file besides. In the engine only working memory has changed: it is as the statements before have made it, which
leaves the live facts alone, up to the next id. So no rule of the document is there. -/
theorem failed_load_stops_at_statement (engine : Engine) (registry : Registry) {json : Json} {name : Option String}
    {items : List Json} (hdocument : Document.ofJson json = .ok ⟨name, some items⟩) :
    let loaded := engine.loadDocument registry json
    let stops := Document.StopsAfter registry engine.store items
    ((∃ e, loaded.1 = .error e) ↔ ∃ taken kind, stops taken kind) ∧
      ∀ taken kind, stops taken kind →
        let reached := taken.foldl Store.takeIn engine.store
        let after := { engine with workspace := { engine.workspace with store := reached.refusing kind } }
        let stack := ["statement " ++ toString taken.length]
        loaded = (.error ⟨kind, some { stack }⟩, after) ∧
          engine.store.Grows reached ∧
          ∀ path text, Json.read? Engine.nestingLimit text = some json →
            engine.loadFile registry path (.ok text) =
              (.error ⟨kind, some { source := some path, stack }⟩, after) := by
  intro loaded stops
  refine ⟨⟨?_, ?_⟩, fun taken kind hstops => ?_⟩
  · rintro ⟨e, he⟩
    have hloaded : loaded = (.error e, loaded.2) := Prod.ext he rfl
    obtain ⟨taken, kind, hstops, -⟩ := (Engine.loadDocument_eq_error_iff hdocument).1 hloaded
    exact ⟨taken, kind, hstops⟩
  · rintro ⟨taken, kind, hstops⟩
    have hloaded := (Engine.loadDocument_eq_error_iff hdocument).2 ⟨taken, kind, hstops, rfl, rfl⟩
    exact ⟨_, congrArg Prod.fst hloaded⟩
  · intro reached after stack
    have hloaded : engine.loadDocument registry json = (.error ⟨kind, some { stack }⟩, after) :=
      (Engine.loadDocument_eq_error_iff hdocument).2 ⟨taken, kind, hstops, rfl, rfl⟩
    refine ⟨hloaded, .foldl_takeIn taken engine.store, fun path text htext => ?_⟩
    simp only [Engine.loadFile, Engine.loadText, htext, hloaded]
    rfl

/-- A file that declares goals with a status, has a rule for them, and makes a goal with a status and one with a
color. -/
def coloredGoals : List Json := [
  .arr [.str "literalize", .str "goal", .str "status"],
  .arr [.str "p", .str "drop", .arr [.arr [.str "goal"]], .arr [.arr [.str "remove", .int 0]]],
  .arr [.str "make", .str "goal", .str "status", .str "active"],
  .arr [.str "make", .str "goal", .str "color", .str "red"]]

theorem stopsAfter_coloredGoals :
    Document.StopsAfter .builtins (Engine.new .sequential).store coloredGoals
      [.literalize (Template.withFields { type := "goal" } [("status", .nil)]),
        .rule ⟨"drop", [⟨"goal", []⟩], [⟨Builtin.remove.command, [.literal (.int 0)]⟩]⟩,
        .make "goal" [("status", .str "active")]] (.field "goal" "color") := by
  have hremove : Json.IsAction .builtins (.arr [.str "remove", .int 0])
      ⟨Builtin.remove.command, [.literal (.int 0)]⟩ := .mk rfl (.cons (.ofValue nofun (.int (by decide))) .nil)
  have hmake (field value : String) : Json.IsStatement .builtins
      (.arr [.str "make", .str "goal", .str field, .str value]) (.make "goal" [(field, .str value)]) :=
    .make (.cons (.str value) .nil)
  refine ⟨.cons (.literalize (.cons (.name "status") .nil)) (.cons (.rule (.cons (.mk .nil) .nil)
    (.cons hremove .nil)) (.cons (hmake "status" "active") .nil)),
    ⟨trivial, trivial, ⟨["status"], rfl, by decide⟩, trivial⟩, _, rfl, .inapplicable (hmake "color" "red") ?_⟩
  exact @Store.Refuses.unknownField _ _ _ ⟨"goal", [("status", .nil)]⟩ ("color", .str "red") rfl rfl

/-- The file fails at its last statement. The type is declared then and the first goal waits, and the rule is not
there. -/
theorem failed_load_stops_at_statement_coloredGoals :
    Document.ofJson (.obj [("ops", .arr coloredGoals)]) = .ok ⟨none, some coloredGoals⟩ ∧
      let loaded := (Engine.new .sequential).loadDocument .builtins (.obj [("ops", .arr coloredGoals)])
      loaded.1 = .error ⟨.field "goal" "color", some { stack := ["statement 3"] }⟩ ∧ loaded.2.rules = [] ∧
        loaded.2.store.template? "goal" = some ⟨"goal", [("status", .nil)]⟩ ∧ loaded.2.store.pending = [⟨0⟩] ∧
        loaded.2.store.fact? ⟨0⟩ = some { id := ⟨0⟩, type := "goal", fields := [("status", .str "active")] } := by
  have hdocument : Document.ofJson (.obj [("ops", .arr coloredGoals)]) = .ok ⟨none, some coloredGoals⟩ := rfl
  obtain ⟨-, hfails⟩ := failed_load_stops_at_statement (Engine.new .sequential) .builtins hdocument
  obtain ⟨hloaded, -, -⟩ := hfails _ _ stopsAfter_coloredGoals
  exact ⟨hdocument, congrArg Prod.fst hloaded, congrArg (fun loaded => loaded.2.rules) hloaded,
    congrArg (fun loaded => loaded.2.store.template? "goal") hloaded,
    congrArg (fun loaded => loaded.2.store.pending) hloaded,
    congrArg (fun loaded => loaded.2.store.fact? ⟨0⟩) hloaded⟩

end ProductionSystem
