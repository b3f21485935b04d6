import Mathlib.Data.List.Forall2
import ProductionSystem.Load.Statement

/-!
The grammar of rule files. A judgment for each part of a file says which documents are such a part and what they
mean: there is no order of checks in it, and no error. A document is a statement without effect if it is an array
with fewer than two items or with a first item that is no keyword; an array with a keyword must have the form that
goes with it. The decoders agree with the judgments: what they answer is the meaning of a document, and they refuse
the documents that have none.
-/

namespace ProductionSystem

namespace Parsed

variable {α β : Type}

theorem bind_eq_ok_iff {x : Parsed α} {f : α → Parsed β} {b : β} :
    x >>= f = .ok b ↔ ∃ a, x = .ok a ∧ f a = .ok b := by
  cases x with
  | error problem => exact ⟨nofun, fun ⟨_, h, _⟩ => nomatch h⟩
  | ok a => exact ⟨fun h => ⟨a, rfl, h⟩, fun ⟨_, ha, h⟩ => Except.ok.inj ha ▸ h⟩

theorem map_eq_ok_iff {x : Parsed α} {f : α → β} {b : β} :
    x.map f = .ok b ↔ ∃ a, x = .ok a ∧ f a = b := by
  cases x with
  | error problem => exact ⟨nofun, fun ⟨_, h, _⟩ => nomatch h⟩
  | ok a => exact ⟨fun h => ⟨a, rfl, Except.ok.inj h⟩, fun ⟨_, ha, h⟩ => Except.ok.inj ha ▸ congrArg Except.ok h⟩

theorem pure_eq_ok_iff {a b : α} : (pure a : Parsed α) = .ok b ↔ a = b := Except.ok.injEq a b ▸ Iff.rfl

theorem mapM_eq_ok_iff {f : α → Parsed β} {items : List α} {results : List β} :
    items.mapM f = .ok results ↔ List.Forall₂ (fun item result => f item = .ok result) items results := by
  induction items generalizing results with
  | nil =>
      rw [List.mapM_nil, pure_eq_ok_iff, List.forall₂_nil_left_iff]
      exact eq_comm
  | cons item items ih =>
      rw [List.mapM_cons, bind_eq_ok_iff, List.forall₂_cons_left_iff]
      simp only [bind_eq_ok_iff, pure_eq_ok_iff, ih]
      constructor
      · rintro ⟨result, hresult, rest, hrest, rfl⟩
        exact ⟨result, rest, hresult, hrest, rfl⟩
      · rintro ⟨result, rest, hresult, hrest, rfl⟩
        exact ⟨result, hresult, rest, hrest, rfl⟩

/-- A fold over steps that read an item and take it in reads all items and takes them in. -/
theorem foldlM_eq_ok_iff {σ : Type} {step : σ → α → Parsed σ} {IsItem : α → β → Prop} {takeIn : σ → β → σ}
    (hstep : ∀ state item next, step state item = .ok next ↔ ∃ b, IsItem item b ∧ takeIn state b = next)
    {items : List α} {state last : σ} :
    items.foldlM step state = .ok last ↔
      ∃ results, List.Forall₂ IsItem items results ∧ results.foldl takeIn state = last := by
  induction items generalizing state with
  | nil =>
      rw [List.foldlM_nil, pure_eq_ok_iff]
      exact ⟨fun h => ⟨[], .nil, h⟩, fun ⟨results, hresults, h⟩ => by cases hresults; exact h⟩
  | cons item items ih =>
      simp only [List.foldlM_cons, bind_eq_ok_iff, hstep, ih, List.forall₂_cons_left_iff]
      constructor
      · rintro ⟨next, ⟨result, hresult, rfl⟩, results, hresults, hlast⟩
        exact ⟨result :: results, ⟨result, results, hresult, hresults, rfl⟩, hlast⟩
      · rintro ⟨_, ⟨result, results, hresult, hresults, rfl⟩, hlast⟩
        exact ⟨_, ⟨result, hresult, rfl⟩, results, hresults, hlast⟩

end Parsed

/-- Declares fields in turn. -/
def Template.withFields (template : Template) (fields : Fields) : Template :=
  fields.foldl (fun template field => template.withField field.1 field.2) template

namespace Json

mutual

/-- Does a document without objects stand for a value? -/
inductive IsValue : Json → Value → Prop
  | null : IsValue .null .nil
  | bool (b : Bool) : IsValue (.bool b) (.bool b)
  | int {n : Int} (h : n ≤ Int64.maxValue.toInt) : IsValue (.int n) (.int (Int64.ofInt n))
  | large {n : Int} (h : Int64.maxValue.toInt < n) : IsValue (.int n) (.float (Binary64.ofNat n.toNat))
  | float (bits : UInt64) : IsValue (.float bits) (.float bits)
  | str (text : String) : IsValue (.str text) (.str text)
  | arr {items : List Json} {values : List Value} (h : AreValues items values) :
      IsValue (.arr items) (.list values)

inductive AreValues : List Json → List Value → Prop
  | nil : AreValues [] []
  | cons {item : Json} {items : List Json} {value : Value} {values : List Value} (h : IsValue item value)
      (hrest : AreValues items values) : AreValues (item :: items) (value :: values)

end

/-- Are documents field names in turn with documents of a kind? -/
inductive AreFields {α : Type} (IsEntry : Json → α → Prop) : List Json → List (String × α) → Prop
  | nil : AreFields IsEntry [] []
  | cons {name : String} {item : Json} {a : α} {items : List Json} {fields : List (String × α)}
      (h : IsEntry item a) (hrest : AreFields IsEntry items fields) :
      AreFields IsEntry (.str name :: item :: items) ((name, a) :: fields)

/-- Does a document declare fields, each with its default? -/
inductive IsDeclaration : Json → Fields → Prop
  | name (field : String) : IsDeclaration (.str field) [(field, .nil)]
  | defaults {members : List (String × Json)} {fields : Fields}
      (h : List.Forall₂ (fun member field => member.1 = field.1 ∧ member.2.IsValue field.2) members fields) :
      IsDeclaration (.obj members) fields

/-- Does a document stand for a variable, or else for a value? -/
inductive IsTerm {α : Type} (named : String → α) (literal : Value → α) : Json → α → Prop
  | ofName {text : String} (h : isVariableName text = true) : IsTerm named literal (.str text) (named text)
  | ofValue {json : Json} {value : Value} (hname : ∀ text, json = .str text → isVariableName text = false)
      (h : json.IsValue value) : IsTerm named literal json (literal value)

inductive IsPattern : Json → Pattern → Prop
  | absent : IsPattern .null .absent
  | term {json : Json} {pattern : Pattern} (hnull : json ≠ .null) (h : json.IsTerm .variable .literal pattern) :
      IsPattern json pattern

def IsParam : Json → Param → Prop := IsTerm .variable .literal

inductive IsCondition : Json → Condition → Prop
  | mk {type : String} {items : List Json} {tests : List (String × Pattern)} (h : AreFields IsPattern items tests) :
      IsCondition (.arr (.str type :: items)) ⟨type, tests⟩

inductive IsAction (registry : Registry) : Json → Action → Prop
  | mk {name : String} {command : Command} {items : List Json} {params : List Param}
      (hcommand : registry.get? name = some command) (hparams : List.Forall₂ IsParam items params) :
      IsAction registry (.arr (.str name :: items))
        ⟨command, if name ∈ Statement.namingCommands then Statement.nameFirst params else params⟩

/-- The words that begin a statement with an effect. -/
def keywords : List String := ["literalize", "make", "p"]

inductive IsStatement (registry : Registry) : Json → Statement → Prop
  | literalize {type : String} {items : List Json} {fields : List Fields}
      (h : List.Forall₂ IsDeclaration items fields) :
      IsStatement registry (.arr (.str "literalize" :: .str type :: items))
        (.literalize (Template.withFields { type } fields.flatten))
  | make {type : String} {items : List Json} {values : List (String × Value)} (h : AreFields IsValue items values) :
      IsStatement registry (.arr (.str "make" :: .str type :: items)) (.make type values)
  | rule {name : String} {conditionItems actionItems rest : List Json} {conditions : List Condition}
      {actions : List Action} (hconditions : List.Forall₂ IsCondition conditionItems conditions)
      (hactions : List.Forall₂ (IsAction registry) actionItems actions) :
      IsStatement registry (.arr (.str "p" :: .str name :: .arr conditionItems :: .arr actionItems :: rest))
        (.rule { name, conditions, actions })
  | short {items : List Json} (h : items.length < 2) : IsStatement registry (.arr items) .skipped
  | unknown {items : List Json} (h : ∀ keyword ∈ keywords, items.head? ≠ some (.str keyword)) :
      IsStatement registry (.arr items) .skipped

end Json

namespace Statement

mutual

theorem value_eq_ok_iff {json : Json} {v : Value} : value json = .ok v ↔ json.IsValue v := by
  cases json with
  | null => exact ⟨fun h => Except.ok.inj h ▸ .null, fun h => by cases h; rfl⟩
  | bool b => exact ⟨fun h => Except.ok.inj h ▸ .bool b, fun h => by cases h; rfl⟩
  | int n =>
      rw [value]
      split
      · rename_i hn
        refine ⟨fun h => Except.ok.inj h ▸ .int hn, fun h => ?_⟩
        cases h with
        | int _ => rfl
        | large hlarge => exact absurd hn (Int.not_le.2 hlarge)
      · rename_i hn
        refine ⟨fun h => Except.ok.inj h ▸ .large (Int.not_le.1 hn), fun h => ?_⟩
        cases h with
        | int hsmall => exact absurd hsmall hn
        | large _ => rfl
  | float bits => exact ⟨fun h => Except.ok.inj h ▸ .float bits, fun h => by cases h; rfl⟩
  | str text => exact ⟨fun h => Except.ok.inj h ▸ .str text, fun h => by cases h; rfl⟩
  | arr items =>
      rw [value, Parsed.map_eq_ok_iff]
      constructor
      · rintro ⟨vs, hvs, rfl⟩
        exact .arr (values_eq_ok_iff.1 hvs)
      · intro h
        cases h with
        | arr hitems => exact ⟨_, values_eq_ok_iff.2 hitems, rfl⟩
  | obj members => exact ⟨nofun, fun h => nomatch h⟩

theorem values_eq_ok_iff {items : List Json} {vs : List Value} :
    values items = .ok vs ↔ Json.AreValues items vs := by
  cases items with
  | nil => exact ⟨fun h => Except.ok.inj h ▸ .nil, fun h => by cases h; rfl⟩
  | cons item items =>
      rw [values, Parsed.bind_eq_ok_iff]
      simp only [Parsed.bind_eq_ok_iff, Parsed.pure_eq_ok_iff]
      constructor
      · rintro ⟨v, hv, vs, hvs, rfl⟩
        exact .cons (value_eq_ok_iff.1 hv) (values_eq_ok_iff.1 hvs)
      · intro h
        cases h with
        | cons hitem hitems => exact ⟨_, value_eq_ok_iff.2 hitem, _, values_eq_ok_iff.2 hitems, rfl⟩

end

variable {json : Json} {items : List Json}

theorem string_eq_ok_iff {part : FilePart} {text : String} : string part json = .ok text ↔ json = .str text := by
  cases json with
  | str other => exact ⟨fun h => congrArg Json.str (Except.ok.inj h), fun h => congrArg Except.ok (Json.str.inj h)⟩
  | null | bool _ | int _ | float _ | arr _ | obj _ => exact ⟨nofun, nofun⟩

theorem array_eq_ok_iff {part : FilePart} : array part json = .ok items ↔ json = .arr items := by
  cases json with
  | arr other => exact ⟨fun h => congrArg Json.arr (Except.ok.inj h), fun h => congrArg Except.ok (Json.arr.inj h)⟩
  | null | bool _ | int _ | float _ | str _ | obj _ => exact ⟨nofun, nofun⟩

theorem fieldPairs_eq_ok_iff {pairs : List (String × Json)} :
    fieldPairs items = .ok pairs ↔ Json.AreFields (· = ·) items pairs := by
  induction items using Statement.pairs.induct generalizing pairs with
  | case1 name item rest ih =>
      have hlength : (name :: item :: rest).length % 2 = rest.length % 2 := Nat.add_mod_right rest.length 2
      have hrest {found : List (String × Json)} (heven : ¬rest.length % 2 = 1) :
          Statement.pairs rest = .ok found ↔ Json.AreFields (· = ·) rest found := by
        rw [← ih, fieldPairs, if_neg heven]
      rw [fieldPairs, hlength]
      split
      · rename_i hodd
        refine ⟨nofun, fun h => ?_⟩
        cases h with
        | cons _ hfields =>
            rw [← ih, fieldPairs, if_pos hodd] at hfields
            cases hfields
      · rename_i heven
        simp only [Statement.pairs, Parsed.bind_eq_ok_iff, Parsed.pure_eq_ok_iff, string_eq_ok_iff, hrest heven]
        constructor
        · rintro ⟨text, rfl, found, hfound, rfl⟩
          exact .cons rfl hfound
        · intro h
          cases h with
          | cons hitem hfields => exact ⟨_, rfl, _, hfields, hitem ▸ rfl⟩
  | case2 items hshort =>
      cases items with
      | nil => exact ⟨fun h => Except.ok.inj h ▸ .nil, fun h => by cases h; rfl⟩
      | cons name items =>
          cases items with
          | nil => exact ⟨nofun, nofun⟩
          | cons item rest => exact (hshort name item rest rfl).elim

theorem fields_eq_ok_iff {α : Type} {decode : Json → Parsed α} {IsEntry : Json → α → Prop}
    (hdecode : ∀ {json a}, decode json = .ok a ↔ IsEntry json a) {fields : List (String × α)} :
    (∃ pairs, fieldPairs items = .ok pairs ∧
        pairs.mapM (fun pair => (decode pair.2).map (pair.1, ·)) = .ok fields) ↔
      Json.AreFields IsEntry items fields := by
  simp only [fieldPairs_eq_ok_iff, Parsed.mapM_eq_ok_iff, Parsed.map_eq_ok_iff, hdecode]
  constructor
  · rintro ⟨pairs, hpairs, hentries⟩
    induction hpairs generalizing fields with
    | nil =>
        cases hentries
        exact .nil
    | cons hitem _ ih =>
        cases hentries with
        | cons hentry hentries =>
            obtain ⟨a, ha, rfl⟩ := hentry
            exact .cons (hitem ▸ ha) (ih hentries)
  · intro h
    induction h with
    | nil => exact ⟨[], .nil, .nil⟩
    | @cons name item a items fields hitem _ ih =>
        obtain ⟨pairs, hpairs, hentries⟩ := ih
        exact ⟨(name, item) :: pairs, .cons rfl hpairs, .cons ⟨a, hitem, rfl⟩ hentries⟩

theorem declare_eq_ok_iff {template declared : Template} :
    declare template json = .ok declared ↔
      ∃ fields, json.IsDeclaration fields ∧ template.withFields fields = declared := by
  cases json with
  | str field =>
      constructor
      · intro h
        exact ⟨_, .name field, Except.ok.inj h⟩
      · rintro ⟨_, ⟨⟩, rfl⟩
        rfl
  | obj members =>
      have hmember (template : Template) (member : String × Json) (next : Template) :
          (value member.2).map (template.withField member.1 ·) = .ok next ↔
            ∃ field : String × Value, (member.1 = field.1 ∧ member.2.IsValue field.2) ∧
              template.withField field.1 field.2 = next := by
        rw [Parsed.map_eq_ok_iff]
        constructor
        · rintro ⟨v, hv, rfl⟩
          exact ⟨(member.1, v), ⟨rfl, value_eq_ok_iff.1 hv⟩, rfl⟩
        · rintro ⟨field, ⟨hname, hv⟩, rfl⟩
          exact ⟨field.2, value_eq_ok_iff.2 hv, by rw [hname]⟩
      rw [declare, Parsed.foldlM_eq_ok_iff hmember]
      constructor
      · rintro ⟨fields, hfields, hdeclared⟩
        exact ⟨fields, .defaults hfields, hdeclared⟩
      · rintro ⟨fields, hfields, hdeclared⟩
        cases hfields with
        | defaults hfields => exact ⟨fields, hfields, hdeclared⟩
  | null | bool _ | int _ | float _ | arr _ => exact ⟨nofun, fun ⟨_, h, _⟩ => nomatch h⟩

theorem ofLiteralize_eq_ok_iff {template : Template} :
    ofLiteralize json items = .ok template ↔
      ∃ type fields, json = .str type ∧ List.Forall₂ Json.IsDeclaration items fields ∧
        Template.withFields { type } fields.flatten = template := by
  have hdeclare (template : Template) (item : Json) (next : Template) :
      declare template item = .ok next ↔ ∃ fields, item.IsDeclaration fields ∧ template.withFields fields = next :=
    declare_eq_ok_iff
  simp only [ofLiteralize, Parsed.bind_eq_ok_iff, string_eq_ok_iff, Parsed.foldlM_eq_ok_iff hdeclare]
  constructor
  · rintro ⟨type, htype, fields, hfields, rfl⟩
    exact ⟨type, fields, htype, hfields, List.foldl_flatten⟩
  · rintro ⟨type, fields, htype, hfields, rfl⟩
    exact ⟨type, htype, fields, hfields, List.foldl_flatten.symm⟩

theorem ofMake_eq_ok_iff {type : String} {values : List (String × Value)} :
    ofMake json items = .ok (type, values) ↔ json = .str type ∧ Json.AreFields Json.IsValue items values := by
  simp only [ofMake, Parsed.bind_eq_ok_iff, string_eq_ok_iff, Parsed.pure_eq_ok_iff, ← fields_eq_ok_iff value_eq_ok_iff]
  constructor
  · rintro ⟨_, hjson, pairs, hpairs, _, hvalues, ⟨⟩⟩
    exact ⟨hjson, pairs, hpairs, hvalues⟩
  · rintro ⟨hjson, pairs, hpairs, hvalues⟩
    exact ⟨type, hjson, pairs, hpairs, values, hvalues, rfl⟩

section Terms

variable {α : Type} {named : String → α} {literal : Value → α} {decode : Json → Parsed α} {a : α}

theorem term_eq_ok_iff_of_text {text : String}
    (hdecode : decode (.str text) = .ok (if isVariableName text then named text else literal (.str text))) :
    decode (.str text) = .ok a ↔ Json.IsTerm named literal (.str text) a := by
  rw [hdecode, Except.ok.injEq]
  cases hname : isVariableName text with
  | true =>
      rw [if_pos rfl]
      refine ⟨fun h => h ▸ .ofName hname, fun h => ?_⟩
      cases h with
      | ofName _ => rfl
      | ofValue hother _ =>
          rw [hother text rfl] at hname
          cases hname
  | false =>
      rw [if_neg Bool.false_ne_true]
      refine ⟨fun h => h ▸ .ofValue (fun _ h => Json.str.inj h ▸ hname) (.str text), fun h => ?_⟩
      cases h with
      | ofName hother =>
          rw [hother] at hname
          cases hname
      | ofValue _ hvalue =>
          cases hvalue
          rfl

theorem term_eq_ok_iff_of_other (htext : ∀ text, json ≠ .str text) (hdecode : decode json = (value json).map literal) :
    decode json = .ok a ↔ json.IsTerm named literal a := by
  rw [hdecode, Parsed.map_eq_ok_iff]
  constructor
  · rintro ⟨v, hv, rfl⟩
    exact .ofValue (fun text h => (htext text h).elim) (value_eq_ok_iff.1 hv)
  · intro h
    cases h with
    | ofName _ => exact (htext _ rfl).elim
    | ofValue _ hvalue => exact ⟨_, value_eq_ok_iff.2 hvalue, rfl⟩

end Terms

theorem param_eq_ok_iff {p : Param} : param json = .ok p ↔ json.IsParam p := by
  cases json with
  | str text => exact term_eq_ok_iff_of_text rfl
  | null | bool _ | int _ | float _ | arr _ | obj _ => exact term_eq_ok_iff_of_other nofun rfl

theorem pattern_eq_ok_iff {pat : Pattern} : pattern json = .ok pat ↔ json.IsPattern pat := by
  have hterm (hnull : json ≠ .null) (h : pattern json = .ok pat ↔ json.IsTerm .variable .literal pat) :
      pattern json = .ok pat ↔ json.IsPattern pat := by
    rw [h]
    refine ⟨.term hnull, fun hpattern => ?_⟩
    cases hpattern with
    | absent => exact (hnull rfl).elim
    | term _ hterm => exact hterm
  cases json with
  | null =>
      refine ⟨fun h => Except.ok.inj h ▸ .absent, fun h => ?_⟩
      cases h with
      | absent => rfl
      | term hnull _ => exact (hnull rfl).elim
  | str text => exact hterm nofun (term_eq_ok_iff_of_text rfl)
  | bool _ | int _ | float _ | arr _ | obj _ => exact hterm nofun (term_eq_ok_iff_of_other nofun rfl)

theorem condition_eq_ok_iff {rule : String} {c : Condition} : condition rule json = .ok c ↔ json.IsCondition c := by
  simp only [condition, Parsed.bind_eq_ok_iff, array_eq_ok_iff]
  constructor
  · rintro ⟨items, rfl, h⟩
    cases items with
    | nil => cases h
    | cons type items =>
        simp only [Parsed.bind_eq_ok_iff, string_eq_ok_iff, Parsed.pure_eq_ok_iff] at h
        obtain ⟨type, rfl, pairs, hpairs, tests, htests, rfl⟩ := h
        exact .mk ((fields_eq_ok_iff pattern_eq_ok_iff).1 ⟨pairs, hpairs, htests⟩)
  · rintro ⟨hfields⟩
    obtain ⟨pairs, hpairs, htests⟩ := (fields_eq_ok_iff pattern_eq_ok_iff).2 hfields
    refine ⟨_, rfl, ?_⟩
    simp only [Parsed.bind_eq_ok_iff, string_eq_ok_iff, Parsed.pure_eq_ok_iff]
    exact ⟨_, rfl, pairs, hpairs, _, htests, rfl⟩

theorem action_eq_ok_iff {registry : Registry} {rule : String} {a : Action} :
    action registry rule json = .ok a ↔ json.IsAction registry a := by
  simp only [action, Parsed.bind_eq_ok_iff, array_eq_ok_iff]
  constructor
  · rintro ⟨items, rfl, h⟩
    cases items with
    | nil => cases h
    | cons name items =>
        simp only [Parsed.bind_eq_ok_iff, string_eq_ok_iff] at h
        obtain ⟨name, rfl, h⟩ := h
        cases hcommand : registry.get? name with
        | none =>
            rw [hcommand] at h
            cases h
        | some command =>
            simp only [hcommand, Parsed.bind_eq_ok_iff, Parsed.pure_eq_ok_iff, Parsed.mapM_eq_ok_iff,
              param_eq_ok_iff] at h
            obtain ⟨params, hparams, rfl⟩ := h
            exact .mk hcommand hparams
  · rintro ⟨hcommand, hparams⟩
    refine ⟨_, rfl, ?_⟩
    simp only [Parsed.bind_eq_ok_iff, string_eq_ok_iff]
    refine ⟨_, rfl, ?_⟩
    simp only [hcommand, Parsed.bind_eq_ok_iff, Parsed.pure_eq_ok_iff, Parsed.mapM_eq_ok_iff, param_eq_ok_iff]
    exact ⟨_, hparams, rfl⟩

theorem ofRule_eq_ok_iff {registry : Registry} {rule : Rule} :
    ofRule registry json items = .ok rule ↔
      ∃ conditionItems actionItems rest, json = .str rule.name ∧
        items = .arr conditionItems :: .arr actionItems :: rest ∧
        List.Forall₂ Json.IsCondition conditionItems rule.conditions ∧
        List.Forall₂ (Json.IsAction registry) actionItems rule.actions := by
  simp only [ofRule, Parsed.bind_eq_ok_iff, string_eq_ok_iff]
  constructor
  · rintro ⟨name, rfl, h⟩
    match items with
    | [] | [_] => cases h
    | conditions :: actions :: rest =>
        simp only [Parsed.bind_eq_ok_iff, Parsed.pure_eq_ok_iff, Parsed.mapM_eq_ok_iff, array_eq_ok_iff,
          condition_eq_ok_iff, action_eq_ok_iff] at h
        obtain ⟨conditionItems, rfl, conditions, hconditions, actionItems, rfl, actions, hactions, rfl⟩ := h
        exact ⟨conditionItems, actionItems, rest, rfl, rfl, hconditions, hactions⟩
  · rintro ⟨conditionItems, actionItems, rest, hname, rfl, hconditions, hactions⟩
    refine ⟨rule.name, hname, ?_⟩
    simp only [Parsed.bind_eq_ok_iff, Parsed.pure_eq_ok_iff, Parsed.mapM_eq_ok_iff, array_eq_ok_iff,
      condition_eq_ok_iff, action_eq_ok_iff]
    exact ⟨_, rfl, _, hconditions, _, rfl, _, hactions, rfl⟩

/-- **The decoder agrees with the grammar.** -/
theorem ofJson_eq_ok_iff {registry : Registry} {statement : Statement} :
    ofJson registry json = .ok statement ↔ json.IsStatement registry statement := by
  constructor
  · intro h
    cases json with
    | arr items =>
        rw [ofJson] at h
        unfold ofItems at h
        split at h
        · obtain ⟨template, htemplate, rfl⟩ := Parsed.map_eq_ok_iff.1 h
          obtain ⟨type, fields, rfl, hfields, rfl⟩ := ofLiteralize_eq_ok_iff.1 htemplate
          exact .literalize hfields
        · obtain ⟨⟨type, values⟩, hvalues, rfl⟩ := Parsed.map_eq_ok_iff.1 h
          obtain ⟨rfl, hfields⟩ := ofMake_eq_ok_iff.1 hvalues
          exact .make hfields
        · obtain ⟨rule, hrule, rfl⟩ := Parsed.map_eq_ok_iff.1 h
          obtain ⟨_, _, _, rfl, rfl, hconditions, hactions⟩ := ofRule_eq_ok_iff.1 hrule
          exact .rule hconditions hactions
        · rename_i hliteralize hmake hp
          obtain rfl := Except.ok.inj h
          match items with
          | [] => exact .short (Nat.succ_pos 1)
          | [_] => exact .short (Nat.lt_succ_self 1)
          | first :: second :: rest =>
              refine .unknown fun keyword hkeyword hfirst => ?_
              obtain rfl := Option.some.inj hfirst
              simp only [Json.keywords, List.mem_cons, List.not_mem_nil, or_false] at hkeyword
              rcases hkeyword with rfl | rfl | rfl
              · exact hliteralize second rest rfl
              · exact hmake second rest rfl
              · exact hp second rest rfl
    | null | bool _ | int _ | float _ | str _ | obj _ => cases h
  · intro h
    cases h with
    | literalize hfields =>
        exact Parsed.map_eq_ok_iff.2 ⟨_, ofLiteralize_eq_ok_iff.2 ⟨_, _, rfl, hfields, rfl⟩, rfl⟩
    | make hfields => exact Parsed.map_eq_ok_iff.2 ⟨_, ofMake_eq_ok_iff.2 ⟨rfl, hfields⟩, rfl⟩
    | @rule name _ _ _ conditions actions hconditions hactions =>
        refine Parsed.map_eq_ok_iff.2 ⟨{ name, conditions, actions }, ?_, rfl⟩
        exact ofRule_eq_ok_iff.2 ⟨_, _, _, rfl, rfl, hconditions, hactions⟩
    | @short items hshort =>
        match items with
        | [] => rfl
        | [_] => simp [ofJson, ofItems]
        | _ :: _ :: _ => exact absurd hshort (Nat.not_lt.2 (Nat.le_add_left 2 _))
    | @unknown items hunknown =>
        rw [ofJson]
        unfold ofItems
        split
        · exact (hunknown "literalize" (by decide) rfl).elim
        · exact (hunknown "make" (by decide) rfl).elim
        · exact (hunknown "p" (by decide) rfl).elim
        · rfl

end Statement

end ProductionSystem
