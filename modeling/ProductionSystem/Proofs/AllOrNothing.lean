import ProductionSystem.Proofs.CommandChanges
import ProductionSystem.Proofs.FieldWrites

/-!
Making and modifying facts, wholly or not at all. A fact is made if its type is declared and has the given fields, and a
matched fact is modified if it has them; otherwise nothing happens, but that an id may be used up, and the error tells
the first thing that is wrong. The commands look at their arguments before they do anything, so the same holds of them,
whatever they are given.
-/

namespace ProductionSystem

/-- Is an outcome a success exactly if success was possible, and then as it should be, and else a failure for a reason
and with what is to be left of one? -/
structure AllOrNothing {ε ρ σ : Type} (outcome : Except ε ρ × σ) (possible : Prop) (whole : ρ → σ → Prop)
    (refused : ε → σ → Prop) : Prop where
  succeeds_iff : (∃ result, outcome.1 = .ok result) ↔ possible
  whole : ∀ result, outcome.1 = .ok result → whole result outcome.2
  refused : ∀ cause, outcome.1 = .error cause → refused cause outcome.2

namespace AllOrNothing

variable {ε ρ σ : Type} {possible : Prop} {whole : ρ → σ → Prop} {refused : ε → σ → Prop}

theorem done {result : ρ} {after : σ} (hpossible : possible) (hwhole : whole result after) :
    AllOrNothing (.ok result, after) possible whole refused where
  succeeds_iff := ⟨fun _ => hpossible, fun _ => ⟨result, rfl⟩⟩
  whole _ h := Except.ok.inj h ▸ hwhole
  refused _ h := nomatch h

theorem failed {cause : ε} {after : σ} (hpossible : ¬possible) (hrefused : refused cause after) :
    AllOrNothing (.error cause, after) possible whole refused where
  succeeds_iff := ⟨fun h => (nomatch h.choose_spec), fun h => (hpossible h).elim⟩
  whole _ h := nomatch h
  refused _ h := Except.error.inj h ▸ hrefused

/-- What succeeds and fails together with something that is all or nothing is so itself. -/
theorem transfer {ε' ρ' σ' : Type} {outcome : Except ε ρ × σ} {outcome' : Except ε' ρ' × σ'} {whole' : ρ' → σ' → Prop}
    {refused' : ε' → σ' → Prop} (h : AllOrNothing outcome possible whole refused)
    (hdone : ∀ result after, outcome = (.ok result, after) → whole result after →
      ∃ result' after', outcome' = (.ok result', after') ∧ whole' result' after')
    (hfailed : ∀ cause after, outcome = (.error cause, after) → refused cause after →
      ∃ cause' after', outcome' = (.error cause', after') ∧ refused' cause' after') :
    AllOrNothing outcome' possible whole' refused' := by
  obtain ⟨result | result, after⟩ := outcome
  · obtain ⟨cause', after', rfl, hrefused⟩ := hfailed result after rfl (h.refused result rfl)
    refine failed (fun hpossible => ?_) hrefused
    obtain ⟨_, hresult⟩ := h.succeeds_iff.2 hpossible
    cases hresult
  · obtain ⟨result', after', rfl, hwhole⟩ := hdone result after rfl (h.whole result rfl)
    exact done (h.succeeds_iff.1 ⟨result, rfl⟩) hwhole

end AllOrNothing

namespace Arguments

/-- Fields as arguments: names and values in turn. -/
def spelled (fields : List (String × Value)) : List Value := fields.flatMap fun field => [.str field.1, field.2]

/-- What is wrong with arguments that are to be fields. A name in the last place has no value; if there is none, the
first name that is no text is wrong. -/
inductive BadFields (command : String) : List Value → ArgumentProblem → Prop
  | withoutValue {args : List Value} {last : Value} (hodd : args.length % 2 = 1) (hlast : args.getLast? = some last) :
      BadFields command args (.fieldWithoutValue command last)
  | notName (fields : List (String × Value)) {name value : Value} {rest : List Value} (heven : rest.length % 2 = 0)
      (hname : ∀ text, name ≠ .str text) :
      BadFields command (spelled fields ++ name :: value :: rest) (.notName command name)

theorem spelled_cons (name : String) (value : Value) (fields : List (String × Value)) :
    spelled ((name, value) :: fields) = .str name :: value :: spelled fields := rfl

theorem length_spelled (fields : List (String × Value)) : (spelled fields).length % 2 = 0 := by
  induction fields with
  | nil => rfl
  | cons field fields ih =>
      rw [spelled_cons, List.length_cons, List.length_cons]
      omega

section Fields

variable {command : String} {args : List Value} {problem : ArgumentProblem}

theorem pairs_spelled_append (command : String) (fields : List (String × Value)) (rest : List Value) :
    pairs command (spelled fields ++ rest) = (pairs command rest).map (fields ++ ·) := by
  induction fields with
  | nil =>
      show pairs command rest = _
      cases pairs command rest <;> rfl
  | cons field fields ih =>
      obtain ⟨name, value⟩ := field
      rw [spelled_cons, List.cons_append, List.cons_append, pairs, Arguments.name, ih]
      cases pairs command rest <;> rfl

theorem fields_of_even (heven : args.length % 2 = 0) : fields command args = pairs command args := by
  unfold fields
  split
  · exact if_neg (by omega)
  · rename_i hnone
    rw [List.getLast?_eq_none_iff.1 hnone]
    rfl

theorem fields_spelled (command : String) (values : List (String × Value)) :
    fields command (spelled values) = .ok values := by
  rw [fields_of_even (length_spelled values), ← List.append_nil (spelled values), pairs_spelled_append]
  exact congrArg Except.ok (List.append_nil values)

theorem fields_of_bad (h : BadFields command args problem) : fields command args = .error problem := by
  cases h with
  | withoutValue hodd hlast =>
      rw [fields, hlast]
      exact if_pos hodd
  | @notName values name value rest heven hname =>
      have hlength : (spelled values ++ name :: value :: rest).length % 2 = 0 := by
        have := length_spelled values
        rw [List.length_append, List.length_cons, List.length_cons]
        omega
      have hwrong : Arguments.name command name = .error (.notName command name) := by
        cases name with
        | str text => exact (hname text rfl).elim
        | _ => rfl
      rw [fields_of_even hlength, pairs_spelled_append, pairs, hwrong]
      rfl

/-- Pairs are fields, up to the first whose name is no text. -/
theorem spelled_or_notName : (args : List Value) → args.length % 2 = 0 →
    (∃ values, args = spelled values) ∨
      ∃ values name value rest, args = spelled values ++ name :: value :: rest ∧ rest.length % 2 = 0 ∧
        ∀ text, name ≠ .str text
  | [], _ => .inl ⟨[], rfl⟩
  | name :: value :: rest, heven => by
      have hrest : rest.length % 2 = 0 := by
        rw [List.length_cons, List.length_cons] at heven
        omega
      by_cases hname : ∀ text, name ≠ .str text
      · exact .inr ⟨[], name, value, rest, rfl, hrest, hname⟩
      · obtain ⟨text, htext⟩ := not_forall_not.1 hname
        subst htext
        obtain ⟨values, rfl⟩ | ⟨values, later, value', rest', rfl, hlater⟩ := spelled_or_notName rest hrest
        · exact .inl ⟨(text, value) :: values, rfl⟩
        · exact .inr ⟨(text, value) :: values, later, value', rest', rfl, hlater⟩

theorem spelled_or_bad (command : String) (args : List Value) :
    (∃ values, args = spelled values) ∨ ∃ problem, BadFields command args problem := by
  obtain heven | hodd := Nat.mod_two_eq_zero_or_one args.length
  · obtain hspelled | ⟨values, name, value, rest, rfl, hrest, hname⟩ := spelled_or_notName args heven
    · exact .inl hspelled
    · exact .inr ⟨_, .notName values hrest hname⟩
  · have hne : args ≠ [] := fun h => by
      rw [h] at hodd
      cases hodd
    exact .inr ⟨_, .withoutValue hodd (List.getLast?_eq_some_getLast hne)⟩

end Fields

/-- Are arguments what a command takes first, in a spelling, and then fields? -/
def Spell {α : Type} (Heads : Value → α → Prop) (args : List Value) (head : α)
    (values : List (String × Value)) : Prop :=
  ∃ value, args = value :: spelled values ∧ Heads value head

/-- What is wrong with the arguments of a command that takes something first, and then fields. -/
inductive Misused {α : Type} (command what : String) (Heads : Value → α → Prop) (wrongHead : Value → ArgumentProblem) :
    List Value → ArgumentProblem → Prop
  | nothing : Misused command what Heads wrongHead [] (.missing command what)
  | head {value : Value} {rest : List Value} (h : ∀ head, ¬Heads value head) :
      Misused command what Heads wrongHead (value :: rest) (wrongHead value)
  | fields {value : Value} {head : α} {rest : List Value} {problem : ArgumentProblem} (hhead : Heads value head)
      (h : BadFields command rest problem) : Misused command what Heads wrongHead (value :: rest) problem

/-- Does a decoder accept what has a spelling, and nothing else? -/
structure Decodes {α : Type} (decode : Value → Except ArgumentProblem α) (Heads : Value → α → Prop)
    (wrongHead : Value → ArgumentProblem) : Prop where
  accepts {value : Value} {head : α} : Heads value head → decode value = .ok head
  rejects {value : Value} : (∀ head, ¬Heads value head) → decode value = .error (wrongHead value)

/-- A name is spelled as itself. -/
def IsName (value : Value) (name : String) : Prop := value = .str name

/-- An index is spelled as an integer. -/
def IsIndex (value : Value) (index : Nat) : Prop := ∃ n, value = .int n ∧ n.toInt = index

theorem decodes_name (command : String) : Decodes (name command) IsName (.notName command) where
  accepts h := by
    rw [IsName] at h
    rw [h, name]
  rejects {value} h := by
    cases value with
    | str text => exact (h text rfl).elim
    | _ => rfl

theorem decodes_index (command : String) : Decodes (index command) IsIndex (.notIndex command) where
  accepts h := by
    obtain ⟨n, rfl, hn⟩ := h
    rw [index, hn]
    exact if_pos (Int.natCast_nonneg _)
  rejects {value} h := by
    cases value with
    | int n => exact if_neg fun hn => h n.toInt.toNat ⟨n, rfl, (Int.toNat_of_nonneg hn).symm⟩
    | _ => rfl

section Spellings

variable {α : Type} {command what : String} {Heads : Value → α → Prop} {wrongHead : Value → ArgumentProblem}
  {decode : Value → Except ArgumentProblem α} {args : List Value} {head head' : α}
  {values values' : List (String × Value)}

theorem spell_or_misused (command what : String) (Heads : Value → α → Prop) (wrongHead : Value → ArgumentProblem)
    (args : List Value) :
    (∃ head values, Spell Heads args head values) ∨ ∃ problem, Misused command what Heads wrongHead args problem := by
  match args with
  | [] => exact .inr ⟨_, .nothing⟩
  | value :: rest =>
      by_cases hhead : ∃ head, Heads value head
      · obtain ⟨head, hhead⟩ := hhead
        obtain ⟨values, rfl⟩ | ⟨problem, hbad⟩ := spelled_or_bad command rest
        · exact .inl ⟨head, values, value, rfl, hhead⟩
        · exact .inr ⟨problem, .fields hhead hbad⟩
      · exact .inr ⟨_, .head (not_exists.1 hhead)⟩

theorem Spell.unique (hdecode : Decodes decode Heads wrongHead) (h : Spell Heads args head values)
    (h' : Spell Heads args head' values') : head = head' ∧ values = values' := by
  obtain ⟨value, rfl, hhead⟩ := h
  obtain ⟨value', hargs, hhead'⟩ := h'
  obtain ⟨rfl, hspelled⟩ := List.cons.inj hargs
  refine ⟨Except.ok.inj ((hdecode.accepts hhead).symm.trans (hdecode.accepts hhead')), ?_⟩
  have hvalues := fields_spelled "" values
  rw [hspelled, fields_spelled] at hvalues
  exact (Except.ok.inj hvalues).symm

theorem Spell.not_misused {problem : ArgumentProblem} (h : Spell Heads args head values) :
    ¬Misused command what Heads wrongHead args problem := by
  obtain ⟨value, rfl, hhead⟩ := h
  intro hmisused
  cases hmisused with
  | head hnone => exact hnone head hhead
  | fields _ hbad =>
      have hvalues := fields_of_bad hbad
      rw [fields_spelled] at hvalues
      cases hvalues

end Spellings

end Arguments

def ActionState.withStore (state : ActionState) (store : Store) : ActionState :=
  { state with workspace := state.workspace.withStore store }

namespace ActionM

/-- The body of a command that takes something first, and then fields. -/
def taking {α : Type} (command what : String) (decode : Value → Except ArgumentProblem α)
    (run : α → List (String × Value) → ActionM Unit) : List Value → ActionM Unit
  | [] => refuse (.missing command what)
  | value :: rest => decoded (decode value) >>= fun head =>
      decoded (Arguments.fields command rest) >>= fun values => run head values

theorem make_eq_taking :
    Builtin.make.body = taking "make" "a fact type" (Arguments.name "make")
      fun type overrides => discard (createFact type overrides) := by
  funext args
  cases args <;> rfl

theorem modify_eq_taking :
    Builtin.modify.body = taking "modify" "a condition index" (Arguments.index "modify") modifyMatched := by
  funext args
  cases args <;> rfl

section Taking

open Arguments

variable {α : Type} {command what : String} {Heads : Value → α → Prop} {wrongHead : Value → ArgumentProblem}
  {decode : Value → Except ArgumentProblem α} {run : α → List (String × Value) → ActionM Unit} {args : List Value}

theorem run_taking_of_spell (hdecode : Decodes decode Heads wrongHead) {head : α} {values : List (String × Value)}
    (h : Spell Heads args head values) (state : ActionState) :
    (taking command what decode run args).run state = (run head values).run state := by
  obtain ⟨value, rfl, hhead⟩ := h
  rw [taking, Builtin.run_decoded_bind, hdecode.accepts hhead]
  dsimp only
  rw [Builtin.run_decoded_bind, fields_spelled]

theorem run_taking_of_misused (hdecode : Decodes decode Heads wrongHead) {problem : ArgumentProblem}
    (h : Misused command what Heads wrongHead args problem) (state : ActionState) :
    (taking command what decode run args).run state = (.error (.failed (.arguments problem.message)), state) := by
  cases h with
  | nothing => rfl
  | head hnone => rw [taking, Builtin.run_decoded_bind, hdecode.rejects hnone]
  | fields hhead hbad =>
      rw [taking, Builtin.run_decoded_bind, hdecode.accepts hhead]
      dsimp only
      rw [Builtin.run_decoded_bind, fields_of_bad hbad]

end Taking

end ActionM

namespace AllOrNothing

open Arguments

/-- What a command does with decoded arguments, all or nothing, it does with any arguments, all or nothing. -/
theorem taking {α : Type} {command what : String} {Heads : Value → α → Prop} {wrongHead : Value → ArgumentProblem}
    {decode : Value → Except ArgumentProblem α} (hdecode : Decodes decode Heads wrongHead)
    {run : α → List (String × Value) → ActionM Unit} {possible : α → List (String × Value) → Prop}
    {whole : α → List (String × Value) → ActionState → Prop}
    {refused : α → List (String × Value) → Abort → ActionState → Prop} {state : ActionState}
    (h : ∀ head values, AllOrNothing ((run head values).run state) (possible head values)
      (fun _ => whole head values) (refused head values)) (args : List Value) :
    AllOrNothing ((ActionM.taking command what decode run args).run state)
      (∃ head values, Spell Heads args head values ∧ possible head values)
      (fun _ after => ∃ head values, Spell Heads args head values ∧ whole head values after)
      fun abort after =>
        (∃ problem, Misused command what Heads wrongHead args problem ∧
          abort = .failed (.arguments problem.message) ∧ after = state) ∨
        ∃ head values, Spell Heads args head values ∧ refused head values abort after := by
  obtain ⟨head, values, hspell⟩ | ⟨problem, hmisused⟩ := spell_or_misused command what Heads wrongHead args
  · rw [ActionM.run_taking_of_spell hdecode hspell]
    have hinner := h head values
    -- arguments say one thing only, so what is possible for a reading of them is possible for this one
    refine ⟨hinner.succeeds_iff.trans ⟨fun hpossible => ⟨head, values, hspell, hpossible⟩, ?_⟩,
      fun result hresult => ⟨head, values, hspell, hinner.whole result hresult⟩,
      fun cause hcause => .inr ⟨head, values, hspell, hinner.refused cause hcause⟩⟩
    rintro ⟨head', values', hspell', hpossible⟩
    obtain ⟨rfl, rfl⟩ := hspell.unique hdecode hspell'
    exact hpossible
  · rw [ActionM.run_taking_of_misused hdecode hmisused]
    refine failed ?_ (.inl ⟨problem, hmisused, rfl, rfl⟩)
    rintro ⟨head, values, hspell, -⟩
    exact hspell.not_misused hmisused

theorem discard {α : Type} {program : ActionM α} {possible : Prop} {whole : α → ActionState → Prop}
    {refused : Abort → ActionState → Prop} {state : ActionState}
    (h : AllOrNothing (program.run state) possible whole refused) :
    AllOrNothing ((Functor.discard program : ActionM PUnit).run state) possible
      (fun _ after => ∃ result, whole result after) refused := by
  rw [ActionM.run_discard]
  refine h.transfer (fun result after hrun hwhole => ?_) fun cause after hrun hrefused => ?_
  · exact ⟨(), after, by rw [hrun]; rfl, result, hwhole⟩
  · exact ⟨cause, after, by rw [hrun]; rfl, hrefused⟩

/-- What is all or nothing for memory is so for a command that does just that. -/
theorem onStore {α : Type} (f : Store → Except ErrorKind α × Store) {possible : Prop} {whole : α → Store → Prop}
    {refused : ErrorKind → Store → Prop} (state : ActionState)
    (h : AllOrNothing (f state.workspace.store) possible whole refused) :
    AllOrNothing ((ActionM.onStore f).run state) possible
      (fun result after => ∃ store, whole result store ∧ after = state.withStore store)
      fun abort after =>
        ∃ cause store, abort = .failed cause ∧ refused cause store ∧ after = state.withStore store := by
  rw [show state = ⟨state.firing, state.workspace⟩ from rfl, ActionM.run_onStore]
  refine h.transfer (fun result after hrun hwhole => ?_) fun cause after hrun hrefused => ?_
  · exact ⟨result, _, by rw [hrun]; rfl, after, hwhole, rfl⟩
  · exact ⟨.failed cause, _, by rw [hrun]; rfl, cause, after, rfl, hrefused, rfl⟩

end AllOrNothing

namespace Store

theorem find?_unknown_eq_none_iff {names : List String} {values : List (String × Value)} :
    (values.find? fun entry => entry.1 ∉ names) = none ↔ ∀ entry ∈ values, entry.1 ∈ names := by
  simp only [List.find?_eq_none, decide_eq_true_eq, not_not]

variable (store : Store)

/-- Can a fact be made? Its type is declared and has all the fields. -/
def CanMake (type : String) (overrides : List (String × Value)) : Prop :=
  ∃ template, store.template? type = some template ∧ ∀ entry ∈ overrides, entry.1 ∈ template.fieldNames

/-- The store with one more fact, the last one to become live. -/
def gaining (type : String) (fields : Fields) : Store :=
  { store with
    facts := store.facts.push { id := ⟨store.nextId⟩, type, fields }
    pending := store.pending ++ [⟨store.facts.size⟩]
    nextId := store.nextId + 1
    epoch := store.epoch + 1 }

theorem fact?_gaining (type : String) (fields : Fields) :
    (store.gaining type fields).fact? ⟨store.facts.size⟩ = some { id := ⟨store.nextId⟩, type, fields } :=
  Array.getElem?_push_size

/-- What a fact being made comes to: one of its type, with the defaults and the overrides, is the only thing new. -/
def Makes (type : String) (overrides : List (String × Value)) (ref : FactRef) (after : Store) : Prop :=
  ref = ⟨store.facts.size⟩ ∧ ∃ template, store.template? type = some template ∧
    after = store.gaining template.type (template.fieldsWith overrides)

theorem make_of_fields {store : Store} {type : String} {overrides : List (String × Value)} {template : Template}
    (htemplate : store.template? type = some template) (hfields : ∀ entry ∈ overrides, entry.1 ∈ template.fieldNames) :
    store.make type overrides =
      (.ok ⟨store.facts.size⟩, store.gaining template.type (template.fieldsWith overrides)) := by
  simp only [make, htemplate, takeId, Template.instantiate_eq, find?_unknown_eq_none_iff.2 hfields]
  rfl

theorem make_all_or_nothing (type : String) (overrides : List (String × Value)) :
    AllOrNothing (store.make type overrides) (store.CanMake type overrides) (store.Makes type overrides)
      fun kind after => store.Refuses type overrides kind ∧ after = store.refusing kind := by
  cases htemplate : store.template? type with
  | none =>
      have hrefuses : store.Refuses type overrides (.schema type) := .undeclared htemplate
      rw [make_of_refuses hrefuses]
      refine .failed ?_ ⟨hrefuses, rfl⟩
      rintro ⟨template, htype, -⟩
      rw [htemplate] at htype
      cases htype
  | some template =>
      cases hunknown : overrides.find? fun entry => entry.1 ∉ template.fieldNames with
      | some entry =>
          have hrefuses : store.Refuses type overrides (.field template.type entry.1) :=
            .unknownField htemplate hunknown
          rw [make_of_refuses hrefuses]
          refine .failed ?_ ⟨hrefuses, rfl⟩
          rintro ⟨template', htype, hfields⟩
          obtain rfl := Option.some.inj (htemplate.symm.trans htype)
          rw [find?_unknown_eq_none_iff.2 hfields] at hunknown
          cases hunknown
      | none =>
          have hfields : ∀ entry ∈ overrides, entry.1 ∈ template.fieldNames := find?_unknown_eq_none_iff.1 hunknown
          rw [make_of_fields htemplate hfields]
          exact .done ⟨template, htemplate, hfields⟩ ⟨rfl, template, htemplate, rfl⟩

/-- Can fields of a fact be overwritten? It has all of them. -/
def CanRevise (ref : FactRef) (values : List (String × Value)) : Prop :=
  ∀ fact, store.fact? ref = some fact → ∀ entry ∈ values, entry.1 ∈ Slots.names fact.fields

/-- The store with new values in fields of a fact: the last one for each name counts. -/
def revising (ref : FactRef) (values : List (String × Value)) : Store :=
  match store.fact? ref with
  | some fact => store.update ref { fact with fields := Slots.revised (Slots.last? · values) fact.fields }
  | none => store

/-- Of a fact, the fields that are named get their last value, and nothing else changes. -/
structure Revises (fact written : Fact) (values : List (String × Value)) : Prop where
  shape : written.shape = fact.shape
  retracted : written.retracted = fact.retracted
  field : ∀ name ∈ Slots.names fact.fields,
    Slots.get? name written.fields = (Slots.last? name values).or (Slots.get? name fact.fields)

theorem revises_revising {store : Store} {ref : FactRef} {fact : Fact} (hfact : store.fact? ref = some fact)
    (values : List (String × Value)) :
    ∃ written, (store.revising ref values).fact? ref = some written ∧ Revises fact written values := by
  rw [revising, hfact]
  refine ⟨_, fact?_update_self hfact _, ?_, rfl, fun name hname => Slots.get?_revised_of_mem hname⟩
  exact congrArg (Fact.Shape.mk fact.id fact.type) (Slots.names_revised _ _)

theorem fact?_revising_of_ne {ref other : FactRef} (h : other ≠ ref) (values : List (String × Value)) :
    (store.revising ref values).fact? other = store.fact? other := by
  unfold revising
  split
  · exact Array.getElem?_setIfInBounds_ne fun hindex => h (congrArg FactRef.mk hindex.symm)
  · rfl

/-- Why fields of a fact are not overwritten: the first name that is no field. -/
def Forbids (ref : FactRef) (values : List (String × Value)) (kind : ErrorKind) : Prop :=
  ∃ fact entry, store.fact? ref = some fact ∧
    (values.find? fun entry => entry.1 ∉ Slots.names fact.fields) = some entry ∧ kind = .field fact.type entry.1

theorem setMany_all_or_nothing (ref : FactRef) (values : List (String × Value)) :
    AllOrNothing (store.setMany ref values) (store.CanRevise ref values)
      (fun _ after => after = store.revising ref values)
      fun kind after => store.Forbids ref values kind ∧ after = store := by
  cases hfact : store.fact? ref with
  | none =>
      have hset : store.setMany ref values = (.ok (), store) := by simp only [setMany, hfact]
      rw [hset]
      refine .done (fun fact hknown => ?_) (by rw [revising, hfact])
      rw [hfact] at hknown
      cases hknown
  | some fact =>
      cases hunknown : values.find? fun entry => entry.1 ∉ Slots.names fact.fields with
      | some entry =>
          have hset : store.setMany ref values = (.error (.field fact.type entry.1), store) := by
            simp only [setMany, hfact, Fact.setMany_eq, hunknown]
          rw [hset]
          refine .failed (fun hfields => ?_) ⟨⟨fact, entry, hfact, hunknown, rfl⟩, rfl⟩
          rw [find?_unknown_eq_none_iff.2 (hfields fact hfact)] at hunknown
          cases hunknown
      | none =>
          have hset : store.setMany ref values = (.ok (), store.revising ref values) := by
            simp only [setMany, hfact, Fact.setMany_eq, hunknown, revising]
          rw [hset]
          refine .done (fun fact' hknown => ?_) rfl
          obtain rfl := Option.some.inj (hfact.symm.trans hknown)
          exact find?_unknown_eq_none_iff.1 hunknown

end Store

namespace ActionState

variable (state : ActionState)

/-- What a command that makes a fact comes to: only memory changes. -/
def Makes (type : String) (overrides : List (String × Value)) (after : ActionState) : Prop :=
  ∃ ref store, state.workspace.store.Makes type overrides ref store ∧ after = state.withStore store

theorem createFact_all_or_nothing (type : String) (overrides : List (String × Value)) :
    AllOrNothing ((discard (ActionM.createFact type overrides) : ActionM PUnit).run state)
      (state.workspace.store.CanMake type overrides) (fun _ => state.Makes type overrides)
      fun abort after => ∃ kind, abort = .failed kind ∧ state.workspace.store.Refuses type overrides kind ∧
        after = state.withStore (state.workspace.store.refusing kind) := by
  have hmake := AllOrNothing.onStore (fun store => store.make type overrides) state
    (state.workspace.store.make_all_or_nothing type overrides)
  refine hmake.discard.transfer ?_ ?_
  · rintro result after hrun ⟨ref, hmakes⟩
    exact ⟨result, after, hrun, ref, hmakes⟩
  · rintro cause after hrun ⟨kind, store, rfl, ⟨hrefuses, rfl⟩, rfl⟩
    exact ⟨_, _, hrun, kind, rfl, hrefuses, rfl⟩

/-- Can fields of a matched fact be overwritten? -/
def CanModify (index : Nat) (values : List (String × Value)) : Prop :=
  ∃ h : index < state.firing.facts.length, state.workspace.store.CanRevise state.firing.facts[index] values

/-- What overwriting fields of a matched fact comes to: nothing else changes. -/
def Modifies (index : Nat) (values : List (String × Value)) (after : ActionState) : Prop :=
  ∃ ref, state.firing.facts[index]? = some ref ∧
    after = state.withStore (state.workspace.store.revising ref values)

/-- Why fields of a matched fact are not overwritten. -/
inductive Denies (index : Nat) (values : List (String × Value)) : ErrorKind → Prop
  | unmatched (h : state.firing.facts.length ≤ index) : Denies index values (.index index state.firing.facts.length)
  | unknownField {ref : FactRef} {kind : ErrorKind} (href : state.firing.facts[index]? = some ref)
      (hforbids : state.workspace.store.Forbids ref values kind) : Denies index values kind

theorem modifyMatched_all_or_nothing (index : Nat) (values : List (String × Value)) :
    AllOrNothing ((ActionM.modifyMatched index values).run state) (state.CanModify index values)
      (fun _ => state.Modifies index values)
      fun abort after => ∃ kind, abort = .failed kind ∧ state.Denies index values kind ∧ after = state := by
  rw [ActionM.run_modifyMatched]
  cases href : state.firing.facts[index]? with
  | none =>
      have hout := List.getElem?_eq_none_iff.1 href
      exact .failed (fun h => Nat.not_lt_of_le hout h.choose) ⟨_, rfl, .unmatched hout, rfl⟩
  | some ref =>
      obtain ⟨hindex, hget⟩ := List.getElem?_eq_some_iff.1 href
      have hcan : state.CanModify index values ↔ state.workspace.store.CanRevise ref values :=
        ⟨fun h => hget ▸ h.choose_spec, fun h => ⟨hindex, hget ▸ h⟩⟩
      rw [hcan]
      have hset := AllOrNothing.onStore (fun store => store.setMany ref values) state
        (state.workspace.store.setMany_all_or_nothing ref values)
      refine hset.transfer ?_ ?_
      · rintro result after hrun ⟨store, rfl, rfl⟩
        exact ⟨result, _, hrun, ref, href, rfl⟩
      · rintro cause after hrun ⟨kind, store, rfl, ⟨hforbids, rfl⟩, rfl⟩
        exact ⟨_, _, hrun, kind, rfl, .unknownField href hforbids, rfl⟩

end ActionState

/-- **Making and modifying facts is all or nothing.** A fact is made exactly if its type is declared and has all the
fields; then it is the only thing that is new, at the end of the queue. Otherwise the error names the type, or else the
first field that is unknown, and memory is as it was, but for the next id. Fields of a matched fact are overwritten
exactly if there are that many matched facts and the fact has the fields; then the fields that are named have their
last value, and otherwise everything is as it was. The commands look at their arguments first, for something to begin
with, then for a value for each field, then for the names in order, and do nothing if there is something wrong with
them. -/
theorem making_and_modifying_is_all_or_nothing :
    (∀ (store : Store) (type : String) (overrides : List (String × Value)),
      AllOrNothing (store.make type overrides) (store.CanMake type overrides) (store.Makes type overrides)
        fun kind after => store.Refuses type overrides kind ∧ after = store.refusing kind) ∧
    (∀ (state : ActionState) (index : Nat) (values : List (String × Value)),
      AllOrNothing ((ActionM.modifyMatched index values).run state) (state.CanModify index values)
        (fun _ => state.Modifies index values)
        fun abort after => ∃ kind, abort = .failed kind ∧ state.Denies index values kind ∧ after = state) ∧
    (∀ (store : Store) (ref : FactRef) (values : List (String × Value)),
      (∀ fact, store.fact? ref = some fact →
        ∃ written, (store.revising ref values).fact? ref = some written ∧ Store.Revises fact written values) ∧
      ∀ other, other ≠ ref → (store.revising ref values).fact? other = store.fact? other) ∧
    (∀ (state : ActionState) (args : List Value),
      AllOrNothing ((Builtin.make.body args).run state)
        (∃ type overrides, Arguments.Spell Arguments.IsName args type overrides ∧
          state.workspace.store.CanMake type overrides)
        (fun _ after => ∃ type overrides, Arguments.Spell Arguments.IsName args type overrides ∧
          state.Makes type overrides after)
        fun abort after =>
          (∃ problem, Arguments.Misused "make" "a fact type" Arguments.IsName (.notName "make") args problem ∧
            abort = .failed (.arguments problem.message) ∧ after = state) ∨
          ∃ type overrides, Arguments.Spell Arguments.IsName args type overrides ∧
            ∃ kind, abort = .failed kind ∧ state.workspace.store.Refuses type overrides kind ∧
              after = state.withStore (state.workspace.store.refusing kind)) ∧
    ∀ (state : ActionState) (args : List Value),
      AllOrNothing ((Builtin.modify.body args).run state)
        (∃ index values, Arguments.Spell Arguments.IsIndex args index values ∧ state.CanModify index values)
        (fun _ after => ∃ index values, Arguments.Spell Arguments.IsIndex args index values ∧
          state.Modifies index values after)
        fun abort after =>
          (∃ problem,
            Arguments.Misused "modify" "a condition index" Arguments.IsIndex (.notIndex "modify") args problem ∧
            abort = .failed (.arguments problem.message) ∧ after = state) ∨
          ∃ index values, Arguments.Spell Arguments.IsIndex args index values ∧
            ∃ kind, abort = .failed kind ∧ state.Denies index values kind ∧ after = state := by
  refine ⟨Store.make_all_or_nothing, ActionState.modifyMatched_all_or_nothing, fun store ref values =>
    ⟨fun _ hfact => Store.revises_revising hfact values, fun _ hother => store.fact?_revising_of_ne hother values⟩,
    fun state args => ?_, fun state args => ?_⟩
  · rw [ActionM.make_eq_taking]
    exact .taking (Arguments.decodes_name "make") state.createFact_all_or_nothing args
  · rw [ActionM.modify_eq_taking]
    exact .taking (Arguments.decodes_index "modify") state.modifyMatched_all_or_nothing args

/-- Memory in which there is a part. -/
def partStore : Store := ((({} : Store).register ⟨"part", [("size", .int 1), ("color", .nil)]⟩).make "part" []).2

/-- Of a part the size may be given twice, but a weight may not be given; and a command that does so for a matched part
leaves it alone. -/
theorem making_and_modifying_is_all_or_nothing_part :
    let firing : Firing := { rule := "weigh", facts := [⟨0⟩], bindings := Dictionary.empty }
    let state : ActionState := ⟨firing, { store := partStore }⟩
    let weighing : List Value := [.int 0, .str "size", .int 2, .str "weight", .int 9]
    partStore.CanMake "part" [("size", .int 2), ("size", .int 3)] ∧
      ¬partStore.CanMake "part" [("size", .int 2), ("weight", .int 9)] ∧
      ((Builtin.modify.body weighing).run state).1 = .error (.failed (.field "part" "weight")) ∧
      ((Builtin.modify.body weighing).run state).2 = state := by
  intro firing state weighing
  obtain ⟨hmake, -, -, -, hmodify⟩ := making_and_modifying_is_all_or_nothing
  have herror : ((Builtin.modify.body weighing).run state).1 = .error (.failed (.field "part" "weight")) := rfl
  refine ⟨(hmake _ _ _).succeeds_iff.1 ⟨⟨1⟩, rfl⟩, fun h => ?_, herror, ?_⟩
  · obtain ⟨ref, hmade⟩ := (hmake _ _ _).succeeds_iff.2 h
    cases hmade
  · obtain ⟨_, _, _, hsame⟩ | ⟨_, _, _, _, _, _, hsame⟩ := (hmodify state weighing).refused _ herror
    · exact hsame
    · exact hsame

end ProductionSystem
