import ProductionSystem.Proofs.FlatMemory

/-!
The store refines the flat memory. The relation between the two is kept by every operation, and related
memories give the same answers; so a program cannot tell them apart, whatever it does in whatever order.
-/

namespace ProductionSystem

/-- Does a store show what a flat memory holds? -/
structure Represents (store : Store) (memory : FlatMemory) : Prop where
  facts : store.facts = memory.instances
  templates : ∀ type, store.template? type = memory.templates type
  pending : store.pending = memory.queue
  live : ∀ type, store.get type = memory.get type
  size : store.size = memory.live.length
  nextId : store.nextId = .ofNat memory.issued
  epoch : store.epoch = memory.epoch
  known : ∀ ref ∈ memory.queue ++ memory.live, (memory.fact? ref).isSome = true

namespace FlatMemory

theorem type_eq_of_isTwin {memory : FlatMemory} {fact : Fact} {type : String} {ref : FactRef}
    (htwin : memory.isTwin fact ref = true) (htype : memory.hasType type ref = true) :
    type = fact.type := by
  unfold isTwin at htwin
  unfold hasType at htype
  cases hfact : memory.fact? ref with
  | none =>
      rw [hfact] at htype
      cases htype
  | some other =>
      rw [hfact] at htwin htype
      simp only [Option.any_some, Bool.and_eq_true, decide_eq_true_eq] at htwin htype
      exact htype.symm.trans htwin.1

end FlatMemory

/-- Deleting an element leaves alone those that it is not one of. -/
theorem filter_eraseP_of_disjoint {α : Type} {p q : α → Bool} (h : ∀ a, q a = true → p a = false)
    (l : List α) : (l.eraseP q).filter p = l.filter p := by
  rcases List.exists_or_eq_self_of_eraseP q l with heq | ⟨a, before, after, -, hqa, rfl, heq⟩
  · rw [heq]
  · rw [heq, List.filter_append, List.filter_append, List.filter_cons, if_neg (by simp [h a hqa])]

namespace Represents

variable {store : Store} {memory : FlatMemory}

theorem fact?_eq (h : Represents store memory) (ref : FactRef) : store.fact? ref = memory.fact? ref := by
  rw [Store.fact?, h.facts, FlatMemory.fact?]

theorem hasType_eq (h : Represents store memory) (type : String) :
    store.hasType type = memory.hasType type := by
  funext ref
  rw [Store.hasType, h.fact?_eq, FlatMemory.hasType]
  cases memory.fact? ref <;> rfl

theorem isTwin_eq (h : Represents store memory) (fact : Fact) (ref : FactRef) :
    (store.hasId fact.id ref && memory.hasType fact.type ref) = memory.isTwin fact ref := by
  rw [Store.hasId, h.fact?_eq, FlatMemory.hasType, FlatMemory.isTwin]
  cases memory.fact? ref with
  | none => rfl
  | some other => exact Bool.and_comm _ _

/-- A fact is live in the one list exactly if it is live in the list of its type. -/
theorem any_isTwin (h : Represents store memory) (fact : Fact) :
    (store.get fact.type).any (store.hasId fact.id) = memory.live.any (memory.isTwin fact) := by
  rw [h.live, FlatMemory.get, List.any_filter]
  refine congrArg memory.live.any (funext fun ref => ?_)
  rw [Bool.and_comm, h.isTwin_eq]

theorem empty : Represents {} {} where
  facts := rfl
  templates := fun _ => rfl
  pending := rfl
  live := fun _ => rfl
  size := rfl
  nextId := rfl
  epoch := rfl
  known := by simp

theorem withFacts (h : Represents store memory) {facts : Array Fact}
    (hkept : KeepsIdentity memory.instances facts) :
    Represents { store with facts } { memory with instances := facts } where
  facts := rfl
  templates := h.templates
  pending := h.pending
  live := fun type => (h.live type).trans (FlatMemory.filter_hasType_of_keepsIdentity hkept
    (fun ref href => h.known ref (List.mem_append_right _ href)) type).symm
  size := h.size
  nextId := h.nextId
  epoch := h.epoch
  known := fun ref href => FlatMemory.isSome_fact?_of_keepsIdentity hkept (h.known ref href)

theorem update (h : Represents store memory) {ref : FactRef} {fact changed : Fact}
    (hfact : memory.fact? ref = some fact) (hid : changed.id = fact.id) (htype : changed.type = fact.type) :
    Represents (store.update ref changed) (memory.update ref changed) := by
  have hkept : KeepsIdentity memory.instances (memory.instances.setIfInBounds ref.index changed) :=
    .setIfInBounds hfact hid htype
  rw [Store.update, h.facts]
  exact h.withFacts hkept

theorem register (h : Represents store memory) (template : Template) :
    Represents (store.register template) (memory.register template) :=
  { h with
    templates := fun type => by
      simp only [Store.template?, Store.register, Dictionary.get?_insert, FlatMemory.register]
      split
      · rfl
      · exact h.templates type }

theorem enter (h : Represents store memory) (fact : Fact) :
    (store.enter fact).1 = (memory.enter fact).1 ∧
      Represents (store.enter fact).2 (memory.enter fact).2 := by
  simp only [Store.enter, FlatMemory.enter, h.facts, true_and]
  exact h.withFacts (.push memory.instances fact)

theorem enqueue (h : Represents store memory) {ref : FactRef} (hknown : (memory.fact? ref).isSome = true) :
    Represents (store.enqueue ref) (memory.enqueue ref) :=
  { h with
    pending := by rw [Store.enqueue, FlatMemory.enqueue, h.pending]
    epoch := by
      rw [Store.enqueue, h.epoch, FlatMemory.epoch, FlatMemory.epoch, FlatMemory.enqueue, UInt64.ofNat_add]
      rfl
    known := fun other hother => by
      simp only [FlatMemory.enqueue, List.mem_append, List.mem_singleton] at hother
      rcases hother with (hqueue | rfl) | hlive
      · exact h.known other (List.mem_append_left _ hqueue)
      · exact hknown
      · exact h.known other (List.mem_append_right _ hlive) }

theorem wake (h : Represents store memory) : Represents store.wake memory.wake :=
  { h with
    epoch := by
      rw [Store.wake, h.epoch, FlatMemory.epoch, FlatMemory.epoch, FlatMemory.wake, UInt64.ofNat_add]
      rfl }

theorem make (h : Represents store memory) (type : String) (overrides : List (String × Value)) :
    (store.make type overrides).1 = (memory.make type overrides).1 ∧
      Represents (store.make type overrides).2 (memory.make type overrides).2 := by
  simp only [Store.make, FlatMemory.make, Store.takeId, h.templates type, h.nextId]
  cases memory.templates type with
  | none => exact ⟨rfl, h⟩
  | some template =>
      have hissued : Represents { store with nextId := .ofNat memory.issued + 1 }
          { memory with issued := memory.issued + 1 } :=
        { h with nextId := by rw [UInt64.ofNat_add]; rfl }
      dsimp only
      cases template.instantiate ⟨.ofNat memory.issued⟩ overrides with
      | error e => exact ⟨rfl, hissued⟩
      | ok fact =>
          obtain ⟨href, hentered⟩ := hissued.enter fact
          refine ⟨congrArg Except.ok href, ?_⟩
          dsimp only
          rw [href]
          refine hentered.enqueue ?_
          simp [FlatMemory.enter, FlatMemory.fact?]

theorem hasPending_eq (h : Represents store memory) : store.hasPending = memory.drain.1 := by
  rw [Store.hasPending, h.pending, FlatMemory.drain]

theorem drain (h : Represents store memory) : Represents store.drain memory.drain.2 :=
  { h with
    pending := rfl
    live := fun type => by
      have hbefore : store.live.of type = memory.live.filter (memory.hasType type) := h.live type
      rw [Store.get, Store.drain, Store.of_foldl_enliven, hbefore, h.pending, h.hasType_eq,
        ← List.filter_append]
      rfl
    size := by
      have hbefore : store.live.count = memory.live.length := h.size
      have hqueue : ∀ ref ∈ memory.queue, (store.fact? ref).isSome = true := fun ref href => by
        rw [h.fact?_eq]
        exact h.known ref (List.mem_append_left _ href)
      rw [Store.size, Store.drain, h.pending, Store.count_foldl_enliven store store.live hqueue, hbefore,
        FlatMemory.drain, List.length_append]
    known := fun ref href => by
      refine h.known ref (List.mem_append.2 (Or.symm ?_))
      simpa only [FlatMemory.drain, List.nil_append, List.mem_append] using href }

/-- Deleting the first twin from the one list deletes the first fact of its id from the list of its type,
and nothing from the other lists. -/
theorem erase (h : Represents store memory) {fact : Fact}
    (hlive : (store.get fact.type).any (store.hasId fact.id) = true) :
    Represents
      { store with
        live := store.live.insert fact.type ((store.get fact.type).eraseP (store.hasId fact.id)) }
      { memory with live := memory.live.eraseP (memory.isTwin fact) } :=
  { h with
    live := fun type => by
      simp only [Store.get, LiveIndex.of_insert, FlatMemory.get]
      split
      · rename_i htype
        have hlist : store.live.of fact.type = memory.live.filter (memory.hasType fact.type) := h.live fact.type
        rw [hlist, htype, List.eraseP_filter, (funext (h.isTwin_eq fact) : _ = memory.isTwin fact)]
        rfl
      · rename_i htype
        refine (h.live type).trans (filter_eraseP_of_disjoint (fun ref href => ?_) memory.live).symm
        exact Bool.eq_false_iff.2 fun hother => htype (memory.type_eq_of_isTwin href hother)
    size := by
      have hcount := store.live.count_insert fact.type ((store.get fact.type).eraseP (store.hasId fact.id))
      have hsize : store.live.count = memory.live.length := h.size
      have hpeers : (store.live.of fact.type).length = (store.get fact.type).length := rfl
      have htwin : memory.live.any (memory.isTwin fact) = true := (h.any_isTwin fact).symm.trans hlive
      obtain ⟨peer, hpeer, -⟩ := List.any_eq_true.1 hlive
      obtain ⟨twin, hmem, -⟩ := List.any_eq_true.1 htwin
      have := List.length_pos_of_mem hpeer
      have := List.length_pos_of_mem hmem
      rw [List.length_eraseP, if_pos hlive] at hcount
      simp only [Store.size, List.length_eraseP, if_pos htwin]
      omega
    known := fun ref href => by
      refine h.known ref ?_
      rcases List.mem_append.1 href with hqueue | hrest
      · exact List.mem_append_left _ hqueue
      · exact List.mem_append_right _ (List.mem_of_mem_eraseP hrest) }

theorem remove (h : Represents store memory) (ref : FactRef) :
    (store.remove ref).1 = (memory.remove ref).1 ∧
      Represents (store.remove ref).2 (memory.remove ref).2 := by
  simp only [Store.remove, FlatMemory.remove, h.fact?_eq]
  cases hfact : memory.fact? ref with
  | none => exact ⟨rfl, h⟩
  | some fact =>
      dsimp only
      rw [← h.any_isTwin fact]
      split
      · rename_i hlive
        exact ⟨rfl, (h.erase hlive).update hfact rfl rfl⟩
      · exact ⟨rfl, h⟩

/-- A write to a fact that keeps its id and its type is shown, and refused alike. -/
theorem writeTo (h : Represents store memory) (ref : FactRef) (write : Fact → Except ErrorKind Fact)
    (hwrite : ∀ fact changed, write fact = .ok changed →
      changed.id = fact.id ∧ changed.type = fact.type) :
    (store.writeTo ref write).1 = (memory.writeTo ref write).1 ∧
      Represents (store.writeTo ref write).2 (memory.writeTo ref write).2 := by
  simp only [Store.writeTo, FlatMemory.writeTo, h.fact?_eq]
  cases hfact : memory.fact? ref with
  | none => exact ⟨rfl, h⟩
  | some fact =>
      dsimp only
      cases hchanged : write fact with
      | error e => exact ⟨rfl, h⟩
      | ok changed =>
          obtain ⟨hid, htype⟩ := hwrite fact changed hchanged
          exact ⟨rfl, h.update hfact hid htype⟩

theorem reset (h : Represents store memory) : Represents store.reset memory.reset :=
  { h with
    templates := fun _ => rfl
    pending := rfl
    live := fun _ => rfl
    size := rfl
    known := by simp [FlatMemory.reset] }

theorem quietSince_eq (h : Represents store memory) (seen : UInt64) :
    store.quietSince seen = memory.quietSince seen := by
  rw [Store.quietSince, FlatMemory.quietSince, h.pending, h.epoch]

theorem receive {workspace : Workspace} (h : Represents workspace.store memory) (signal : Signal) :
    Represents (workspace.receive signal).store (memory.receive signal) := by
  cases signal with
  | make type overrides => exact (h.make type overrides).2
  | wake => exact h.wake
  | halt => exact h.wake

theorem await {workspace : Workspace} (h : Represents workspace.store memory) (seen : UInt64)
    (deadline : Option Nat) (arrivals : List Arrival) :
    (workspace.await seen deadline arrivals).signal?.isSome = (memory.await seen deadline arrivals).1 ∧
      Represents (workspace.await seen deadline arrivals).workspace.store
        (memory.await seen deadline arrivals).2 := by
  induction arrivals generalizing workspace memory with
  | nil => exact ⟨rfl, h⟩
  | cons arrival later ih =>
      have hreceived := h.receive arrival.signal
      simp only [Workspace.await, FlatMemory.await, hreceived.quietSince_eq]
      split
      · split
        · exact ih hreceived
        · exact ⟨rfl, hreceived⟩
      · exact ⟨rfl, h⟩

theorem drainSince (h : Represents store memory) (seen : UInt64) (timeout : Option Nat)
    (arrivals : List Arrival) :
    (store.drainSince seen timeout arrivals).1 = (memory.drainSince seen timeout arrivals).1 ∧
      Represents (store.drainSince seen timeout arrivals).2 (memory.drainSince seen timeout arrivals).2 := by
  have hstart : Represents ({ store } : Workspace).store memory := h
  obtain ⟨hsignal, hwaited⟩ := hstart.await seen timeout arrivals
  simp only [Store.drainSince_eq, FlatMemory.drainSince, h.quietSince_eq, hsignal]
  split
  · split
    · exact ⟨congrArg Answer.flag hwaited.hasPending_eq, hwaited.drain⟩
    · exact ⟨rfl, hwaited⟩
  · exact ⟨congrArg Answer.flag h.hasPending_eq, h.drain⟩

end Represents

/-- Does a snapshot show a list of live facts? -/
structure Shows (memory : FlatMemory) (snapshot : Snapshot) (frozen : List FactRef) : Prop where
  live : ∀ type, snapshot.get type = frozen.filter (memory.hasType type)
  size : snapshot.size = frozen.length
  known : ∀ ref ∈ frozen, (memory.fact? ref).isSome = true

theorem Shows.later {memory changed : FlatMemory} {snapshot : Snapshot} {frozen : List FactRef}
    (h : Shows memory snapshot frozen) (hlater : memory.Later changed) : Shows changed snapshot frozen where
  live := fun type =>
    (h.live type).trans (FlatMemory.filter_hasType_of_keepsIdentity hlater.instances h.known type).symm
  size := h.size
  known := fun ref href => FlatMemory.isSome_fact?_of_keepsIdentity hlater.instances (h.known ref href)

/-- Does a session show a flat memory, with the snapshots taken of it? -/
structure SessionRepresents (session : Session) (memory : FlatMemory) : Prop where
  store : Represents session.store memory
  snapshots : List.Forall₂ (Shows memory) session.snapshots memory.snapshots

namespace SessionRepresents

variable {session : Session} {memory : FlatMemory}

theorem withStore (h : SessionRepresents session memory) {store : Store} {changed : FlatMemory}
    (hstore : Represents store changed) (hlater : memory.Later changed) :
    SessionRepresents (session.withStore store) changed where
  store := hstore
  snapshots := by
    rw [hlater.snapshots]
    exact h.snapshots.imp fun _ _ hshows => hshows.later hlater

theorem snapshot (h : SessionRepresents session memory) :
    SessionRepresents { session with snapshots := session.snapshots ++ [session.store.snapshot] }
      { memory with snapshots := memory.snapshots ++ [memory.live] } where
  store := { h.store with }
  snapshots := by
    refine List.rel_append (h.snapshots.imp fun _ _ hshows => { hshows with }) (.cons ?_ .nil)
    exact ⟨h.store.live, h.store.size, fun ref href => h.store.known ref (List.mem_append_right _ href)⟩

/-- One operation: the same answer, and memories related as before. -/
theorem step (h : SessionRepresents session memory) (operation : Operation) :
    (session.step operation).1 = (memory.step operation).1 ∧
      SessionRepresents (session.step operation).2 (memory.step operation).2 := by
  have hknown : operation.subject?.all (fun ref => (session.store.fact? ref).isSome) =
      operation.subject?.all fun ref => (memory.fact? ref).isSome := by
    simp only [h.store.fact?_eq]
  simp only [Session.step, FlatMemory.step, hknown]
  split
  · rename_i hsubject
    by_cases hsnapshot : operation = .snapshot
    · subst hsnapshot
      exact ⟨rfl, h.snapshot⟩
    have hlater := FlatMemory.Later.perform memory hsnapshot
    cases operation with
    | register template => exact ⟨rfl, h.withStore (h.store.register template) hlater⟩
    | make type overrides =>
        obtain ⟨hanswer, hstore⟩ := h.store.make type overrides
        exact ⟨congrArg Answer.made hanswer, h.withStore hstore hlater⟩
    | create id type fields =>
        obtain ⟨hanswer, hstore⟩ := h.store.enter { id, type, fields }
        exact ⟨congrArg Answer.created hanswer, h.withStore hstore hlater⟩
    | enqueue ref => exact ⟨rfl, h.withStore (h.store.enqueue hsubject) hlater⟩
    | wake => exact ⟨rfl, h.withStore h.store.wake hlater⟩
    | drain => exact ⟨congrArg Answer.flag h.store.hasPending_eq, h.withStore h.store.drain hlater⟩
    | drainSince seen timeout arrivals =>
        obtain ⟨hanswer, hstore⟩ := h.store.drainSince seen timeout arrivals
        exact ⟨hanswer, h.withStore hstore hlater⟩
    | drainBlocking timeout arrivals =>
        obtain ⟨hanswer, hstore⟩ := h.store.drainSince memory.epoch timeout arrivals
        simp only [Session.perform, FlatMemory.perform, h.store.epoch]
        exact ⟨hanswer, h.withStore hstore hlater⟩
    | remove ref =>
        obtain ⟨hanswer, hstore⟩ := h.store.remove ref
        exact ⟨congrArg Answer.flag hanswer, h.withStore hstore hlater⟩
    | set ref field value =>
        obtain ⟨hanswer, hstore⟩ := h.store.writeTo ref (fun fact => fact.set field value)
          fun _ _ => Fact.identity_of_set
        exact ⟨congrArg Answer.written hanswer, h.withStore hstore hlater⟩
    | setMany ref values =>
        obtain ⟨hanswer, hstore⟩ := h.store.writeTo ref (fun fact => fact.setMany values)
          fun _ _ => Fact.identity_of_setMany
        exact ⟨congrArg Answer.written hanswer, h.withStore hstore hlater⟩
    | snapshot => exact absurd rfl hsnapshot
    | reset => exact ⟨rfl, h.withStore h.store.reset hlater⟩
  · exact ⟨rfl, h⟩

/-- A history: the same answers, and memories related as before. -/
theorem run (h : SessionRepresents session memory) (operations : List Operation) :
    (session.run operations).1 = (memory.run operations).1 ∧
      SessionRepresents (session.run operations).2 (memory.run operations).2 := by
  induction operations generalizing session memory with
  | nil => exact ⟨rfl, h⟩
  | cons operation operations ih =>
      obtain ⟨hanswer, hstep⟩ := h.step operation
      obtain ⟨hanswers, hrun⟩ := ih hstep
      exact ⟨congrArg₂ List.cons hanswer hanswers, hrun⟩

theorem empty : SessionRepresents {} {} := ⟨.empty, .nil⟩

end SessionRepresents

/-- Whatever is done with a new store, its templates are known under their own types. -/
theorem Session.type_of_template? (operations : List Operation) {type : String} {template : Template}
    (h : (({} : Session).run operations).2.store.template? type = some template) : template.type = type := by
  rw [(SessionRepresents.empty.run operations).2.store.templates] at h
  have hempty : ({} : FlatMemory).Filed := nofun
  exact hempty.run operations type template h

/-- **A store cannot be told from a flat memory.** Whatever is done to a new store, the answers are those of
a flat memory with one queue and one list of live facts, and afterwards it shows the same: the live facts of
a type, now and in each snapshot taken, are the one list filtered by the type; the numbers of live and
pending facts are lengths of the list and the queue; the epoch counts the signals. -/
theorem session_refines_flatMemory (operations : List Operation) :
    let (answers, session) := ({} : Session).run operations
    let (expected, memory) := ({} : FlatMemory).run operations
    answers = expected ∧
      (∀ type, session.store.get type = memory.live.filter (memory.hasType type)) ∧
      session.store.size = memory.live.length ∧
      List.Forall₂ (fun snapshot frozen =>
          (∀ type, snapshot.get type = frozen.filter (memory.hasType type)) ∧ snapshot.size = frozen.length)
        session.snapshots memory.snapshots ∧
      session.store.pending = memory.queue ∧
      session.store.hasPending = !memory.queue.isEmpty ∧
      session.store.facts = memory.instances ∧
      (∀ type, session.store.template? type = memory.templates type) ∧
      session.store.nextId = .ofNat memory.issued ∧
      session.store.epoch = .ofNat memory.signals := by
  obtain ⟨hanswers, hstore, hsnapshots⟩ := SessionRepresents.empty.run operations
  exact ⟨hanswers, hstore.live, hstore.size, hsnapshots.imp fun _ _ h => ⟨h.live, h.size⟩, hstore.pending,
    hstore.hasPending_eq, hstore.facts, hstore.templates, hstore.nextId, hstore.epoch⟩

end ProductionSystem
