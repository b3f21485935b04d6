import ProductionSystem.Proofs.Agenda

/-!
Conflict resolution over whole histories. A history notes the rule instances that have fired since the
engine was created or last reset. The engine itself remembers only the last of them, so two facts carry
the argument from cycle to cycle: what it remembers is the end of the note, and no two rule instances have
one serial number, also when rules are sorted anew or have the same text. Then at most one match belongs to
the instance that fired last, and setting aside one match is enough.
-/

namespace ProductionSystem

namespace Conflict

variable {α : Type} {takenLast : α → Bool} {choices : List α}

theorem select_cons_cons (first second : α) (rest : List α) :
    select takenLast (first :: second :: rest) = some (if takenLast first then second else first) := by
  have hseveral : 1 < (first :: second :: rest).length := Nat.succ_lt_succ (Nat.succ_pos _)
  rw [select, contenders, if_pos hseveral, List.eraseP_cons]
  cases takenLast first <;> rfl

theorem eq_nil_of_select_eq_none (h : select takenLast choices = none) : choices = [] := by
  cases choices with
  | nil => rfl
  | cons first rest =>
      cases rest with
      | nil => cases h
      | cons second rest =>
          rw [select_cons_cons] at h
          cases h

/-- If at most one choice was the last one taken, the one selected is the first that was not, unless there
is only one choice. -/
theorem of_select_eq_some
    (hone : choices.Pairwise fun a b => ¬(takenLast a = true ∧ takenLast b = true)) {found : α}
    (h : select takenLast choices = some found) :
    choices = [found] ∨ ∃ earlier later, choices = earlier ++ found :: later ∧
      ¬takenLast found = true ∧ ∀ other ∈ earlier, takenLast other = true := by
  cases choices with
  | nil => cases h
  | cons first rest =>
      cases rest with
      | nil => exact .inl (by rw [Option.some.inj h])
      | cons second rest =>
          right
          rw [select_cons_cons, Option.some.injEq] at h
          by_cases hfirst : takenLast first = true
          · rw [if_pos hfirst] at h
            have hapart := List.rel_of_pairwise_cons hone (List.mem_cons_self (a := second))
            subst h
            exact ⟨[first], rest, rfl, fun hsecond => hapart ⟨hfirst, hsecond⟩,
              List.forall_mem_singleton.2 hfirst⟩
          · rw [if_neg hfirst] at h
            subst h
            exact ⟨[], second :: rest, rfl, hfirst, List.forall_mem_nil _⟩

end Conflict

/-- What can be done to an engine, or happens to it. -/
inductive EngineEvent where
  | register (template : Template)
  | make (type : String) (overrides : List (String × Value))
  | addRule (rule : Rule)
  | addRules (rules : List Rule)
  | loadDocument (registry : Registry) (json : Json)
  | loadText (registry : Registry) (text : String)
  | loadFile (registry : Registry) (path : String) (contents : Except ReadFailure String)
  | halt
  /-- A run begins. -/
  | begin (arrivals : List Arrival)
  /-- One cycle of the run. -/
  | cycle
  /-- The run is over. -/
  | close (outcome : Outcome)
  | reset
  | shutdown
  /-- Workers, producers and holders of the store have done what they like to all that they can reach. -/
  | meanwhile (workspace : Workspace) (executor : Executor Job) (failures : Array Failure)

/-- An engine, in or between its runs, and the rule instances that have fired since it was created or last
reset. -/
structure Chronicle where
  run : Run
  fired : List RuleInstance := []

namespace Chronicle

def new (config : Config) : Chronicle := { run := { engine := .new config } }

def engine (chronicle : Chronicle) : Engine := chronicle.run.engine

/-- Something that fires no rule was done to the engine. -/
def withEngine (chronicle : Chronicle) (engine : Engine) : Chronicle :=
  { chronicle with run := { chronicle.run with engine } }

/-- Takes an event down. -/
def note (chronicle : Chronicle) : EngineEvent → Chronicle
  | .register template => chronicle.withEngine (chronicle.engine.register template)
  | .make type overrides => chronicle.withEngine (chronicle.engine.make type overrides).2
  | .addRule rule => chronicle.withEngine (chronicle.engine.addRule rule)
  | .addRules rules => chronicle.withEngine (chronicle.engine.addRules rules)
  | .loadDocument registry json => chronicle.withEngine (chronicle.engine.loadDocument registry json).2
  | .loadText registry text => chronicle.withEngine (chronicle.engine.loadText registry text).2
  | .loadFile registry path contents =>
    chronicle.withEngine (chronicle.engine.loadFile registry path contents).2
  | .halt => chronicle.withEngine chronicle.engine.halt
  | .begin arrivals => { chronicle with run := chronicle.engine.begin arrivals }
  | .cycle =>
    match chronicle.run.cycle with
    | .fired found run => { run, fired := chronicle.fired ++ [found.source] }
    | .again run | .quiet run => { chronicle with run }
  | .close outcome => chronicle.withEngine (chronicle.run.close outcome).2
  | .reset => { chronicle.withEngine chronicle.engine.reset with fired := [] }
  | .shutdown => chronicle.withEngine chronicle.engine.shutdown
  | .meanwhile workspace executor failures =>
    chronicle.withEngine { chronicle.engine with workspace, executor, failures }

def after (chronicle : Chronicle) (events : List EngineEvent) : Chronicle := events.foldl note chronicle

end Chronicle

/-- Do the rules of an agenda have serial numbers of their own, are its workers idle, and is the rule that it
has as fired last the last one fired? -/
structure Agenda.Sound (agenda : Agenda) (fired : List RuleInstance) : Prop where
  distinct : agenda.rules.Pairwise fun a b => a.serial ≠ b.serial
  numbered : ∀ source ∈ agenda.rules, source.serial < agenda.added
  known : ∀ source ∈ fired, source ∈ agenda.rules
  last : agenda.lastFired = fired.getLast?
  idle : ∀ pool ∈ agenda.matchers, pool.queue = []

namespace Agenda.Sound

variable {engine : Engine} {fired : List RuleInstance}

theorem new (config : Config) : (Engine.new config).agenda.Sound [] where
  distinct := .nil
  numbered := by simp [Engine.agenda, Engine.new]
  known := by simp
  last := rfl
  idle := by
    intro pool hpool
    simp only [Engine.agenda, Engine.new] at hpool
    split at hpool
    · obtain rfl := Option.some.inj hpool
      rfl
    · cases hpool

/-- A rule that is added gets a serial number that no rule had before. -/
theorem install (h : engine.agenda.Sound fired) (rule : Rule) : (engine.install rule).agenda.Sound fired where
  distinct := by
    refine List.pairwise_append.2 ⟨h.distinct, List.pairwise_singleton _ _, fun source hsource other hother => ?_⟩
    rw [List.mem_singleton.1 hother]
    exact Nat.ne_of_lt (h.numbered source hsource)
  numbered := by
    intro source hsource
    rcases List.mem_append.1 hsource with hsource | hsource
    · exact Nat.lt_succ_of_lt (h.numbered source hsource)
    · rw [List.mem_singleton.1 hsource]
      exact Nat.lt_succ_self _
  known := fun source hsource => List.mem_append_left _ (h.known source hsource)
  last := h.last
  idle := h.idle

theorem arrange (h : engine.agenda.Sound fired) : engine.arrange.agenda.Sound fired := by
  unfold Engine.arrange
  split
  · have hperm := List.mergeSort_perm engine.rules fun a b => b.rule.specificity ≤ a.rule.specificity
    exact {
      distinct := h.distinct.perm hperm.symm fun hne => hne.symm
      numbered := fun source hsource => h.numbered source (hperm.mem_iff.1 hsource)
      known := fun source hsource => hperm.mem_iff.2 (h.known source hsource)
      last := h.last
      idle := h.idle }
  · exact h

theorem addRules (h : engine.agenda.Sound fired) (rules : List Rule) :
    (engine.addRules rules).agenda.Sound fired := by
  refine arrange ?_
  induction rules generalizing engine with
  | nil => exact h
  | cons rule rules ih => exact ih (h.install rule)

theorem loaded (h : engine.agenda.Sound fired) {after : Engine} (hload : engine.Loaded after) :
    after.agenda.Sound fired := by
  obtain ⟨store, rfl | ⟨rules, rfl⟩⟩ := hload
  · exact h
  · exact addRules (show (engine.withStore store).agenda.Sound fired from h) rules

theorem fire (h : engine.agenda.Sound fired) {found : Match} (hrule : found.source ∈ engine.rules) :
    (engine.fire found).agenda.Sound (fired ++ [found.source]) := by
  rw [Engine.agenda_fire]
  refine ⟨h.distinct, h.numbered, fun source hsource => ?_, ?_, h.idle⟩
  · rcases List.mem_append.1 hsource with hsource | hsource
    · exact h.known source hsource
    · rw [List.mem_singleton.1 hsource]
      exact hrule
  · rw [List.getLast?_append, List.getLast?_singleton, Option.some_or]

theorem shutdown (h : engine.agenda.Sound fired) : engine.shutdown.agenda.Sound fired := by
  rw [Engine.agenda_shutdown]
  exact ⟨h.distinct, h.numbered, h.known, h.last, fun pool hpool => by cases hpool⟩

theorem reset (h : engine.agenda.Sound fired) : engine.reset.agenda.Sound [] := by
  rw [Engine.agenda_reset]
  exact ⟨.nil, List.forall_mem_nil _, List.forall_mem_nil _, rfl, h.idle⟩

/-- The matches belong to different rules of the agenda, so at most one to the rule fired last. -/
theorem pairwise_all (h : engine.agenda.Sound fired) (budget : Option Nat) (view : View) :
    (Match.all budget view engine.rules).Pairwise fun a b => a.source.serial ≠ b.source.serial := by
  refine h.distinct.filterMap _ fun source other hne a ha b hb => ?_
  rw [Match.source_of_match? ha, Match.source_of_match? hb]
  exact hne

theorem eq_of_serial_eq (h : engine.agenda.Sound fired) {source other : RuleInstance}
    (hsource : source ∈ engine.rules) (hother : other ∈ engine.rules) (heq : source.serial = other.serial) :
    source = other := by
  have hdistinct : engine.rules.Pairwise fun a b => a.serial ≠ b.serial := h.distinct
  refine List.Pairwise.forall_of_forall_of_flip (R := fun a b => a.serial = b.serial → a = b)
    (fun _ _ _ => rfl) ?_ ?_ hsource hother heq
  · exact hdistinct.imp fun hne heq => (hne heq).elim
  · exact hdistinct.imp fun hne heq => (hne heq.symm).elim

/-- Whether a rule is the one fired last is seen from its serial number. -/
theorem lastFired_same_iff (h : engine.agenda.Sound fired) {source : RuleInstance}
    (hrule : source ∈ engine.rules) :
    engine.lastFired.any source.same = true ↔ fired.getLast? = some source := by
  have hlast : engine.lastFired = fired.getLast? := h.last
  rw [hlast, Option.any_eq_true]
  constructor
  · rintro ⟨other, hother, hsame⟩
    have hknown : other ∈ engine.rules := h.known other (List.mem_of_getLast? hother)
    rw [hother, h.eq_of_serial_eq hrule hknown (eq_of_beq hsame)]
  · intro hfired
    exact ⟨source, hfired, beq_self_eq_true _⟩

theorem matchAll_eq_all (h : engine.agenda.Sound fired) :
    engine.matchAll = Match.all engine.config.maxMatchFrames engine.view engine.rules :=
  Match.allBy_eq_all h.idle

theorem eq_nil_of_choose_eq_none (h : engine.agenda.Sound fired) (hchoose : engine.choose = none) :
    Match.all engine.config.maxMatchFrames engine.view engine.rules = [] := by
  rw [Engine.choose, h.matchAll_eq_all] at hchoose
  exact Conflict.eq_nil_of_select_eq_none hchoose

/-- What is chosen is found for a rule of the engine, and it is the first match that is not for the rule
fired last, or the only match. -/
theorem of_choose_eq_some (h : engine.agenda.Sound fired) {found : Match}
    (hchoose : engine.choose = some found) :
    let matched := Match.all engine.config.maxMatchFrames engine.view engine.rules
    found.source ∈ engine.rules ∧
      found.source.match? engine.config.maxMatchFrames engine.view = some found ∧
      (matched = [found] ∨ ∃ earlier later, matched = earlier ++ found :: later ∧
        fired.getLast? ≠ some found.source ∧
        ∀ other ∈ earlier, fired.getLast? = some other.source) := by
  intro matched
  have hmatch : ∀ other ∈ matched, other.source ∈ engine.rules ∧
      other.source.match? engine.config.maxMatchFrames engine.view = some other := by
    intro other hother
    obtain ⟨source, hsource, hfound⟩ := List.mem_filterMap.1 hother
    rw [Match.source_of_match? hfound]
    exact ⟨hsource, hfound⟩
  rw [Engine.choose, h.matchAll_eq_all] at hchoose
  have hone : matched.Pairwise fun a b => ¬(engine.lastFired.any a.source.same = true ∧
      engine.lastFired.any b.source.same = true) := by
    refine (h.pairwise_all _ _).imp_of_mem fun {a b} ha hb hne hboth => hne ?_
    rw [h.lastFired_same_iff (hmatch a ha).1, h.lastFired_same_iff (hmatch b hb).1] at hboth
    rw [Option.some.inj (hboth.1.symm.trans hboth.2)]
  have hlaw := Conflict.of_select_eq_some hone hchoose
  have hmem : found ∈ matched := by
    rcases hlaw with heq | ⟨earlier, later, heq, -⟩
    · rw [heq]
      exact List.mem_singleton_self found
    · rw [heq]
      exact List.mem_append_right _ List.mem_cons_self
  refine ⟨(hmatch found hmem).1, (hmatch found hmem).2, hlaw.imp_right ?_⟩
  rintro ⟨earlier, later, heq, hother, hpassed⟩
  rw [h.lastFired_same_iff (hmatch found hmem).1] at hother
  refine ⟨earlier, later, heq, hother, fun passed hmem => ?_⟩
  have hin : passed ∈ matched := by
    rw [heq]
    exact List.mem_append_left _ hmem
  exact (h.lastFired_same_iff (hmatch passed hin).1).1 (hpassed passed hmem)

end Agenda.Sound

namespace Chronicle

theorem sound_note {chronicle : Chronicle} (h : chronicle.engine.agenda.Sound chronicle.fired)
    (event : EngineEvent) :
    (chronicle.note event).engine.agenda.Sound (chronicle.note event).fired := by
  cases event with
  | register template => exact h
  | make type overrides => exact h
  | addRule rule => exact (h.install rule).arrange
  | addRules rules => exact h.addRules rules
  | loadDocument registry json => exact h.loaded (Engine.loaded_loadDocument _ registry json)
  | loadText registry text => exact h.loaded (Engine.loaded_loadText _ registry text)
  | loadFile registry path contents => exact h.loaded (Engine.loaded_loadFile _ registry path contents)
  | halt => exact h
  | begin arrivals => exact h
  | close outcome =>
      have hsame : (chronicle.run.close outcome).2.agenda = chronicle.engine.agenda := Run.agenda_close outcome
      exact Eq.mpr (congrArg (Agenda.Sound · chronicle.fired) hsame) h
  | reset => exact h.reset
  | shutdown => exact h.shutdown
  | meanwhile workspace executor failures => exact h
  | cycle =>
      unfold note
      dsimp only
      split
      · rename_i found next hcycle
        obtain ⟨hchosen, hnext⟩ := Run.of_cycle_eq_fired hcycle
        show next.engine.agenda.Sound (chronicle.fired ++ [found.source])
        have hdrained : chronicle.engine.drain.agenda.Sound chronicle.fired := h
        rw [hnext]
        exact hdrained.fire (hdrained.of_choose_eq_some hchosen).1
      · rename_i next hcycle
        show next.engine.agenda.Sound chronicle.fired
        rw [(Run.of_cycle_eq_idle (.inl hcycle)).2.agenda_eq]
        exact h
      · rename_i next hcycle
        show next.engine.agenda.Sound chronicle.fired
        rw [(Run.of_cycle_eq_idle (.inr hcycle)).2.agenda_eq]
        exact h

theorem sound_after {chronicle : Chronicle} (h : chronicle.engine.agenda.Sound chronicle.fired)
    (events : List EngineEvent) :
    (chronicle.after events).engine.agenda.Sound (chronicle.after events).fired := by
  induction events generalizing chronicle with
  | nil => exact h
  | cons event events ih => exact ih (sound_note h event)

/-- A run consists of cycles. -/
theorem exists_cycles_steps (chronicle : Chronicle) (limit : Nat) :
    ∃ count, (chronicle.after (List.replicate count .cycle)).run = (chronicle.run.steps limit).2 := by
  obtain ⟨run, fired⟩ := chronicle
  induction run, limit using Run.steps.induct generalizing fired with
  | case1 run limit hhalted =>
      refine ⟨0, ?_⟩
      rw [Run.steps.eq_def, if_pos hhalted]
      rfl
  | case2 run hhalted =>
      refine ⟨0, ?_⟩
      rw [Run.steps.eq_def, if_neg hhalted]
      rfl
  | case3 run hhalted limit found next hcycle ih =>
      obtain ⟨count, hcount⟩ := ih (fired ++ [found.source])
      refine ⟨count + 1, ?_⟩
      rw [Run.steps_eq_of_fired hhalted hcycle, ← hcount, List.replicate_succ]
      simp only [after, List.foldl_cons, note, hcycle]
  | case4 run hhalted limit next hcycle ih =>
      obtain ⟨count, hcount⟩ := ih fired
      refine ⟨count + 1, ?_⟩
      rw [Run.steps_eq_of_again hhalted hcycle, ← hcount, List.replicate_succ]
      simp only [after, List.foldl_cons, note, hcycle]
  | case5 run hhalted limit next hcycle =>
      refine ⟨1, ?_⟩
      rw [Run.steps_eq_of_quiet hhalted hcycle]
      simp only [after, List.replicate_one, List.foldl_cons, List.foldl_nil, note, hcycle]

end Chronicle

/-- **Conflict resolution over whole histories.** Whatever has been done to a new engine: if no rule matches in
the next cycle, none is fired. Otherwise the rule fired is the only one that matches, or the first of them
other than the rule instance that fired last since the engine was created or reset, with the match that is
found for it. So a rule instance fires twice in a row only if it is the only one that matches. A run from there is
a series of such cycles. -/
theorem cycle_fires_first_other (config : Config) (events : List EngineEvent) :
    let chronicle := (Chronicle.new config).after events
    let engine := chronicle.engine.drain
    let matched := Match.all engine.config.maxMatchFrames engine.view engine.rules
    engine.rules.Pairwise (fun a b => a.serial ≠ b.serial) ∧
      (∀ limit, ∃ count,
        (chronicle.after (List.replicate count .cycle)).run = (chronicle.run.steps limit).2) ∧
      match chronicle.run.cycle with
      | .again _ | .quiet _ => matched = []
      | .fired found next =>
        next.engine = engine.fire found ∧
          found.source.match? engine.config.maxMatchFrames engine.view = some found ∧
          (matched = [found] ∨ ∃ earlier later, matched = earlier ++ found :: later ∧
            chronicle.fired.getLast? ≠ some found.source ∧
            ∀ other ∈ earlier, chronicle.fired.getLast? = some other.source) ∧
          (chronicle.fired.getLast? = some found.source → matched = [found]) := by
  intro chronicle engine matched
  have hsound : engine.agenda.Sound chronicle.fired :=
    Chronicle.sound_after (show (Chronicle.new config).engine.agenda.Sound [] from .new config) events
  refine ⟨hsound.distinct, chronicle.exists_cycles_steps, ?_⟩
  split
  · rename_i next hcycle
    have hnone := (Run.of_cycle_eq_idle (.inl hcycle)).1
    exact hsound.eq_nil_of_choose_eq_none hnone
  · rename_i next hcycle
    have hnone := (Run.of_cycle_eq_idle (.inr hcycle)).1
    exact hsound.eq_nil_of_choose_eq_none hnone
  · rename_i found next hcycle
    obtain ⟨hchosen, hnext⟩ := Run.of_cycle_eq_fired hcycle
    obtain ⟨-, hmatch, hlaw⟩ := hsound.of_choose_eq_some hchosen
    refine ⟨hnext, hmatch, hlaw, fun hlast => ?_⟩
    rcases hlaw with hsingle | ⟨_, _, -, hother, -⟩
    · exact hsingle
    · exact (hother hlast).elim

end ProductionSystem
