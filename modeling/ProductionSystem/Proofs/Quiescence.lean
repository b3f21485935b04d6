import Mathlib.Data.List.Induction
import ProductionSystem.Builtin
import ProductionSystem.Proofs.Backtracking
import ProductionSystem.Proofs.Resolution
import ProductionSystem.Proofs.TicketBalance

/-!
What a run that ends for quiet knows. The loop matches the rules, then looks for pending facts, and then counts
the tickets; it stops if each look finds nothing. But it does not look twice: what a worker does after the
match, or after the look for facts, and before it gives its ticket back, is seen by no look if all tickets
are back at the count. So quiet is certain as of the looks, and at the end of the run it depends on what others
have done since.
-/

namespace ProductionSystem

namespace Engine

/-- Does no rule match the live facts as they are now? -/
def Unmatched (engine : Engine) : Prop :=
  ∀ source ∈ engine.rules, source.match? engine.config.maxMatchFrames engine.view = none

theorem choose_eq_none_iff {engine : Engine} (hidle : ∀ pool ∈ engine.matchers, pool.queue = []) :
    engine.choose = none ↔ engine.Unmatched := by
  have hall : engine.matchAll = Match.all engine.config.maxMatchFrames engine.view engine.rules :=
    Match.allBy_eq_all hidle
  rw [choose, hall, Unmatched, ← List.filterMap_eq_nil_iff]
  constructor
  · exact Conflict.eq_nil_of_select_eq_none
  · intro hnone
    rw [Match.all, hnone]
    rfl

end Engine

/-- Is something certain of working memory where the loop stands? -/
def Point.isLooking : Point → Bool
  | readEpoch | lookForFacts _ | lookForHalt _ | countTickets _ | listen _ | lookForHaltAgain
  | countTicketsAgain | close .quiescent | between (some .quiescent) => true
  | _ => false

namespace Machine

/-- Do two machines agree on the engine, but for what it says it is doing, and on the jobs? -/
structure Alike (a b : Machine) : Prop where
  engine : ∃ state, a.engine = { b.engine with state }
  taken : a.taken = b.taken
  spent : a.spent = b.spent

namespace Alike

variable {a b c : Machine}

theorem refl (a : Machine) : Alike a a := ⟨⟨a.engine.state, rfl⟩, rfl, rfl⟩

theorem of_point {point : Point} (h : a = { b with point }) : Alike a b := by
  rw [h]
  exact ⟨⟨_, rfl⟩, rfl, rfl⟩

theorem trans (hab : Alike a b) (hbc : Alike b c) : Alike a c := by
  obtain ⟨⟨state, hab⟩, htaken, hspent⟩ := hab
  obtain ⟨⟨_, hbc⟩, htaken', hspent'⟩ := hbc
  exact ⟨⟨state, by rw [hab, hbc]⟩, htaken.trans htaken', hspent.trans hspent'⟩

/-- Workers and producers do not ask where the loop stands. -/
theorem step (h : Alike a b) {move : Move} (hmove : move.byOthers = true) :
    Alike (a.step move) (b.step move) := by
  obtain ⟨engine, point, limit, fired, taken, spent⟩ := a
  obtain ⟨⟨state, hengine⟩, htaken, hspent⟩ := h
  subst hengine htaken hspent
  cases move with
  | take =>
      simp only [Machine.step, Machine.take]
      split
      · exact ⟨⟨state, rfl⟩, rfl, rfl⟩
      · exact ⟨⟨state, rfl⟩, rfl, rfl⟩
  | perform index =>
      simp only [Machine.step, Machine.perform]
      split
      · exact ⟨⟨state, rfl⟩, rfl, rfl⟩
      · refine ⟨⟨state, ?_⟩, rfl, rfl⟩
        unfold Engine.exec
        dsimp only
        split <;> rfl
  | release index =>
      simp only [Machine.step, Machine.release]
      split
      · exact ⟨⟨state, rfl⟩, rfl, rfl⟩
      · exact ⟨⟨state, rfl⟩, rfl, rfl⟩
  | receive signal => exact ⟨⟨state, rfl⟩, rfl, rfl⟩
  | prepare _ | dismiss | begin _ | loop => cases hmove

theorem unmatched_iff (h : Alike a b) : a.engine.Unmatched ↔ b.engine.Unmatched := by
  obtain ⟨⟨state, hengine⟩, -, -⟩ := h
  rw [hengine]
  rfl

theorem hasPending_eq (h : Alike a b) : a.engine.store.hasPending = b.engine.store.hasPending := by
  obtain ⟨⟨state, hengine⟩, -, -⟩ := h
  rw [hengine]
  rfl

end Alike

/-- A move of the others is replayed; any other must have changed nothing that is compared. -/
theorem Alike.concat {now base : Machine} {later : List Move} {move : Move}
    (h : Alike now (base.run (Move.others later)))
    (hmove : move.byOthers = false → Alike (now.step move) now) :
    Alike (now.step move) (base.run (Move.others (later ++ [move]))) := by
  rw [Move.others, List.filter_append]
  cases hothers : move.byOthers with
  | true =>
      rw [List.filter_singleton, hothers, cond_true, run_concat]
      exact h.step hothers
  | false =>
      rw [List.filter_singleton, hothers, cond_false, List.append_nil]
      exact (hmove hothers).trans h

/-- After the moves `before` the loop matched the rules in vain, and since then it has only looked. -/
structure Matched (origin : Machine) (moves before after : List Move) : Prop where
  split : moves = before ++ .loop :: after
  point : (origin.run before).point = .matching
  unmatched : (origin.run before).engine.Unmatched
  since : Alike (origin.run moves) ((origin.run before).run (Move.others after))

/-- After the match the loop made the moves `middle`, and then it looked for pending facts in vain. -/
structure Looked (origin : Machine) (moves before middle after : List Move) : Prop where
  matched : Matched origin moves before (middle ++ .loop :: after)
  point : ∃ seen, (origin.run (before ++ .loop :: middle)).point = .lookForFacts seen
  empty : (origin.run (before ++ .loop :: middle)).engine.store.hasPending = false
  since : Alike (origin.run moves) ((origin.run (before ++ .loop :: middle)).run (Move.others after))

section Looks

variable {origin : Machine} {moves before middle after : List Move} {move : Move}

theorem Matched.concat (h : Matched origin moves before after)
    (hmove : move.byOthers = false → Alike ((origin.run moves).step move) (origin.run moves)) :
    Matched origin (moves ++ [move]) before (after ++ [move]) where
  split := by rw [h.split, List.append_assoc, List.cons_append]
  point := h.point
  unmatched := h.unmatched
  since := by
    rw [run_concat]
    exact h.since.concat hmove

theorem Looked.concat (h : Looked origin moves before middle after)
    (hmove : move.byOthers = false → Alike ((origin.run moves).step move) (origin.run moves)) :
    Looked origin (moves ++ [move]) before middle (after ++ [move]) where
  matched := by
    have hmatched := h.matched.concat hmove
    rwa [List.append_assoc, List.cons_append] at hmatched
  point := h.point
  empty := h.empty
  since := by
    rw [run_concat]
    exact h.since.concat hmove

end Looks

/-- What is certain where the loop stands, in a run that waits for nothing from outside. -/
def Tracked (origin : Machine) (moves : List Move) : Prop :=
  match (origin.run moves).point with
  | .readEpoch | .lookForFacts _ => ∃ before after, Matched origin moves before after
  | .lookForHalt _ | .countTickets _ => ∃ before middle after, Looked origin moves before middle after
  | .close .quiescent | .between (some .quiescent) =>
    (∃ before middle after, Looked origin moves before middle after) ∧
      (origin.run moves).engine.outstanding = 0
  | .listen _ | .lookForHaltAgain | .countTicketsAgain => False
  | _ => True

namespace Tracked

variable {config : Config} {origin : Machine} {moves : List Move}

/-- A move after which the loop stands where it stood: all that is tracked is tracked on. -/
theorem concat (h : Tracked origin moves) {move : Move}
    (hpoint : ((origin.run moves).step move).point = (origin.run moves).point)
    (hmove : move.byOthers = false → Alike ((origin.run moves).step move) (origin.run moves))
    (hzero : (origin.run moves).engine.outstanding = 0 →
      ((origin.run moves).step move).engine.outstanding = 0) :
    Tracked origin (moves ++ [move]) := by
  unfold Tracked at h ⊢
  rw [run_concat, hpoint]
  split at h
  · obtain ⟨before, after, hmatched⟩ := h
    exact ⟨before, after ++ [move], hmatched.concat hmove⟩
  · obtain ⟨before, after, hmatched⟩ := h
    exact ⟨before, after ++ [move], hmatched.concat hmove⟩
  · obtain ⟨before, middle, after, hlooked⟩ := h
    exact ⟨before, middle, after ++ [move], hlooked.concat hmove⟩
  · obtain ⟨before, middle, after, hlooked⟩ := h
    exact ⟨before, middle, after ++ [move], hlooked.concat hmove⟩
  · obtain ⟨⟨before, middle, after, hlooked⟩, hnone⟩ := h
    exact ⟨⟨before, middle, after ++ [move], hlooked.concat hmove⟩, hzero hnone⟩
  · obtain ⟨⟨before, middle, after, hlooked⟩, hnone⟩ := h
    exact ⟨⟨before, middle, after ++ [move], hlooked.concat hmove⟩, hzero hnone⟩
  all_goals exact h

end Tracked

/-- Workers and producers leave the loop where it stands. -/
theorem point_step (machine : Machine) {move : Move} (hmove : move.byOthers = true) :
    (machine.step move).point = machine.point := by
  cases move with
  | take =>
      simp only [step, take]
      split <;> rfl
  | perform index =>
      simp only [step, perform]
      split <;> rfl
  | release index =>
      simp only [step, release]
      split <;> rfl
  | receive signal => rfl
  | prepare _ | dismiss | begin _ | loop => cases hmove

theorem outstanding_step (machine : Machine) {move : Move} (hmove : move.byOthers = true)
    (hzero : machine.engine.outstanding = 0) : (machine.step move).engine.outstanding = 0 := by
  cases move with
  | take =>
      simp only [step, take]
      split <;> exact hzero
  | perform index =>
      simp only [step, perform]
      split
      · exact hzero
      · rw [Engine.outstanding, Engine.executor_exec]
        exact hzero
  | release index =>
      simp only [step, release]
      split
      · exact hzero
      · have htickets : machine.engine.executor.tickets = [] := List.eq_nil_of_length_eq_zero hzero
        simp only [Engine.outstanding, Executor.outstanding, Executor.release, htickets, List.erase_nil,
          List.length_nil]
  | receive signal => exact hzero
  | prepare _ | dismiss | begin _ | loop => cases hmove

namespace Tracked

variable {config : Config} {origin : Machine} {moves : List Move}

theorem of_step_eq_self (h : Tracked origin moves) {move : Move}
    (hsame : (origin.run moves).step move = origin.run moves) : Tracked origin (moves ++ [move]) := by
  refine h.concat (by rw [hsame]) (fun _ => ?_) fun hzero => by rw [hsame, hzero]
  rw [hsame]
  exact .refl _

theorem of_not_looking {move : Move} (hpoint : ((origin.run moves).step move).point.isLooking = false) :
    Tracked origin (moves ++ [move]) := by
  unfold Tracked
  rw [run_concat]
  cases hnext : ((origin.run moves).step move).point with
  | between last =>
      cases last with
      | none => trivial
      | some outcome =>
          cases outcome with
          | quiescent =>
              rw [hnext] at hpoint
              cases hpoint
          | halted | stepLimit => trivial
  | close outcome =>
      cases outcome with
      | quiescent =>
          rw [hnext] at hpoint
          cases hpoint
      | halted | stepLimit => trivial
  | start | drain | matching | act _ _ | wait _ => trivial
  | readEpoch | lookForFacts _ | lookForHalt _ | countTickets _ | listen _ | lookForHaltAgain
  | countTicketsAgain =>
      rw [hnext] at hpoint
      cases hpoint

/-- The match: if none is found, it is from here on that the others are watched. -/
theorem loop_matching (hpoint : (origin.run moves).point = .matching)
    (hidle : ∀ pool ∈ (origin.run moves).engine.matchers, pool.queue = []) :
    Tracked origin (moves ++ [.loop]) := by
  cases hchoose : (origin.run moves).engine.choose with
  | some found =>
      exact of_not_looking (by simp only [step, loop, hpoint, hchoose, fire, Point.isLooking])
  | none =>
      have hstep : (origin.run moves).step .loop = { origin.run moves with point := .readEpoch } := by
        simp only [step, loop, hpoint, hchoose]
      unfold Tracked
      rw [run_concat, hstep]
      refine ⟨moves, [], rfl, hpoint, (Engine.choose_eq_none_iff hidle).1 hchoose, ?_⟩
      rw [run_concat]
      exact .of_point hstep

theorem loop_readEpoch (h : Tracked origin moves) (hpoint : (origin.run moves).point = .readEpoch) :
    Tracked origin (moves ++ [.loop]) := by
  have hstep : (origin.run moves).step .loop =
      { origin.run moves with point := .lookForFacts (origin.run moves).engine.store.epoch } := by
    simp only [step, loop, hpoint]
  unfold Tracked at h ⊢
  rw [hpoint] at h
  obtain ⟨before, after, hmatched⟩ := h
  rw [run_concat, hstep]
  exact ⟨before, after ++ [.loop], hmatched.concat fun _ => .of_point hstep⟩

/-- The look for facts: if the queue is empty, it is from here on that the queue is watched. -/
theorem loop_lookForFacts (h : Tracked origin moves) {seen : UInt64}
    (hpoint : (origin.run moves).point = .lookForFacts seen) : Tracked origin (moves ++ [.loop]) := by
  unfold Tracked at h
  rw [hpoint] at h
  obtain ⟨before, after, hmatched⟩ := h
  cases hpending : (origin.run moves).engine.store.hasPending with
  | true => exact of_not_looking (by simp [step, loop, hpoint, hpending, Point.isLooking])
  | false =>
      have hstep : (origin.run moves).step .loop = { origin.run moves with point := .lookForHalt seen } := by
        simp [step, loop, hpoint, hpending]
      have hsplit := hmatched.split
      unfold Tracked
      rw [run_concat, hstep]
      refine ⟨before, after, [], hmatched.concat fun _ => .of_point hstep, ⟨seen, ?_⟩, ?_, ?_⟩
      · rw [← hsplit, hpoint]
      · rw [← hsplit, hpending]
      · rw [← hsplit, run_concat]
        exact .of_point hstep

theorem loop_lookForHalt (h : Tracked origin moves) {seen : UInt64}
    (hpoint : (origin.run moves).point = .lookForHalt seen) : Tracked origin (moves ++ [.loop]) := by
  unfold Tracked at h
  rw [hpoint] at h
  obtain ⟨before, middle, after, hlooked⟩ := h
  cases hhalted : (origin.run moves).engine.workspace.halted with
  | true => exact of_not_looking (by simp [step, loop, hpoint, hhalted, Point.isLooking])
  | false =>
      have hstep : (origin.run moves).step .loop = { origin.run moves with point := .countTickets seen } := by
        simp [step, loop, hpoint, hhalted]
      unfold Tracked
      rw [run_concat, hstep]
      exact ⟨before, middle, after ++ [.loop], hlooked.concat fun _ => .of_point hstep⟩

/-- The count: without a ticket the run is over, as nothing is waited for from outside. -/
theorem loop_countTickets (h : Tracked origin moves) {seen : UInt64}
    (hpoint : (origin.run moves).point = .countTickets seen)
    (hpatient : (origin.run moves).engine.config.idleTimeout = none) :
    Tracked origin (moves ++ [.loop]) := by
  unfold Tracked at h
  rw [hpoint] at h
  obtain ⟨before, middle, after, hlooked⟩ := h
  by_cases hzero : (origin.run moves).engine.outstanding = 0
  · have hstep : (origin.run moves).step .loop = { origin.run moves with point := .close .quiescent } := by
      simp [step, loop, hpoint, hzero, hpatient]
    unfold Tracked
    rw [run_concat, hstep]
    exact ⟨⟨before, middle, after ++ [.loop], hlooked.concat fun _ => .of_point hstep⟩, hzero⟩
  · exact of_not_looking (by simp [step, loop, hpoint, hzero, Point.isLooking])

theorem loop_close (h : Tracked origin moves) (hpoint : (origin.run moves).point = .close .quiescent) :
    Tracked origin (moves ++ [.loop]) := by
  unfold Tracked at h
  rw [hpoint] at h
  obtain ⟨⟨before, middle, after, hlooked⟩, hzero⟩ := h
  have hstep : (origin.run moves).step .loop =
      { origin.run moves with
        engine := { (origin.run moves).engine with state := .halted }
        point := .between (some .quiescent) } := by
    simp [step, loop, hpoint, hzero]
  unfold Tracked
  rw [run_concat, hstep]
  refine ⟨⟨before, middle, after ++ [.loop], hlooked.concat fun _ => ?_⟩, hzero⟩
  rw [hstep]
  exact ⟨⟨.halted, rfl⟩, rfl, rfl⟩

/-- One look after the other: each move of the loop adds what it has seen. -/
theorem loop (h : Tracked origin moves) (hsound : (origin.run moves).Sound config)
    (hpatient : config.idleTimeout = none) : Tracked origin (moves ++ [.loop]) := by
  cases hpoint : (origin.run moves).point with
  | between last => exact h.of_step_eq_self (by simp only [step, Machine.loop, hpoint])
  | matching => exact loop_matching hpoint hsound.idle
  | readEpoch => exact h.loop_readEpoch hpoint
  | lookForFacts seen => exact h.loop_lookForFacts hpoint
  | lookForHalt seen => exact h.loop_lookForHalt hpoint
  | countTickets seen => exact h.loop_countTickets hpoint (hsound.config ▸ hpatient)
  | listen _ | lookForHaltAgain | countTicketsAgain =>
      unfold Tracked at h
      rw [hpoint] at h
      exact h.elim
  | start =>
      refine of_not_looking ?_
      simp only [step, Machine.loop, hpoint]
      split
      · rfl
      · split <;> rfl
  | drain => exact of_not_looking (by simp only [step, Machine.loop, hpoint, Point.isLooking])
  | act firing actions =>
      cases actions with
      | nil => exact of_not_looking (by simp only [step, Machine.loop, hpoint, Point.isLooking])
      | cons action actions =>
          exact of_not_looking (by simp only [step, Machine.loop, hpoint, Point.isLooking])
  | wait seen =>
      refine of_not_looking ?_
      simp only [step, Machine.loop, hpoint]
      split
      · rw [hpoint]
        rfl
      · rfl
  | close outcome =>
      cases outcome with
      | quiescent => exact h.loop_close hpoint
      | stepLimit => exact of_not_looking (by simp only [step, Machine.loop, hpoint, Point.isLooking])
      | halted =>
          refine of_not_looking ?_
          simp only [step, Machine.loop, hpoint]
          split
          · rw [hpoint]
            rfl
          · rfl

/-- What the caller does while the loop runs is not possible and changes nothing. -/
theorem step (h : Tracked origin moves) (hsound : (origin.run moves).Sound config)
    (hpatient : config.idleTimeout = none) (move : Move) : Tracked origin (moves ++ [move]) := by
  cases move with
  | loop => exact h.loop hsound hpatient
  | take | perform _ | release _ | receive _ =>
      exact h.concat (point_step _ rfl) (fun hcall => by cases hcall) (outstanding_step _ rfl)
  | prepare _ | dismiss | begin _ =>
      by_cases hpoint : ∃ last, (origin.run moves).point = .between last
      · obtain ⟨last, hpoint⟩ := hpoint
        exact of_not_looking (by simp only [Machine.step, hpoint, Point.isLooking])
      · refine h.of_step_eq_self ?_
        simp only [Machine.step]
        split
        · rename_i last heq
          exact (hpoint ⟨last, heq⟩).elim
        · rfl

end Tracked

theorem tracked_run {config : Config} (hpatient : config.idleTimeout = none) (moves : List Move) :
    Tracked (.new config) moves := by
  induction moves using List.reverseRecOn with
  | nil => trivial
  | append_singleton moves move ih => exact ih.step ((Sound.new config).run moves) hpatient move

/-- Do two machines agree on the facts, on which of them are live or pending, and on the rules? -/
structure SameMemory (a b : Machine) : Prop where
  facts : a.engine.store.facts = b.engine.store.facts
  live : a.engine.store.live = b.engine.store.live
  pending : a.engine.store.pending = b.engine.store.pending
  rules : a.engine.rules = b.engine.rules
  config : a.engine.config = b.engine.config

namespace SameMemory

variable {a b : Machine}

theorem unmatched (h : SameMemory a b) (hunmatched : b.engine.Unmatched) : a.engine.Unmatched := by
  have hview : a.engine.view = b.engine.view := by
    funext type
    unfold Engine.view Store.view Store.candidates Store.snapshot Store.fact?
    rw [h.facts, h.live]
  intro source hsource
  rw [h.config, hview]
  exact hunmatched source (h.rules ▸ hsource)

theorem hasPending (h : SameMemory a b) : a.engine.store.hasPending = b.engine.store.hasPending := by
  rw [Store.hasPending, h.pending, Store.hasPending]

theorem step (h : SameMemory a b) {move : Move} (hmove : move.byOthers = true) (hacts : move.acts = false) :
    SameMemory (a.step move) b := by
  cases move with
  | take =>
      simp only [Machine.step, Machine.take]
      split
      · exact h
      · exact ⟨h.facts, h.live, h.pending, h.rules, h.config⟩
  | release index =>
      simp only [Machine.step, Machine.release]
      split
      · exact h
      · exact ⟨h.facts, h.live, h.pending, h.rules, h.config⟩
  | perform _ | receive _ => cases hacts
  | prepare _ | dismiss | begin _ | loop => cases hmove

theorem run (h : SameMemory a b) {moves : List Move} (hacts : ∀ move ∈ moves, move.acts = false) :
    SameMemory (a.run (Move.others moves)) b := by
  induction moves generalizing a with
  | nil => exact h
  | cons move moves ih =>
      have hrest : ∀ other ∈ moves, other.acts = false := fun other hother =>
        hacts other (List.mem_cons_of_mem _ hother)
      cases hothers : move.byOthers with
      | true =>
          rw [Move.others, List.filter_cons_of_pos hothers]
          exact ih (h.step hothers (hacts move List.mem_cons_self)) hrest
      | false =>
          rw [Move.others, List.filter_cons_of_neg (Bool.eq_false_iff.1 hothers)]
          exact ih h hrest

end SameMemory

/-- **What a run that ends for quiet knows.** No ticket is out and no job under way. The rules matched in vain
at the loop's last match, and the queue was empty at its look for facts after that. At the end there is quiet,
no rule matches and the queue is empty, exactly if what workers and producers have done since the match lets no
rule match, and what they have done since the look for facts leaves the queue empty. So it is certain if no
job was done, and no signal came, after the last match. -/
theorem quiescent_iff_of_looks {config : Config} (hpatient : config.idleTimeout = none) {moves : List Move}
    (hquiescent : ((new config).run moves).returned = some .quiescent) :
    let machine := (new config).run moves
    machine.engine.outstanding = 0 ∧
      (machine.engine.backlog = 0 ∧ machine.taken = [] ∧ machine.spent = []) ∧
      ∃ before middle after, moves = before ++ .loop :: (middle ++ .loop :: after) ∧
        let matched := (new config).run before
        let looked := (new config).run (before ++ .loop :: middle)
        let sinceMatch := matched.run (Move.others (middle ++ after))
        let sinceLook := looked.run (Move.others after)
        (matched.point = .matching ∧ matched.engine.Unmatched) ∧
          ((∃ seen, looked.point = .lookForFacts seen) ∧ looked.engine.store.hasPending = false) ∧
          (machine.engine.store.hasPending = false ∧ machine.engine.Unmatched ↔
            sinceLook.engine.store.hasPending = false ∧ sinceMatch.engine.Unmatched) ∧
          ((∀ move ∈ middle ++ after, move.acts = false) →
            machine.engine.store.hasPending = false ∧ machine.engine.Unmatched) := by
  intro machine
  have hpoint : machine.point = .between (some .quiescent) := by
    unfold returned at hquiescent
    split at hquiescent
    · rename_i last heq
      rw [← hquiescent]
      exact heq
    · cases hquiescent
  have htracked := tracked_run hpatient moves
  unfold Tracked at htracked
  rw [hpoint] at htracked
  obtain ⟨⟨before, middle, after, hlooked⟩, hzero⟩ := htracked
  refine ⟨hzero, ((Sound.new config).run moves).nothing_under_way hzero, before, middle, after,
    hlooked.matched.split, ?_⟩
  intro matched looked sinceMatch sinceLook
  have hlate : Move.others (middle ++ .loop :: after) = Move.others (middle ++ after) := by
    rw [Move.others, List.filter_append, List.filter_cons_of_neg Bool.false_ne_true, ← List.filter_append]
    rfl
  have hmatch : Alike machine sinceMatch := by
    have hsince := hlooked.matched.since
    rwa [hlate] at hsince
  have hlook : Alike machine sinceLook := hlooked.since
  have hiff : machine.engine.store.hasPending = false ∧ machine.engine.Unmatched ↔
      sinceLook.engine.store.hasPending = false ∧ sinceMatch.engine.Unmatched := by
    rw [hlook.hasPending_eq, hmatch.unmatched_iff]
  refine ⟨⟨hlooked.matched.point, hlooked.matched.unmatched⟩, ⟨hlooked.point, hlooked.empty⟩, hiff, ?_⟩
  intro hacts
  have hmatched : SameMemory sinceMatch matched := SameMemory.run ⟨rfl, rfl, rfl, rfl, rfl⟩ hacts
  have hafter : SameMemory sinceLook looked :=
    SameMemory.run ⟨rfl, rfl, rfl, rfl, rfl⟩ fun move hmove => hacts move (List.mem_append_right _ hmove)
  exact hiff.2 ⟨hafter.hasPending.trans hlooked.empty, hmatched.unmatched hlooked.matched.unmatched⟩

/-- A rule that leaves it to the workers to set the flag and to make another fact. -/
def startRule : Rule where
  name := "start"
  conditions := [⟨"go", []⟩, ⟨"flag", []⟩]
  actions := [
    ⟨Builtin.modify.command.later, [.literal (.int 1), .literal (.str "v"), .literal (.int 1)]⟩,
    ⟨Builtin.make.command.later, [.literal (.str "go")]⟩,
    ⟨Builtin.remove.command, [.literal (.int 0)]⟩]

/-- A rule that waits for the flag. -/
def answerRule : Rule where
  name := "answer"
  conditions := [⟨"flag", [("v", .literal (.int 1))]⟩]

/-- An engine with both rules, a fact to start with, and a flag that is not set. -/
def lateEngine : Engine :=
  let engine := ((Engine.new .sequential).register ⟨"go", []⟩).register ⟨"flag", [("v", .int 0)]⟩
  ((engine.addRules [startRule, answerRule]).make "go" []).2.make "flag" [] |>.2

/-- Up to the first match. -/
def opening : List Move := [.prepare lateEngine, .begin none, .loop, .loop]

/-- From the firing to the second match. -/
def dispatching : List Move := List.replicate 6 .loop

/-- The worker sets the flag after the match, and makes its fact after the look for facts. -/
def overlooking : List Move :=
  [.take, .perform 0, .release 0, .loop, .loop, .take, .perform 0, .release 0, .loop, .loop, .loop]

/-- A run in which both come too late. -/
def lateSchedule : List Move := opening ++ .loop :: (dispatching ++ .loop :: overlooking)

def opened : Machine := (new .sequential).run opening

def startMatch : Match := ⟨⟨0, startRule⟩, [⟨0⟩, ⟨1⟩], Dictionary.empty⟩

def dispatched : Machine := (opened.fire startMatch).run dispatching

theorem choose_opened : opened.engine.choose = some startMatch := by
  have hall : opened.engine.matchAll = Match.all none opened.engine.view [⟨0, startRule⟩, ⟨1, answerRule⟩] := rfl
  rw [Engine.choose_of_matchAll hall]
  rfl

theorem choose_dispatched : dispatched.engine.choose = none := by
  have hall : dispatched.engine.matchAll =
      Match.all none dispatched.engine.view [⟨0, startRule⟩, ⟨1, answerRule⟩] := rfl
  rw [Engine.choose_of_matchAll hall]
  rfl

theorem run_lateSchedule :
    (new .sequential).run lateSchedule = run { dispatched with point := .readEpoch } overlooking := by
  have hfire : opened.step .loop = opened.fire startMatch := by
    simp only [step, loop, show opened.point = .matching from rfl, choose_opened]
  have hquiet : dispatched.step .loop = { dispatched with point := .readEpoch } := by
    simp only [step, loop, show dispatched.point = .matching from rfl, choose_dispatched]
  calc (new .sequential).run lateSchedule
      = (opened.step .loop).run (dispatching ++ .loop :: overlooking) := run_append _ _ _
    _ = (dispatched.step .loop).run overlooking := by
        rw [hfire, run_append]
        rfl
    _ = run { dispatched with point := .readEpoch } overlooking := by rw [hquiet]

/-- **The looks can miss what they are for.** A run ends for quiet, without anything outside that makes facts,
although a fact is pending and a rule matches. -/
theorem quiescent_with_late_answer :
    let machine := (new .sequential).run lateSchedule
    machine.engine.config.idleTimeout = none ∧
      (∀ move ∈ lateSchedule, ∀ signal, move ≠ .receive signal) ∧
      machine.returned = some .quiescent ∧
      machine.engine.store.hasPending = true ∧ ¬machine.engine.Unmatched := by
  rw [run_lateSchedule]
  refine ⟨rfl, ?_, rfl, rfl, fun hunmatched => ?_⟩
  · simp [lateSchedule, opening, dispatching, overlooking]
  · have hnone := hunmatched ⟨1, answerRule⟩ (.tail _ (.head _))
    have hfound := congrArg Option.isNone ((RuleInstance.match?_none _ _).symm.trans hnone)
    cases hfound

/-- The theorem on the looks applies to that run: its tickets are all back. -/
theorem quiescent_iff_of_looks_lateSchedule :
    let machine := (new .sequential).run lateSchedule
    Config.sequential.idleTimeout = none ∧ machine.returned = some .quiescent ∧
      machine.engine.outstanding = 0 := by
  have hreturned : ((new .sequential).run lateSchedule).returned = some .quiescent := by
    rw [run_lateSchedule]
    rfl
  exact ⟨rfl, hreturned, (quiescent_iff_of_looks rfl hreturned).1⟩

end Machine

end ProductionSystem
