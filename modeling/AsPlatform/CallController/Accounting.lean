/-
How often the outcome of a call is counted.

Counting at most once rests on the current leg ending at most once; counting at least
once rests on the trunk leg not ending the call before anything else has.
-/

import AsPlatform.CallController.Dispositions

namespace AsPlatform

open Reentrant

def Call.trunkEnded (call : Call) : Bool :=
  (call.trunk.map Ua.ended).getD false

def Call.tried (call : Call) : Bool :=
  (call.trunk.map fun ua => ua.raised.any CCEvent.isTry).getD false

def Call.currentEnded (call : Call) : Bool :=
  ((call.uaO.bind call.ua?).map Ua.ended).getD false

/-! ### How these change -/

theorem step_ended {app : App} {outline next : CallOutline} {action : CallAction}
    (step : CallStep app outline action next) (shape : outline.view.call.Shape) {ref : UaRef}
    {ua : Ua} (found : outline.view.call.ua? ref = some ua) :
    ∃ later, next.view.call.ua? ref = some later ∧
      later.ended = (ua.ended || (raisedBy ref action).any CCEvent.terminates) := by
  obtain ⟨later, present, raised⟩ := step_raised step shape found
  refine ⟨later, present, ?_⟩
  rw [Ua.ended, raised, List.any_append]
  rfl

theorem step_trunkEnded {app : App} {outline next : CallOutline} {action : CallAction}
    (step : CallStep app outline action next) (shape : outline.view.call.Shape) :
    next.view.call.trunkEnded = (outline.view.call.trunkEnded ||
      (outline.view.call.trunk.isSome &&
        (raisedBy .trunk action).any CCEvent.terminates)) := by
  cases answering : outline.view.call.trunk with
  | some ua =>
      obtain ⟨later, present, ended⟩ := step_ended step shape
        (show outline.view.call.ua? .trunk = some ua from answering)
      have now : next.view.call.trunk = some later := present
      simp [Call.trunkEnded, answering, now, ended]
  | none =>
      rcases (step_counts step shape).trunk with same | ⟨_, ua, created, new⟩
      · rw [answering] at same
        have absent : next.view.call.trunk = none := by
          cases present : next.view.call.trunk with
          | none => rfl
          | some ua =>
              rw [present] at same
              cases same
        simp [Call.trunkEnded, answering, absent]
      · simp [Call.trunkEnded, answering, created, Ua.ended, new.raised]

theorem step_tried {app : App} {outline next : CallOutline} {action : CallAction}
    (step : CallStep app outline action next) (shape : outline.view.call.Shape)
    (answering : outline.view.call.trunk.isSome = true) :
    next.view.call.tried =
      (outline.view.call.tried || (raisedBy .trunk action).any CCEvent.isTry) := by
  obtain ⟨ua, present⟩ := Option.isSome_iff_exists.mp answering
  obtain ⟨later, found, raised⟩ := step_raised step shape
    (show outline.view.call.ua? .trunk = some ua from present)
  have now : next.view.call.trunk = some later := found
  simp [Call.tried, present, now, raised]

theorem step_currentEnded {app : App} {outline next : CallOutline} {action : CallAction}
    (step : CallStep app outline action next) (shape : outline.view.call.Shape)
    (quiet : ¬Originates app outline.view.call action) :
    next.view.call.currentEnded = (outline.view.call.currentEnded ||
      (outline.view.call.uaO.map fun ref =>
        (raisedBy ref action).any CCEvent.terminates).getD false) := by
  have same := (step_sameAttempt step shape quiet).uaO
  unfold Call.currentEnded
  rw [same]
  cases current : outline.view.call.uaO with
  | none => rfl
  | some ref =>
      obtain ⟨ua, present⟩ : ∃ ua, outline.view.call.ua? ref = some ua := by
        rw [shape.current, Call.newestLeg] at current
        split at current
        · cases current
        · rename_i attempts count
          cases current
          exact ⟨_, List.getElem?_eq_getElem (by omega)⟩
      obtain ⟨later, found, ended⟩ := step_ended step shape present
      simp [present, found, ended]

theorem Originated.currentEnded {app : App} {before after : Control} {ua : UaRef}
    {event : CCEvent} {ending : CallEnding}
    (originated : Originated app before ua event after ending) :
    after.call.currentEnded = false := by
  have fresh {hop : NextHop} {clears : Bool} {middle : Control}
      (attempt : AttemptEffect clears hop middle after ending) :
      after.call.currentEnded = false := by
    obtain ⟨leg, legs, _, silent, _⟩ := attempt.done.legs
    have current : after.call.uaO = some (.leg middle.call.legs.length) := by
      rw [attempt.done.controller]
    have found : after.call.ua? (.leg middle.call.legs.length) = some leg := by
      rw [Call.ua?, legs]
      exact List.getElem?_concat_length
    simp [Call.currentEnded, current, found, Ua.ended, silent]
  cases originated with
  | first decision hop rest unrouted asked action hops attempt => exact fresh attempt
  | failover hop rest current routed failed remaining attempt => exact fresh attempt

/-! ### At most once -/

/-- The call is over as far as the counters are concerned: without a leg, once the
application has been asked; with a leg, once that leg has ended. -/
def Call.settled (call : Call) : Bool :=
  if call.legs = [] then call.tried else call.currentEnded

/-- The trunk leg raises one `CCEventTry`, and the current leg ends once. -/
def EndsOnce (call : Call) : CallAction → Prop
  | .enter (.raises ua event) =>
      (ua = .trunk → event.isTry = true → call.tried = false) ∧
        (call.uaO = some ua → event.terminates = true → call.currentEnded = false)
  | _ => True

instance (call : Call) : ∀ action, Decidable (EndsOnce call action)
  | .enter (.raises ua event) =>
      inferInstanceAs (Decidable ((ua = .trunk → event.isTry = true → call.tried = false) ∧
        (call.uaO = some ua → event.terminates = true → call.currentEnded = false)))
  | .enter (.invite _) | .enter (.connected _) | .enter (.fires _) | .enter .noAnswer
  | .enter .dispose | .comeBack => .isTrue trivial

def CountedOnce (process : Process) (config : CallConfig) : Prop :=
  config.state.metrics.disposed ≤ process.metrics.disposed + 1 ∧
    config.state.metrics.disposed + process.metrics.callsTotal ≤
      config.state.metrics.callsTotal + process.metrics.disposed

instance (process : Process) (config : CallConfig) : Decidable (CountedOnce process config) := by
  unfold CountedOnce
  infer_instance

structure Tally (process : Process) (control : Control) : Prop where
  shape : control.call.Shape
  once : control.disposed ≤ process.metrics.disposed + (if control.call.settled then 1 else 0)
  started : process.metrics.callsTotal ≤ control.started
  admitted : control.call.trunk.isSome = true →
    process.metrics.callsTotal + 1 ≤ control.started

theorem Call.Shape.trunk_of_settled {call : Call} (shape : call.Shape)
    (settled : call.settled = true) : call.trunk.isSome = true := by
  unfold Call.settled at settled
  split at settled
  · unfold Call.tried at settled
    cases present : call.trunk with
    | none =>
        rw [present] at settled
        cases settled
    | some ua => rfl
  · rename_i routed
    exact shape.routed routed

theorem Originates.uncounted {app : App} {call : Call} {action : CallAction}
    (starts : Originates app call action) : ¬Counts app call action := by
  cases action with
  | comeBack => exact starts.elim
  | enter label =>
      cases label with
      | raises ua event =>
          rintro (⟨asks, decision, asked, reject, _⟩ | ⟨current, _, stays⟩)
          · rcases starts with ⟨_, _, _, other, askedToo, relay, _⟩ | ⟨current, _⟩
            · rw [asked] at askedToo
              cases askedToo
              rw [reject] at relay
              cases relay
            · rw [asks.2.1] at current
              cases current
          · rcases starts with ⟨_, unrouted, _⟩ | ⟨_, failed⟩
            · rw [unrouted] at current
              cases current
            · exact stays failed
      | _ => exact starts.elim

theorem EndsOnce.unsettled {app : App} {call : Call} {action : CallAction}
    (once : EndsOnce call action) (shape : call.Shape)
    (ends : Counts app call action ∨ Originates app call action) : call.settled = false := by
  have asking : ∀ ua event, call.Asks ua event → EndsOnce call (.enter (.raises ua event)) →
      call.settled = false := by
    intro ua event asks once
    rw [Call.settled, if_pos (shape.legs_of_uaO.mpr asks.2.1)]
    exact once.1 (shape.trunk_of_uaA asks.1).1 asks.2.2
  have ending : ∀ ua event, call.uaO = some ua → event.terminates = true →
      EndsOnce call (.enter (.raises ua event)) → call.settled = false := by
    intro ua event current terminates once
    have routed : call.legs ≠ [] := by
      intro none
      rw [shape.legs_of_uaO.mp none] at current
      cases current
    rw [Call.settled, if_neg routed]
    exact once.2 current terminates
  cases action with
  | comeBack => exact ends.elim nofun nofun
  | enter label =>
      cases label with
      | raises ua event =>
          rcases ends with (⟨asks, _⟩ | ⟨current, terminates, _⟩) |
            (⟨answering, unrouted, first, _⟩ | ⟨current, failed⟩)
          · exact asking ua event asks once
          · exact ending ua event current terminates once
          · exact asking ua event ⟨answering, unrouted, first⟩ once
          · exact ending ua event current failed.1 once
      | _ => exact ends.elim nofun nofun

theorem step_settled {app : App} {outline next : CallOutline} {action : CallAction}
    (step : CallStep app outline action next) (shape : outline.view.call.Shape)
    (quiet : ¬Originates app outline.view.call action)
    (settles : outline.view.call.settled = true ∨ Counts app outline.view.call action) :
    next.view.call.settled = true := by
  have same := step_sameAttempt step shape quiet
  have legs := Call.legs_eq_nil_iff same.length
  by_cases unrouted : outline.view.call.legs = []
  · rw [Call.settled, if_pos (legs.mpr unrouted)]
    rcases settles with settled | counts
    · have answering := shape.trunk_of_settled settled
      rw [Call.settled, if_pos unrouted] at settled
      rw [step_tried step shape answering, settled, Bool.true_or]
    · obtain ⟨ua, event, rfl⟩ := counts.enters
      rcases counts with ⟨asks, _⟩ | ⟨current, _⟩
      · obtain ⟨trunk, answering⟩ := shape.trunk_of_uaA asks.1
        rw [step_tried step shape answering, trunk]
        simp [asks.2.2]
      · rw [shape.legs_of_uaO.mp unrouted] at current
        cases current
  · rw [Call.settled, if_neg (fun none => unrouted (legs.mp none)),
      step_currentEnded step shape quiet]
    rcases settles with settled | counts
    · rw [Call.settled, if_neg unrouted] at settled
      rw [settled, Bool.true_or]
    · obtain ⟨ua, event, rfl⟩ := counts.enters
      rcases counts with ⟨asks, _⟩ | ⟨current, terminates, _⟩
      · exact absurd (shape.legs_of_uaO.mpr asks.2.1) unrouted
      · simp [current, terminates]

theorem Tally.step {app : App} {process : Process} {outline next : CallOutline}
    {action : CallAction} (tally : Tally process outline.view)
    (step : CallStep app outline action next)
    (once : EndsOnce outline.view.call action) : Tally process next.view := by
  have counters := step_counts step tally.shape
  refine ⟨step_shape step tally.shape, ?_, Nat.le_trans tally.started counters.started, ?_⟩
  · have before := tally.once
    by_cases starts : Originates app outline.view.call action
    · have unsettled := once.unsettled tally.shape (Or.inr starts)
      rw [counters.uncounted starts.uncounted]
      rw [unsettled, if_neg Bool.false_ne_true] at before
      omega
    · by_cases counts : Counts app outline.view.call action
      · have unsettled := once.unsettled tally.shape (Or.inl counts)
        rw [counters.counted counts,
          if_pos (step_settled step tally.shape starts (Or.inr counts))]
        rw [unsettled, if_neg Bool.false_ne_true] at before
        omega
      · rw [counters.uncounted counts]
        by_cases settled : outline.view.call.settled = true
        · rw [if_pos (step_settled step tally.shape starts (Or.inl settled))]
          rw [if_pos settled] at before
          exact before
        · rw [if_neg settled] at before
          omega
  · intro present
    rcases counters.trunk with same | ⟨admitted, _⟩
    · exact Nat.le_trans (tally.admitted (same ▸ present)) counters.started
    · exact Nat.le_trans (Nat.succ_le_succ tally.started) admitted

theorem Tally.countedOnce {process : Process} {config : CallConfig}
    (tally : Tally process config.state.control) : CountedOnce process config := by
  have once := tally.once
  have started := tally.started
  simp only [World.control_disposed, World.control_started] at once started
  unfold CountedOnce
  by_cases settled : config.state.control.call.settled = true
  · have admitted := tally.admitted (tally.shape.trunk_of_settled settled)
    rw [World.control_started] at admitted
    rw [if_pos settled] at once
    omega
  · rw [if_neg settled] at once
    omega

theorem countedOnce_of_endsOnce (app : App) (process : Process) (globalConfig : GlobalConfig)
    (nextHop : Option (String × Nat)) (actions : List CallAction)
    (once : CallAlong app (fun config action _ => EndsOnce config.state.toCall action)
      (process.newCall globalConfig nextHop) actions) :
    CallAlong app (fun _ _ next => CountedOnce process next)
      (process.newCall globalConfig nextHop) actions := by
  apply Outlook.along_of_along (callSystem_describes app)
    (fun outline => Tally process outline.view) ?_ ?_ actions once
  · intro config action next outline nextOutline follows followed tally allowed _taken step
    have call : config.state.toCall = outline.view.call := congrArg Control.call follows.view
    rw [call] at allowed
    have later := tally.step step allowed
    refine ⟨later, Tally.countedOnce ?_⟩
    have view : next.state.control = nextOutline.view := followed.view
    rw [view]
    exact later
  · refine ⟨_, Outlook.follows_initial _, Call.Shape.initial globalConfig nextHop, ?_,
      Nat.le_refl _, nofun⟩
    exact Nat.le_add_right _ _

/-- The first hop fails, the second is busy, and the call is counted once. -/
theorem countedOnce_of_endsOnce_twoHops :
    CallAlong (App.deciding (sampleRelay [sampleHop "1", sampleHop "2"]))
      (fun _ _ next => CountedOnce sampleProcess next) sampleWorld
      (sampleOpening ++
        [.enter (.raises (.leg 0) sampleFail), .comeBack,
          .enter (.raises (.leg 1) sampleFail), .comeBack]) := by
  apply countedOnce_of_endsOnce
  decide

/-- As before, but the timer of the first attempt is still armed.  It tears down the
second leg once more, and the call is counted again. -/
theorem not_countedOnce :
    ¬CallAlong (App.deciding (sampleRelay [sampleHop "1", sampleHop "2"]))
      (fun _ _ next => CountedOnce sampleProcess next) sampleWorld
      (sampleOpening ++
        [.enter (.raises (.leg 0) sampleFail), .comeBack,
          .enter (.raises (.leg 1) sampleFail), .comeBack,
          .enter (.fires 0), .enter (.raises (.leg 1) .disconnect)]) := by
  decide

/-! ### At least once -/

def Call.rejected (call : Call) : Bool :=
  (call.policy.map fun decision => decide (decision.action = .reject)).getD false

def Call.hasEnded (call : Call) : Bool :=
  call.trunkEnded || call.rejected || call.currentEnded

def EndedCounted (process : Process) (config : CallConfig) : Prop :=
  config.state.hasEnded = true →
    process.metrics.disposed + 1 ≤ config.state.metrics.disposed

instance (process : Process) (config : CallConfig) :
    Decidable (EndedCounted process config) := by
  unfold EndedCounted
  infer_instance

/-- The trunk leg ends the call, or a rejection without an error is applied. -/
def EndsUncounted (app : App) (call : Call) : CallAction → Prop
  | .enter (.raises ua event) =>
      (ua = .trunk ∧ event.terminates = true) ∨
        (call.Asks ua event ∧ ∃ decision, app.decide event = .ok decision ∧
          decision.action = .reject ∧ decision.error = none)
  | _ => False

structure Unaccounted (process : Process) (control : Control) : Prop where
  shape : control.call.Shape
  uncounted : control.disposed = process.metrics.disposed
  running : control.call.hasEnded = false

structure Accounted (process : Process) (control : Control) : Prop where
  shape : control.call.Shape
  counted : process.metrics.disposed + 1 ≤ control.disposed

theorem StepCounts.disposed {app : App} {before after : Control} {action : CallAction}
    (counters : StepCounts app before after action) : before.disposed ≤ after.disposed := by
  by_cases counts : Counts app before.call action
  · rw [counters.counted counts]
    exact Nat.le_succ _
  · exact Nat.le_of_eq (counters.uncounted counts).symm

theorem Call.rejected_iff {call : Call} :
    call.rejected = true ↔
      ∃ decision, call.policy = some decision ∧ decision.action = .reject := by
  unfold Call.rejected
  cases call.policy with
  | none => simp
  | some decision => simp

theorem Accounted.step {app : App} {process : Process} {outline next : CallOutline}
    {action : CallAction} (accounted : Accounted process outline.view)
    (step : CallStep app outline action next) : Accounted process next.view :=
  ⟨step_shape step accounted.shape,
    Nat.le_trans accounted.counted (step_counts step accounted.shape).disposed⟩

theorem Unaccounted.counted {app : App} {process : Process} {outline next : CallOutline}
    {action : CallAction} (unaccounted : Unaccounted process outline.view)
    (counts : Counts app outline.view.call action) (step : CallStep app outline action next) :
    Accounted process next.view := by
  refine ⟨step_shape step unaccounted.shape, ?_⟩
  rw [(step_counts step unaccounted.shape).counted counts, unaccounted.uncounted]

/-- Every way to end the call but those of `EndsUncounted` counts it. -/
theorem Unaccounted.ended {app : App} {process : Process} {outline next : CallOutline}
    {action : CallAction} (unaccounted : Unaccounted process outline.view)
    (step : CallStep app outline action next) (ended : next.view.call.hasEnded = true) :
    Counts app outline.view.call action ∨ EndsUncounted app outline.view.call action := by
  have shape := unaccounted.shape
  have running := unaccounted.running
  simp only [Call.hasEnded, Bool.or_eq_false_iff] at running
  obtain ⟨⟨noTrunk, noReject⟩, noCurrent⟩ := running
  simp only [Call.hasEnded, Bool.or_eq_true] at ended
  rcases ended with (trunk | reject) | current
  · rw [step_trunkEnded step shape, noTrunk, Bool.false_or, Bool.and_eq_true] at trunk
    obtain ⟨event, rfl, terminates⟩ := enters_of_raisedBy trunk.2
    exact Or.inr (Or.inl ⟨rfl, terminates⟩)
  · obtain ⟨decision, adopted, rejects⟩ := Call.rejected_iff.mp reject
    rcases step_policy step with same | ⟨ua, event, taken, rfl, asks, asked, policy⟩
    · rw [same] at adopted
      have before : outline.view.call.rejected = true :=
        Call.rejected_iff.mpr ⟨decision, adopted, rejects⟩
      exact absurd (noReject.symm.trans before) Bool.false_ne_true
    · rw [policy] at adopted
      cases adopted
      by_cases carried : decision.error = none
      · exact Or.inr (Or.inr ⟨asks, decision, asked, rejects, carried⟩)
      · exact Or.inl (Or.inl ⟨asks, decision, asked, rejects, carried⟩)
  · by_cases starts : Originates app outline.view.call action
    · cases step_attempts step shape with
      | same action quiet kept => exact absurd starts quiet
      | started ua event ending starts finished originated =>
          rw [originated.currentEnded] at current
          cases current
    · rw [step_currentEnded step shape starts, noCurrent, Bool.false_or] at current
      cases serving : outline.view.call.uaO with
      | none =>
          rw [serving] at current
          cases current
      | some ref =>
          rw [serving, Option.map_some, Option.getD_some] at current
          obtain ⟨event, rfl, terminates⟩ := enters_of_raisedBy current
          exact Or.inl (Or.inr ⟨serving, terminates,
            fun failed => starts (Or.inr ⟨serving, failed⟩)⟩)

theorem step_answered {app : App} {outline next : CallOutline} {event : CCEvent}
    (step : CallStep app outline (.enter (.raises .trunk event)) next) :
    outline.view.call.trunk.isSome = true := by
  cases step with
  | enter label control ending happens =>
      cases happens with
      | raises ua event after ending answered effect => exact answered rfl

theorem step_adopts {app : App} {outline next : CallOutline} {ua : UaRef} {event : CCEvent}
    (step : CallStep app outline (.enter (.raises ua event)) next)
    (asks : outline.view.call.Asks ua event) {decision : PolicyDecision}
    (asked : app.decide event = .ok decision) : next.view.call.policy = some decision := by
  cases step with
  | enter label control ending happens =>
      rw [view_finish]
      cases happens with
      | raises ua event after ending answered effect =>
          refine effect.adopts ?_ asked
          unfold Call.Asks
          rw [Control.call_mapCall, Call.toBaseCallController_raise]
          exact asks

theorem EndsUncounted.ends {app : App} {outline next : CallOutline} {action : CallAction}
    (shape : outline.view.call.Shape) (step : CallStep app outline action next)
    (ends : EndsUncounted app outline.view.call action) : next.view.call.hasEnded = true := by
  cases action with
  | comeBack => exact ends.elim
  | enter label =>
      cases label with
      | raises ua event =>
          rcases ends with ⟨rfl, terminates⟩ | ⟨asks, decision, asked, reject, _⟩
          · rw [Call.hasEnded, step_trunkEnded step shape, step_answered step]
            simp [terminates]
          · have adopted := step_adopts step asks asked
            simp [Call.hasEnded, Call.rejected_iff.mpr ⟨decision, adopted, reject⟩]
      | _ => exact ends.elim

/-- Until the current leg has ended with no failover to follow or a rejection with an error has
been applied, the trunk leg does not end the call, and no rejection without an error is applied:
exactly then an ended call has been counted, at every moment of the run. -/
theorem endedCounted_iff (app : App) (process : Process) (globalConfig : GlobalConfig)
    (nextHop : Option (String × Nat)) (actions : List CallAction) :
    CallAlong app (fun _ _ next => EndedCounted process next)
        (process.newCall globalConfig nextHop) actions ↔
      (callSystem app).AlongUntil (fun config action => Counts app config.state.toCall action)
        (fun config action => ¬EndsUncounted app config.state.toCall action)
        (Config.initial (process.newCall globalConfig nextHop)) actions := by
  have call {config : CallConfig} {outline : CallOutline}
      (follows : callOutlook.Follows config outline) :
      config.state.toCall = outline.view.call := congrArg Control.call follows.view
  have counted {next : CallConfig} {outline : CallOutline}
      (followed : callOutlook.Follows next outline) (accounted : Accounted process outline.view) :
      EndedCounted process next := by
    have disposed : next.state.metrics.disposed = outline.view.disposed :=
      congrArg Control.disposed followed.view
    exact fun _ => disposed ▸ accounted.counted
  apply Outlook.along_iff_alongUntil (callSystem_describes app)
    (fun outline => Unaccounted process outline.view)
    (fun outline => Accounted process outline.view)
  · exact ⟨Call.Shape.initial globalConfig nextHop, rfl, rfl⟩
  · intro config action next outline nextOutline follows followed unaccounted counts step
    rw [call follows] at counts
    have accounted := unaccounted.counted counts step
    exact ⟨accounted, counted followed accounted⟩
  · intro config action next outline nextOutline followed accounted step
    exact ⟨accounted.step step, counted followed (accounted.step step)⟩
  · intro config action outline nextOutline follows unaccounted waits allowed step
    rw [call follows] at waits allowed
    refine ⟨step_shape step unaccounted.shape, ?_, Bool.not_eq_true _ ▸ fun ended => ?_⟩
    · exact ((step_counts step unaccounted.shape).uncounted waits).trans unaccounted.uncounted
    · exact (unaccounted.ended step ended).elim waits allowed
  · intro config action next outline nextOutline follows followed unaccounted waits step
    rw [call follows] at waits ⊢
    have ended : next.state.hasEnded = nextOutline.view.call.hasEnded :=
      congrArg (fun control => control.call.hasEnded) followed.view
    have disposed : next.state.metrics.disposed = process.metrics.disposed :=
      (congrArg Control.disposed followed.view).trans
        (((step_counts step unaccounted.shape).uncounted waits).trans unaccounted.uncounted)
    unfold EndedCounted
    rw [ended, disposed]
    constructor
    · intro holds ends
      exact Nat.not_succ_le_self _ (holds (ends.ends unaccounted.shape step))
    · exact fun allowed atEnd => absurd ((unaccounted.ended step atEnd).resolve_left waits) allowed

/-- The caller cancels while the first hop has not answered, and nothing is counted. -/
theorem not_endedCounted :
    ¬CallAlong (App.deciding (sampleRelay [sampleHop "1"]))
      (fun _ _ next => EndedCounted sampleProcess next) sampleWorld
      (sampleOpening ++ [.enter (.raises .trunk .disconnect), .comeBack]) := by
  decide

end AsPlatform
