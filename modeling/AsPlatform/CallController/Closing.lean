/-
When the outcome of a call has been counted.

A call is closed by a rejection that carries an error, and by the end of its current leg.
What its handlers count is what they close: as long as no leg ends twice and the trunk asks
once, a disposition is recorded by the steps that close the call and by no others.
-/

import AsPlatform.CallController.Accounting
import AsPlatform.CallController.Interpreter

namespace AsPlatform

open Reentrant

def PolicyDecision.refuses (decision : PolicyDecision) : Bool :=
  decide (decision.action = .reject) && decision.error.isSome

/-- The application has refused the call with an error, or the current leg has ended. -/
def Call.closed (call : Call) : Bool :=
  if call.legs = [] then (call.policy.map PolicyDecision.refuses).getD false
  else call.currentEnded

structure Call.Decided (call : Call) : Prop where
  shape : call.Shape
  asked : call.policy.isSome = true → call.tried = true

theorem PolicyDecision.refuses_iff {decision : PolicyDecision} :
    decision.refuses = true ↔ decision.action = .reject ∧ decision.error ≠ none := by
  simp [refuses, Option.isSome_iff_ne_none]

theorem Call.closed_of_unrouted {call : Call} (unrouted : call.legs = []) :
    call.closed = (call.policy.map PolicyDecision.refuses).getD false :=
  if_pos unrouted

theorem Call.closed_of_routed {call : Call} (routed : call.legs ≠ []) :
    call.closed = call.currentEnded :=
  if_neg routed

theorem Call.Decided.unclosed {call : Call} (decided : call.Decided)
    (unsettled : call.settled = false) : call.closed = false := by
  by_cases unrouted : call.legs = []
  · rw [Call.settled, if_pos unrouted] at unsettled
    rw [Call.closed_of_unrouted unrouted]
    cases adopted : call.policy with
    | none => rfl
    | some decision =>
        have tried := decided.asked (by rw [adopted]; rfl)
        exact absurd (unsettled.symm.trans tried) Bool.false_ne_true
  · rw [Call.settled, if_neg unrouted] at unsettled
    rw [Call.closed_of_routed unrouted]
    exact unsettled

theorem Call.Decided.trunk_of_closed {call : Call} (decided : call.Decided)
    (closed : call.closed = true) : call.trunk.isSome = true := by
  apply decided.shape.trunk_of_settled
  by_contra unsettled
  have unclosed := decided.unclosed (Bool.not_eq_true _ ▸ unsettled)
  exact Bool.false_ne_true (unclosed.symm.trans closed)

section Steps

variable {app : App} {outline next : CallOutline} {action : CallAction}

theorem step_decided (step : CallStep app outline action next)
    (decided : outline.view.call.Decided) : next.view.call.Decided := by
  refine ⟨step_shape step decided.shape, fun adopted => ?_⟩
  rcases step_policy step with same | ⟨ua, event, decision, rfl, asks, asked, policy⟩
  · rw [same] at adopted
    have before := decided.asked adopted
    have answering : outline.view.call.trunk.isSome = true := by
      unfold Call.tried at before
      cases present : outline.view.call.trunk with
      | none =>
          rw [present] at before
          cases before
      | some ua => rfl
    rw [step_tried step decided.shape answering, before, Bool.true_or]
  · obtain ⟨rfl, answering⟩ := decided.shape.trunk_of_uaA asks.1
    rw [step_tried step decided.shape answering, Bool.or_eq_true]
    right
    simp [asks.2.2]

theorem Originated.routed {before after : Control} {ua : UaRef} {event : CCEvent}
    {ending : CallEnding} (originated : Originated app before ua event after ending) :
    after.call.legs ≠ [] := by
  have added {hop : NextHop} {clears : Bool} {middle : Control}
      (attempt : AttemptEffect clears hop middle after ending) : after.call.legs ≠ [] := by
    obtain ⟨leg, legs, _⟩ := attempt.done.legs
    rw [legs]
    exact List.append_ne_nil_of_right_ne_nil _ (List.cons_ne_nil _ _)
  cases originated with
  | first decision hop rest unrouted asked action hops attempt => exact added attempt
  | failover hop rest current routed failed remaining attempt => exact added attempt

theorem step_reopened (step : CallStep app outline action next)
    (shape : outline.view.call.Shape) (starts : Originates app outline.view.call action) :
    next.view.call.closed = false := by
  cases step_attempts step shape with
  | same action quiet kept => exact absurd starts quiet
  | started ua event ending starts finished originated =>
      rw [Call.closed_of_routed originated.routed]
      exact originated.currentEnded

/-- A step that counts closes the call. -/
theorem step_closes (step : CallStep app outline action next)
    (shape : outline.view.call.Shape) (quiet : ¬Originates app outline.view.call action)
    (counts : Counts app outline.view.call action) : next.view.call.closed = true := by
  have legs := Call.legs_eq_nil_iff (step_sameAttempt step shape quiet).length
  obtain ⟨ua, event, rfl⟩ := counts.enters
  rcases counts with ⟨asks, decision, asked, reject, carried⟩ | ⟨current, terminates, _⟩
  · have unrouted := shape.legs_of_uaO.mpr asks.2.1
    rw [Call.closed_of_unrouted (legs.mpr unrouted), step_adopts step asks asked]
    exact PolicyDecision.refuses_iff.mpr ⟨reject, carried⟩
  · have routed : outline.view.call.legs ≠ [] := by
      intro none
      rw [shape.legs_of_uaO.mp none] at current
      cases current
    rw [Call.closed_of_routed fun none => routed (legs.mp none),
      step_currentEnded step shape quiet, current]
    simp [terminates]

/-- A step that neither counts nor starts an attempt leaves the call as open or closed as it
was. -/
theorem step_sameClosed (step : CallStep app outline action next)
    (decided : outline.view.call.Decided) (once : EndsOnce outline.view.call action)
    (quiet : ¬Originates app outline.view.call action)
    (uncounted : ¬Counts app outline.view.call action) :
    next.view.call.closed = outline.view.call.closed := by
  have shape := decided.shape
  have legs := Call.legs_eq_nil_iff (step_sameAttempt step shape quiet).length
  by_cases unrouted : outline.view.call.legs = []
  · rw [Call.closed_of_unrouted unrouted, Call.closed_of_unrouted (legs.mpr unrouted)]
    rcases step_policy step with same | ⟨ua, event, decision, rfl, asks, asked, policy⟩
    · rw [same]
    · obtain ⟨rfl, _⟩ := shape.trunk_of_uaA asks.1
      have untried := once.1 rfl asks.2.2
      have undecided : outline.view.call.policy = none := by
        cases adopted : outline.view.call.policy with
        | none => rfl
        | some other =>
            have tried := decided.asked (by rw [adopted]; rfl)
            exact absurd (untried.symm.trans tried) Bool.false_ne_true
      rw [policy, undecided, Option.map_some, Option.getD_some, Option.map_none, Option.getD_none]
      by_contra refuses
      obtain ⟨reject, carried⟩ := PolicyDecision.refuses_iff.mp (Bool.not_eq_false _ ▸ refuses)
      exact uncounted (Or.inl ⟨asks, decision, asked, reject, carried⟩)
  · rw [Call.closed_of_routed unrouted, Call.closed_of_routed fun none => unrouted (legs.mp none),
      step_currentEnded step shape quiet]
    cases serving : outline.view.call.uaO with
    | none => simp
    | some ref =>
        rw [Option.map_some, Option.getD_some]
        cases raised : (raisedBy ref action).any CCEvent.terminates with
        | false => rw [Bool.or_false]
        | true =>
            obtain ⟨event, rfl, terminates⟩ := enters_of_raisedBy raised
            exact absurd (Or.inr ⟨serving, terminates,
              fun failed => quiet (Or.inr ⟨serving, failed⟩)⟩) uncounted

/-- What a step counts it closes. -/
theorem step_balanced (step : CallStep app outline action next)
    (decided : outline.view.call.Decided) (once : EndsOnce outline.view.call action) :
    next.view.disposed + outline.view.call.closed.toNat =
      outline.view.disposed + next.view.call.closed.toNat := by
  have counters := step_counts step decided.shape
  by_cases starts : Originates app outline.view.call action
  · rw [counters.uncounted starts.uncounted, step_reopened step decided.shape starts,
      decided.unclosed (once.unsettled decided.shape (Or.inr starts))]
  · by_cases counts : Counts app outline.view.call action
    · rw [counters.counted counts, step_closes step decided.shape starts counts,
        decided.unclosed (once.unsettled decided.shape (Or.inl counts))]
      rfl
    · rw [counters.uncounted counts, step_sameClosed step decided once starts counts]

end Steps

/-! ### Calls that have come in -/

theorem NextHopEffect.started {event : CCEvent} {before after : Control} {ending : CallEnding}
    (effect : NextHopEffect event before after ending) : after.started = before.started := by
  cases effect with
  | failover hop rest after ending failed remaining attempt => exact attempt.done.started
  | relayed after ending kept relay =>
      exact relay.counters.2.1.trans (Control.relaying_counters event before).2.1

theorem TrunkEffect.started {app : App} {event : CCEvent} {ua : UaRef} {before after : Control}
    {ending : CallEnding} (effect : TrunkEffect app event ua before after ending) :
    after.started = before.started := by
  cases effect with
  | tornDown unrouted other => rfl
  | hookRaised error unrouted first raised => rfl
  | rejected decision after ending unrouted first asked action reject => cases reject <;> rfl
  | noHop decision unrouted first asked action empty => rfl
  | attempted decision hop rest after ending unrouted first asked action hops attempt =>
      exact attempt.done.started
  | relayed leg routed => rfl

theorem Effect.started {app : App} {before after : Control} {label : Label}
    {ending : CallEnding} (effect : Effect app before label after ending)
    (noInvite : label.isInvite = false) : after.started = before.started := by
  cases effect with
  | invite request after ending first effect => cases noInvite
  | raises ua event after ending answered effect =>
      cases effect with
      | stale notTrunk notCurrent => rfl
      | trunk after ending answering effect => exact effect.started
      | nextHop after ending notTrunk current effect => exact effect.started
  | connected value => rfl
  | fires timer after ending armed effect => cases effect <;> rfl
  | noAnswer after ending effect => cases effect <;> rfl
  | dispose => rfl

/-- The hook of the application returns for the INVITE, and the call is counted. -/
def App.takesIn (app : App) (request : Request) : Bool :=
  match app.inboundFields request with
  | .ok _ => true
  | .error _ => false

theorem receiveInvite_started (app : App) (request : Request) (world : World) :
    (receiveInvite app request world).stop.control.started =
      world.control.started + (app.takesIn request).toNat := by
  have captured : receiveInvite app request world =
      recvRequest app request (world.mapCall (Call.rememberRequest request)) := rfl
  rw [captured, App.takesIn]
  cases given : app.inboundFields request with
  | error error =>
      simp only [recvRequest, admitInvite, modifyCall, Handler.run_bind, Handler.run_modify,
        Handler.run_ofExcept, given, Prog.bind_ok, Prog.bind_error]
      rfl
  | ok fields =>
      by_cases accepted : KeysAccepted (world.isEnabledFor .info) (inboundKeys fields)
      · obtain ⟨last, ran, same⟩ := admitInvite_run app request fields
          (world.mapCall (Call.rememberRequest request)) given accepted
        simp only [recvRequest, Handler.run_bind, ran, Prog.bind_ok, Handler.run_get, modifyCall,
          Handler.run_modify, sipIdentity_callUa_run, callUa_recvRequest_run, Prog.ensure_call,
          Prog.ensure_ret]
        rw [Prog.stop_call, World.control_mapSipConf, World.control_mapCall, same]
        rfl
      · obtain ⟨last, raised, ran, same⟩ := admitInvite_refused app request fields
          (world.mapCall (Call.rememberRequest request)) given accepted
        simp only [recvRequest, Handler.run_bind, ran, Prog.bind_error]
        exact congrArg Control.started same

end AsPlatform
