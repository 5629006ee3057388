/-
Which steps start an attempt, and what an attempt is.

An attempt is started by the first event of the trunk leg that is relayed, and by an
event that makes the controller fail over.  No other step changes the legs there are,
the hops that are left, or the hop that is served.
-/

import AsPlatform.CallController.Shape

namespace AsPlatform

open Reentrant

namespace Call

theorem trunkConnected_mapUa (ref : UaRef) (change : Ua → Ua)
    (kept : ∀ ua, (change ua).connected = ua.connected) (call : Call) :
    (call.mapUa ref change).trunkConnected = call.trunkConnected := by
  unfold trunkConnected
  rw [toBaseCallController_mapUa]
  cases call.uaA with
  | none => rfl
  | some answering =>
      dsimp only
      rw [ua?_mapUa]
      split
      · cases call.ua? answering with
        | none => rfl
        | some ua => exact kept ua
      · rfl

@[simp] theorem trunkConnected_raise (ref : UaRef) (event : CCEvent) (call : Call) :
    (call.raise ref event).trunkConnected = call.trunkConnected :=
  trunkConnected_mapUa ref (Ua.raise event) (fun _ => rfl) call

@[simp] theorem trunkConnected_give (ref : UaRef) (event : CCEvent) (call : Call) :
    (call.give ref event).trunkConnected = call.trunkConnected :=
  trunkConnected_mapUa ref (Ua.give event) (fun _ => rfl) call

@[simp] theorem toBaseCallController_raise (ref : UaRef) (event : CCEvent) (call : Call) :
    (call.raise ref event).toBaseCallController = call.toBaseCallController :=
  toBaseCallController_mapUa ref (Ua.raise event) call

@[simp] theorem toBaseCallController_give (ref : UaRef) (event : CCEvent) (call : Call) :
    (call.give ref event).toBaseCallController = call.toBaseCallController :=
  toBaseCallController_mapUa ref (Ua.give event) call

@[simp] theorem timers_raise (ref : UaRef) (event : CCEvent) (call : Call) :
    (call.raise ref event).timers = call.timers :=
  timers_mapUa ref (Ua.raise event) call

@[simp] theorem timers_give (ref : UaRef) (event : CCEvent) (call : Call) :
    (call.give ref event).timers = call.timers :=
  timers_mapUa ref (Ua.give event) call

@[simp] theorem decideCalls_raise (ref : UaRef) (event : CCEvent) (call : Call) :
    (call.raise ref event).decideCalls = call.decideCalls :=
  decideCalls_mapUa ref (Ua.raise event) call

@[simp] theorem decideCalls_give (ref : UaRef) (event : CCEvent) (call : Call) :
    (call.give ref event).decideCalls = call.decideCalls :=
  decideCalls_mapUa ref (Ua.give event) call

end Call

theorem failsOver_raise {call : Call} {ref : UaRef} {raised event : CCEvent} :
    FailsOver (call.raise ref raised) event ↔ FailsOver call event := by
  simp [FailsOver]

def Originates (app : App) (call : Call) : CallAction → Prop
  | .enter (.raises ua event) =>
      (call.uaA = some ua ∧ call.uaO = none ∧ event.isTry = true ∧
        ∃ decision, app.decide event = .ok decision ∧ decision.action = .relay ∧
          decision.nextHops ≠ []) ∨
      (call.uaO = some ua ∧ FailsOver call event)
  | _ => False

inductive Originated (app : App) (before : Control) (ua : UaRef) (event : CCEvent)
    (after : Control) (ending : CallEnding) : Prop where
  | first (decision : PolicyDecision) (hop : NextHop) (rest : List NextHop)
      (unrouted : before.call.legs = []) (asked : app.decide event = .ok decision)
      (action : decision.action = .relay) (hops : decision.nextHops = hop :: rest)
      (attempt : AttemptEffect false hop
        ((before.mapCall (Call.raise ua event)).mapCall (Call.relaying decision rest))
        after ending)
  | failover (hop : NextHop) (rest : List NextHop) (current : before.call.uaO = some ua)
      (routed : before.call.legs ≠ []) (failed : FailsOver before.call event)
      (remaining : before.call.failoverHops = hop :: rest)
      (attempt : AttemptEffect true hop
        ((before.mapCall (Call.raise ua event)).mapCall (Call.dropHop rest))
        after ending)

structure Call.SameAttempt (before after : Call) : Prop where
  addresses : after.legs.map Ua.nhAddress = before.legs.map Ua.nhAddress
  uaO : after.uaO = before.uaO
  failoverHops : after.failoverHops = before.failoverHops
  servingHop : after.servingHop = before.servingHop
  nextHop : after.nextHop = before.nextHop

namespace Call

theorem SameAttempt.refl (call : Call) : SameAttempt call call :=
  ⟨rfl, rfl, rfl, rfl, rfl⟩

theorem SameAttempt.trans {first second third : Call} (earlier : SameAttempt first second)
    (later : SameAttempt second third) : SameAttempt first third where
  addresses := later.addresses.trans earlier.addresses
  uaO := later.uaO.trans earlier.uaO
  failoverHops := later.failoverHops.trans earlier.failoverHops
  servingHop := later.servingHop.trans earlier.servingHop
  nextHop := later.nextHop.trans earlier.nextHop

theorem SameAttempt.length {before after : Call} (same : SameAttempt before after) :
    after.legs.length = before.legs.length := by
  have lengths := congrArg List.length same.addresses
  simpa only [List.length_map] using lengths

theorem map_nhAddress_modify (legs : List Ua) (index : Nat) (change : Ua → Ua)
    (kept : ∀ ua, (change ua).nhAddress = ua.nhAddress) :
    (legs.modify index change).map Ua.nhAddress = legs.map Ua.nhAddress := by
  apply List.ext_getElem?
  intro position
  simp only [List.getElem?_map, List.getElem?_modify]
  split <;> cases legs[position]? <;> simp [kept]

theorem sameAttempt_mapUa (ref : UaRef) (change : Ua → Ua)
    (kept : ∀ ua, (change ua).nhAddress = ua.nhAddress) (call : Call) :
    SameAttempt call (call.mapUa ref change) := by
  cases ref with
  | trunk => exact ⟨rfl, rfl, rfl, rfl, rfl⟩
  | leg index => exact ⟨map_nhAddress_modify call.legs index change kept, rfl, rfl, rfl, rfl⟩

theorem sameAttempt_raise (ref : UaRef) (event : CCEvent) (call : Call) :
    SameAttempt call (call.raise ref event) :=
  sameAttempt_mapUa ref (Ua.raise event) (fun _ => rfl) call

theorem sameAttempt_give (ref : UaRef) (event : CCEvent) (call : Call) :
    SameAttempt call (call.give ref event) :=
  sameAttempt_mapUa ref (Ua.give event) (fun _ => rfl) call

theorem sameAttempt_cancelNoAnswerTimer (call : Call) :
    SameAttempt call call.cancelNoAnswerTimer := by
  constructor <;> simp

end Call

theorem RelayEffect.sameAttempt {event : CCEvent} {before after : Control}
    {ending : CallEnding} (effect : RelayEffect event before after ending) :
    Call.SameAttempt before.call after.call := by
  cases effect with
  | delivered ref answering => exact Call.sameAttempt_give ref event before.call
  | unanswered absent => exact Call.SameAttempt.refl before.call

theorem Control.relaying_sameAttempt (event : CCEvent) (control : Control) :
    Call.SameAttempt control.call (control.relaying event).call := by
  unfold Control.relaying
  split
  · exact Call.sameAttempt_cancelNoAnswerTimer control.call
  · split
    · exact Call.sameAttempt_cancelNoAnswerTimer control.call
    · exact Call.SameAttempt.refl control.call

theorem RejectEffect.sameAttempt {decision : PolicyDecision} {ref : UaRef}
    {before after : Control} {ending : CallEnding}
    (effect : RejectEffect decision ref before after ending) :
    Call.SameAttempt before.call after.call := by
  cases effect with
  | unjustified missing => exact Call.SameAttempt.refl before.call
  | answered error carried answerable =>
      exact (Call.sameAttempt_cancelNoAnswerTimer before.call).trans
        (Call.sameAttempt_give ref error.failEvent _)
  | unanswered error carried clash => exact Call.sameAttempt_cancelNoAnswerTimer before.call

theorem NoAnswerEffect.sameAttempt {before after : Control} {ending : CallEnding}
    (effect : NoAnswerEffect before after ending) : Call.SameAttempt before.call after.call := by
  cases effect with
  | ignored settled => exact Call.SameAttempt.refl before.call
  | tornDown leg current away => exact Call.SameAttempt.refl before.call

theorem InviteEffect.sameAttempt {request : Request} {before after : Control}
    {ending : CallEnding} (effect : InviteEffect request before after ending) :
    Call.SameAttempt before.call after.call := by
  cases effect with
  | hookRaised => exact ⟨rfl, rfl, rfl, rfl, rfl⟩
  | lineRaised => exact ⟨rfl, rfl, rfl, rfl, rfl⟩
  | accepted ua new => exact ⟨rfl, rfl, rfl, rfl, rfl⟩

theorem Call.Shape.legs_of_uaO {call : Call} (shape : call.Shape) :
    call.legs = [] ↔ call.uaO = none := by
  rw [shape.current, Call.newestLeg, ← List.length_eq_zero_iff]
  cases call.legs.length <;> simp

theorem Call.Shape.uaO_ne_uaA {call : Call} (shape : call.Shape) {ref : UaRef}
    (current : call.uaO = some ref) : call.uaA ≠ some ref := by
  intro answering
  have trunk := (shape.trunk_of_uaA answering).1
  rw [shape.current, Call.newestLeg, trunk] at current
  split at current
  · cases current
  · cases current

/-- A step either starts an attempt, and then the action is one that does, or leaves
the attempts alone, and then it is not. -/
theorem EventEffect.originated {app : App} {before after : Control} {ua : UaRef}
    {event : CCEvent} {ending : CallEnding}
    (effect : EventEffect app event ua (before.mapCall (Call.raise ua event)) after ending)
    (shape : before.call.Shape) :
    (Originates app before.call (.enter (.raises ua event)) ∧
      Originated app before ua event after ending) ∨
    (¬Originates app before.call (.enter (.raises ua event)) ∧
      Call.SameAttempt before.call after.call) := by
  have raised := Call.sameAttempt_raise ua event before.call
  cases effect with
  | stale notTrunk notCurrent =>
      right
      simp only [Control.call_mapCall, Call.toBaseCallController_raise] at notTrunk notCurrent
      exact ⟨fun starts => starts.elim (fun first => notTrunk first.1)
        (fun failover => notCurrent failover.1), raised⟩
  | trunk after ending answering effect =>
      simp only [Control.call_mapCall, Call.toBaseCallController_raise] at answering
      -- The trunk is not the current leg, so only a first attempt can start here.
      have byTrunk := fun starts : Originates app before.call (.enter (.raises ua event)) =>
        starts.resolve_right fun failover => shape.uaO_ne_uaA failover.1 answering
      cases effect with
      | tornDown unrouted other =>
          right
          refine ⟨fun starts => ?_, raised.trans (Call.sameAttempt_give ua .disconnect _)⟩
          obtain ⟨_, _, first, _⟩ := byTrunk starts
          rw [other] at first
          cases first
      | hookRaised error unrouted first refused =>
          right
          refine ⟨fun starts => ?_, raised.trans ⟨rfl, rfl, rfl, rfl, rfl⟩⟩
          obtain ⟨_, _, _, decision, asked, _⟩ := byTrunk starts
          rw [refused] at asked
          cases asked
      | rejected decision after ending unrouted first asked action reject =>
          right
          have decided : Call.SameAttempt before.call
              ((before.mapCall (Call.raise ua event)).mapCall (Call.decided decision)).call :=
            raised.trans ⟨rfl, rfl, rfl, rfl, rfl⟩
          refine ⟨fun starts => ?_, decided.trans reject.sameAttempt⟩
          obtain ⟨_, _, _, other, askedToo, relay, _⟩ := byTrunk starts
          rw [asked] at askedToo
          cases askedToo
          rw [action] at relay
          cases relay
      | noHop decision unrouted first asked action empty =>
          right
          simp only [Control.call_mapCall, Call.toBaseCallController_raise] at unrouted
          have none := shape.unrouted (shape.legs_of_uaO.mpr unrouted)
          refine ⟨fun starts => ?_, ?_⟩
          · obtain ⟨_, _, _, other, askedToo, _, some⟩ := byTrunk starts
            rw [asked] at askedToo
            cases askedToo
            exact some empty
          · refine raised.trans ⟨rfl, rfl, ?_, rfl, rfl⟩
            rw [raised.failoverHops, none]
            rfl
      | attempted decision hop rest after ending unrouted first asked action hops attempt =>
          left
          simp only [Control.call_mapCall, Call.toBaseCallController_raise] at unrouted
          refine ⟨Or.inl ⟨answering, unrouted, first, decision, asked, action, ?_⟩, ?_⟩
          · rw [hops]
            exact List.cons_ne_nil hop rest
          · exact .first decision hop rest (shape.legs_of_uaO.mpr unrouted) asked action hops
              attempt
      | relayed leg routed =>
          right
          simp only [Control.call_mapCall, Call.toBaseCallController_raise] at routed
          refine ⟨fun starts => ?_, raised.trans (Call.sameAttempt_give leg event _)⟩
          obtain ⟨_, unrouted, _⟩ := byTrunk starts
          rw [routed] at unrouted
          cases unrouted
  | nextHop after ending notTrunk current effect =>
      simp only [Control.call_mapCall, Call.toBaseCallController_raise] at notTrunk current
      cases effect with
      | failover hop rest after ending failed remaining attempt =>
          left
          simp only [Control.call_mapCall, Call.toBaseCallController_raise] at remaining
          have fails : FailsOver before.call event := failsOver_raise.mp failed
          refine ⟨Or.inr ⟨current, fails⟩, .failover hop rest current ?_ fails remaining attempt⟩
          intro none
          rw [shape.unrouted none] at remaining
          cases remaining
      | relayed after ending kept relay =>
          right
          have relaying := Control.relaying_sameAttempt event
            (before.mapCall (Call.raise ua event))
          refine ⟨?_, Call.SameAttempt.trans (raised.trans relaying) relay.sameAttempt⟩
          rintro (⟨answering, _⟩ | ⟨_, failed⟩)
          · exact notTrunk answering
          · exact kept (failsOver_raise.mpr failed)

inductive StepAttempts (app : App) (outline next : CallOutline) : CallAction → Prop where
  | same (action : CallAction) (quiet : ¬Originates app outline.view.call action)
      (kept : Call.SameAttempt outline.view.call next.view.call) :
      StepAttempts app outline next action
  | started (ua : UaRef) (event : CCEvent) (ending : CallEnding)
      (starts : Originates app outline.view.call (.enter (.raises ua event)))
      (finished : next = outline.finish next.view ending)
      (originated : Originated app outline.view ua event next.view ending) :
      StepAttempts app outline next (.enter (.raises ua event))

theorem step_attempts {app : App} {outline next : CallOutline} {action : CallAction}
    (step : CallStep app outline action next) (shape : outline.view.call.Shape) :
    StepAttempts app outline next action := by
  cases step with
  | comeBack request clears suspended innermost =>
      refine .same .comeBack id ?_
      cases clears with
      | false => exact Call.SameAttempt.refl outline.view.call
      | true => exact Call.sameAttempt_cancelNoAnswerTimer outline.view.call
  | enter label control ending happens =>
      cases happens with
      | invite request after ending first effect =>
          refine .same _ id ?_
          rw [view_finish]
          exact effect.sameAttempt
      | raises ua event after ending answered effect =>
          rcases effect.originated shape with ⟨starts, originated⟩ | ⟨quiet, same⟩
          · refine .started ua event ending starts ?_ ?_
            · rw [view_finish]
            · rw [view_finish]
              exact originated
          · refine .same _ quiet ?_
            rw [view_finish]
            exact same
      | connected value =>
          refine .same _ id ?_
          rw [view_finish]
          exact Call.sameAttempt_mapUa .trunk (Ua.setConnected value) (fun _ => rfl) _
      | fires timer after ending armed effect =>
          refine .same _ id ?_
          rw [view_finish]
          have fired : Call.SameAttempt outline.view.call
              (outline.view.mapCall (Call.fireTimer timer)).call :=
            ⟨rfl, rfl, rfl, rfl, rfl⟩
          exact fired.trans effect.sameAttempt
      | noAnswer after ending effect =>
          refine .same _ id ?_
          rw [view_finish]
          exact effect.sameAttempt
      | dispose =>
          refine .same _ id ?_
          rw [view_finish]
          exact Call.sameAttempt_cancelNoAnswerTimer outline.view.call

theorem step_sameAttempt {app : App} {outline next : CallOutline} {action : CallAction}
    (step : CallStep app outline action next) (shape : outline.view.call.Shape)
    (quiet : ¬Originates app outline.view.call action) :
    Call.SameAttempt outline.view.call next.view.call := by
  cases step_attempts step shape with
  | same action quiet kept => exact kept
  | started ua event ending starts finished originated => exact absurd starts quiet

/-- Only a failover leaves something to do for when its call comes back. -/
theorem Effect.clears {app : App} {before after : Control} {label : Label} {request : UaCall}
    (effect : Effect app before label after (.called request true)) :
    Originates app before.call (.enter label) := by
  cases effect with
  | invite inbound after ending first effect => cases effect
  | fires timer after ending armed effect => cases effect
  | noAnswer after ending effect => cases effect
  | raises ua event after ending answered effect =>
      cases effect with
      | trunk after ending answering effect =>
          cases effect with
          | rejected decision after ending unrouted first asked action reject => cases reject
          | attempted decision hop rest after ending unrouted first asked action hops attempt =>
              cases attempt
      | nextHop after ending notTrunk current effect =>
          cases effect with
          | failover hop rest after ending failed remaining attempt =>
              rw [Control.call_mapCall, Call.toBaseCallController_raise] at current
              exact Or.inr ⟨current, failsOver_raise.mp failed⟩
          | relayed after ending kept relay => cases relay

/-! ### What an attempt leaves behind -/

structure AttemptDone (hop : NextHop) (before after : Control) (ending : CallEnding) :
    Prop where
  legs : ∃ leg : Ua, after.call.legs = before.call.legs ++ [leg] ∧
    leg.nhAddress = some hop.target ∧ leg.raised = [] ∧
    leg.received = (if ending = .raised then [] else before.call.pendingEvent.toList)
  timers : ∃ seconds : Rat, after.call.timers = before.call.timers ++
    [{ seconds := seconds, attempt := before.call.legs.length + 1 }]
  trunk : after.call.trunk = before.call.trunk
  decideCalls : after.call.decideCalls = before.call.decideCalls
  controller : after.call.toBaseCallController =
    { before.call.toBaseCallController with
      servingHop := some hop
      nextHop := some hop.target
      uaO := some (.leg before.call.legs.length)
      noAnswerTimer := some before.call.timers.length }
  started : after.started = before.started
  disposed : after.disposed = before.disposed
  isEnabledFor : after.isEnabledFor = before.isEnabledFor

theorem AttemptEffect.done {clears : Bool} {hop : NextHop} {before after : Control}
    {ending : CallEnding} (effect : AttemptEffect clears hop before after ending) :
    AttemptDone hop before after ending := by
  cases effect with
  | invited leg seconds pending new address waiting attemptable =>
      refine ⟨⟨leg.give pending, ?_, address, new.raised, ?_⟩, ⟨seconds, ?_⟩, rfl, ?_, ?_, rfl,
        rfl, rfl⟩
      · simp [Call.startAttempt, Call.give, Call.mapUa, Call.aimAt, Call.createLeg,
          Call.armNoAnswerTimer, List.modify_eq_take_drop]
      · simp [Ua.give, new.received, waiting]
      · simp [Call.startAttempt, Call.aimAt, Call.createLeg, Call.armNoAnswerTimer]
      · simp [Call.startAttempt, Call.aimAt, Call.createLeg, Call.armNoAnswerTimer]
      · simp [Call.startAttempt, Call.aimAt, Call.createLeg, Call.armNoAnswerTimer]
  | raised leg seconds new address refused =>
      refine ⟨⟨leg, rfl, address, new.raised, ?_⟩, ⟨seconds, ?_⟩, rfl, rfl, rfl, rfl, rfl, rfl⟩
      · simp [new.received]
      · simp [Call.startAttempt, Call.aimAt, Call.createLeg, Call.armNoAnswerTimer]

theorem Originated.length {app : App} {before after : Control} {ua : UaRef} {event : CCEvent}
    {ending : CallEnding} (originated : Originated app before ua event after ending) :
    after.call.legs.length = before.call.legs.length + 1 := by
  have grown {hop : NextHop} {clears : Bool} {middle : Control}
      (attempt : AttemptEffect clears hop middle after ending)
      (same : middle.call.legs.length = before.call.legs.length) :
      after.call.legs.length = before.call.legs.length + 1 := by
    obtain ⟨leg, legs, _⟩ := attempt.done.legs
    rw [legs, List.length_append, List.length_singleton, same]
  have raised : (before.call.raise ua event).legs.length = before.call.legs.length :=
    Call.length_legs_mapUa ua (Ua.raise event) before.call
  cases originated with
  | first decision hop rest unrouted asked action hops attempt => exact grown attempt raised
  | failover hop rest current routed failed remaining attempt => exact grown attempt raised

end AsPlatform
