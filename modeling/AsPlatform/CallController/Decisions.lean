/-
The decision of a call, once a leg exists.

The application is asked by the first event of the trunk leg that finds no leg.  From
then on the decision, the event to originate and the number of questions stay what they
are, and only an attempt that cannot be announced still raises an exception.
-/

import AsPlatform.CallController.Histories

namespace AsPlatform

open Reentrant

def Control.CanAttempt (control : Control) : Prop :=
  Attemptable control.isEnabledFor control.call.policy control.call.pendingEvent

structure SameDecision (before after : Control) : Prop where
  policy : after.call.policy = before.call.policy
  pendingEvent : after.call.pendingEvent = before.call.pendingEvent
  decideCalls : after.call.decideCalls = before.call.decideCalls
  trunk : after.call.trunk.isSome = before.call.trunk.isSome
  isEnabledFor : after.isEnabledFor = before.isEnabledFor

namespace SameDecision

theorem refl (control : Control) : SameDecision control control :=
  ⟨rfl, rfl, rfl, rfl, rfl⟩

theorem trans {first second third : Control} (earlier : SameDecision first second)
    (later : SameDecision second third) : SameDecision first third where
  policy := later.policy.trans earlier.policy
  pendingEvent := later.pendingEvent.trans earlier.pendingEvent
  decideCalls := later.decideCalls.trans earlier.decideCalls
  trunk := later.trunk.trans earlier.trunk
  isEnabledFor := later.isEnabledFor.trans earlier.isEnabledFor

theorem canAttempt {before after : Control} (same : SameDecision before after) :
    after.CanAttempt ↔ before.CanAttempt := by
  unfold Control.CanAttempt
  rw [same.policy, same.pendingEvent, same.isEnabledFor]

theorem mapUa (ref : UaRef) (change : Ua → Ua) (control : Control) :
    SameDecision control (control.mapCall (Call.mapUa ref change)) := by
  constructor <;> simp

theorem cancelNoAnswerTimer (control : Control) :
    SameDecision control (control.mapCall Call.cancelNoAnswerTimer) := by
  constructor <;> simp

end SameDecision

theorem afterCall_sameDecision (clears : Bool) (control : Control) :
    SameDecision control (afterCall clears control) := by
  cases clears with
  | false => exact .refl control
  | true => exact .cancelNoAnswerTimer control

theorem AttemptEffect.sameDecision {clears : Bool} {hop : NextHop} {before after : Control}
    {ending : CallEnding} (effect : AttemptEffect clears hop before after ending) :
    SameDecision before after where
  policy := by rw [effect.done.controller]
  pendingEvent := by rw [effect.done.controller]
  decideCalls := effect.done.decideCalls
  trunk := by rw [effect.done.trunk]
  isEnabledFor := effect.done.isEnabledFor

theorem RelayEffect.sameDecision {event : CCEvent} {before after : Control}
    {ending : CallEnding} (effect : RelayEffect event before after ending) :
    SameDecision before after := by
  cases effect with
  | delivered ref answering => exact .mapUa ref (Ua.give event) before
  | unanswered absent => exact .refl before

theorem Control.relaying_sameDecision (event : CCEvent) (control : Control) :
    SameDecision control (control.relaying event) := by
  unfold Control.relaying
  split
  · exact (SameDecision.cancelNoAnswerTimer control).trans ⟨rfl, rfl, rfl, rfl, rfl⟩
  · split
    · exact .cancelNoAnswerTimer control
    · exact .refl control

theorem NextHopEffect.sameDecision {event : CCEvent} {before after : Control}
    {ending : CallEnding} (effect : NextHopEffect event before after ending) :
    SameDecision before after := by
  cases effect with
  | failover hop rest after ending failed remaining attempt =>
      have dropped : SameDecision before (before.mapCall (Call.dropHop rest)) :=
        ⟨rfl, rfl, rfl, rfl, rfl⟩
      exact dropped.trans attempt.sameDecision
  | relayed after ending kept relay =>
      exact (Control.relaying_sameDecision event before).trans relay.sameDecision

theorem TrunkEffect.of_routed {app : App} {event : CCEvent} {ua : UaRef}
    {before after : Control} {ending : CallEnding}
    (effect : TrunkEffect app event ua before after ending) (routed : before.call.uaO ≠ none) :
    ∃ leg, before.call.uaO = some leg ∧ after = before.mapCall (Call.give leg event) ∧
      ending = .called (.recvEvent leg event) false := by
  cases effect with
  | tornDown unrouted other => exact absurd unrouted routed
  | hookRaised error unrouted first raised => exact absurd unrouted routed
  | rejected decision after ending unrouted first asked action reject =>
      exact absurd unrouted routed
  | noHop decision unrouted first asked action empty => exact absurd unrouted routed
  | attempted decision hop rest after ending unrouted first asked action hops attempt =>
      exact absurd unrouted routed
  | relayed leg current => exact ⟨leg, current, rfl, rfl⟩

theorem EventEffect.sameDecision {app : App} {event : CCEvent} {ua : UaRef}
    {before after : Control} {ending : CallEnding}
    (effect : EventEffect app event ua before after ending) (routed : before.call.uaO ≠ none) :
    SameDecision before after := by
  cases effect with
  | stale notTrunk notCurrent => exact .refl before
  | trunk after ending answering effect =>
      obtain ⟨leg, _, rfl, _⟩ := effect.of_routed routed
      exact .mapUa leg (Ua.give event) before
  | nextHop after ending notTrunk current effect => exact effect.sameDecision

def Call.Asks (call : Call) (ua : UaRef) (event : CCEvent) : Prop :=
  call.uaA = some ua ∧ call.uaO = none ∧ event.isTry = true

/-- The decision is the one before, or the one the application has just taken. -/
def PolicyKept (app : App) (before after : Call) (ua : UaRef) (event : CCEvent) : Prop :=
  after.policy = before.policy ∨
    (before.Asks ua event ∧ ∃ decision, app.decide event = .ok decision ∧
      after.policy = some decision)

theorem RejectEffect.policy {decision : PolicyDecision} {ua : UaRef} {before after : Control}
    {ending : CallEnding} (effect : RejectEffect decision ua before after ending) :
    after.call.policy = before.call.policy := by
  cases effect with
  | unjustified missing => rfl
  | answered error carried answerable => simp
  | unanswered error carried clash => simp

theorem EventEffect.policy {app : App} {event : CCEvent} {ua : UaRef}
    {before after : Control} {ending : CallEnding}
    (effect : EventEffect app event ua before after ending) :
    PolicyKept app before.call after.call ua event := by
  cases effect with
  | stale notTrunk notCurrent => exact Or.inl rfl
  | trunk after ending answering effect =>
      cases effect with
      | tornDown unrouted other => exact Or.inl (by simp)
      | hookRaised error unrouted first raised => exact Or.inl rfl
      | rejected decision after ending unrouted first asked action reject =>
          exact Or.inr ⟨⟨answering, unrouted, first⟩, decision, asked, reject.policy⟩
      | noHop decision unrouted first asked action empty =>
          exact Or.inr ⟨⟨answering, unrouted, first⟩, decision, asked, rfl⟩
      | attempted decision hop rest after ending unrouted first asked action hops attempt =>
          exact Or.inr ⟨⟨answering, unrouted, first⟩, decision, asked,
            attempt.sameDecision.policy⟩
      | relayed leg routed => exact Or.inl (by simp)
  | nextHop after ending notTrunk current effect => exact Or.inl effect.sameDecision.policy

theorem RejectEffect.levels {decision : PolicyDecision} {ua : UaRef} {before after : Control}
    {ending : CallEnding} (effect : RejectEffect decision ua before after ending) :
    after.isEnabledFor = before.isEnabledFor ∧
      after.call.decideCalls = before.call.decideCalls := by
  cases effect with
  | unjustified missing => exact ⟨rfl, rfl⟩
  | answered error carried answerable => exact ⟨rfl, by simp⟩
  | unanswered error carried clash => exact ⟨rfl, by simp⟩

/-- No event changes which levels are logged, and only one that makes the controller ask
the application adds to the number of questions. -/
theorem EventEffect.levels {app : App} {event : CCEvent} {ua : UaRef}
    {before after : Control} {ending : CallEnding}
    (effect : EventEffect app event ua before after ending) :
    after.isEnabledFor = before.isEnabledFor ∧
      (¬before.call.Asks ua event → after.call.decideCalls = before.call.decideCalls) := by
  cases effect with
  | stale notTrunk notCurrent => exact ⟨rfl, fun _ => rfl⟩
  | nextHop after ending notTrunk current effect =>
      exact ⟨effect.sameDecision.isEnabledFor, fun _ => effect.sameDecision.decideCalls⟩
  | trunk after ending answering effect =>
      cases effect with
      | tornDown unrouted other => exact ⟨rfl, fun _ => by simp⟩
      | hookRaised error unrouted first raised =>
          exact ⟨rfl, fun quiet => absurd ⟨answering, unrouted, first⟩ quiet⟩
      | rejected decision after ending unrouted first asked action reject =>
          exact ⟨reject.levels.1, fun quiet => absurd ⟨answering, unrouted, first⟩ quiet⟩
      | noHop decision unrouted first asked action empty =>
          exact ⟨rfl, fun quiet => absurd ⟨answering, unrouted, first⟩ quiet⟩
      | attempted decision hop rest after ending unrouted first asked action hops attempt =>
          exact ⟨attempt.sameDecision.isEnabledFor,
            fun quiet => absurd ⟨answering, unrouted, first⟩ quiet⟩
      | relayed leg routed => exact ⟨rfl, fun _ => by simp⟩

/-- What the application has just decided is adopted, whatever becomes of it. -/
theorem EventEffect.adopts {app : App} {event : CCEvent} {ua : UaRef}
    {before after : Control} {ending : CallEnding}
    (effect : EventEffect app event ua before after ending) (asks : before.call.Asks ua event)
    {decision : PolicyDecision} (asked : app.decide event = .ok decision) :
    after.call.policy = some decision := by
  cases effect with
  | stale notTrunk notCurrent => exact absurd asks.1 notTrunk
  | nextHop after ending notTrunk current effect => exact absurd asks.1 notTrunk
  | trunk after ending answering effect =>
      cases effect with
      | tornDown unrouted other =>
          rw [asks.2.2] at other
          cases other
      | hookRaised error unrouted first raised =>
          rw [asked] at raised
          cases raised
      | rejected other after ending unrouted first askedToo action reject =>
          rw [asked] at askedToo
          cases askedToo
          exact reject.policy
      | noHop other unrouted first askedToo action empty =>
          rw [asked] at askedToo
          cases askedToo
          rfl
      | attempted other hop rest after ending unrouted first askedToo action hops attempt =>
          rw [asked] at askedToo
          cases askedToo
          exact attempt.sameDecision.policy
      | relayed leg routed =>
          rw [asks.2.1] at routed
          cases routed

/-- With a leg, only an attempt that cannot be announced raises. -/
theorem EventEffect.raised {app : App} {event : CCEvent} {ua : UaRef} {before after : Control}
    (effect : EventEffect app event ua before after .raised)
    (routed : before.call.uaO ≠ none) : ¬before.CanAttempt := by
  cases effect with
  | trunk after ending answering effect =>
      obtain ⟨leg, _, _, ended⟩ := effect.of_routed routed
      cases ended
  | nextHop after ending notTrunk current effect =>
      cases effect with
      | failover hop rest after ending failed remaining attempt =>
          cases attempt with
          | raised leg seconds new address refused => exact refused
      | relayed after ending kept relay => cases relay

theorem Call.Shape.invited_of_routed {call : Call} (shape : call.Shape)
    (routed : call.legs ≠ []) : call.trunkRequest ≠ none := by
  have admitted := shape.admitted (shape.routed routed)
  intro fresh
  rw [fresh] at admitted
  cases admitted

theorem Call.Shape.current_raise {call : Call} (shape : call.Shape) (routed : call.legs ≠ [])
    (ua : UaRef) (event : CCEvent) : (call.raise ua event).uaO ≠ none := by
  rw [Call.toBaseCallController_raise]
  exact fun unrouted => routed (shape.legs_of_uaO.mpr unrouted)

theorem Effect.sameDecision {app : App} {before after : Control} {label : Label}
    {ending : CallEnding} (effect : Effect app before label after ending)
    (shape : before.call.Shape) (routed : before.call.legs ≠ []) :
    SameDecision before after := by
  cases effect with
  | invite request after ending first effect =>
      exact absurd first (shape.invited_of_routed routed)
  | raises ua event after ending answered effect =>
      have current := shape.current_raise routed ua event
      exact (SameDecision.mapUa ua (Ua.raise event) before).trans (effect.sameDecision current)
  | connected value => exact .mapUa .trunk (Ua.setConnected value) before
  | fires timer after ending armed effect =>
      cases effect with
      | ignored settled => exact ⟨rfl, rfl, rfl, rfl, rfl⟩
      | tornDown leg current away => exact ⟨rfl, rfl, rfl, rfl, rfl⟩
  | noAnswer after ending effect =>
      cases effect with
      | ignored settled => exact .refl before
      | tornDown leg current away => exact .refl before
  | dispose => exact .cancelNoAnswerTimer before

theorem Effect.raised {app : App} {before after : Control} {label : Label}
    (effect : Effect app before label after .raised) (shape : before.call.Shape)
    (routed : before.call.legs ≠ []) : ¬before.CanAttempt := by
  cases effect with
  | invite request after ending first effect =>
      exact absurd first (shape.invited_of_routed routed)
  | raises ua event after ending answered effect =>
      have current := shape.current_raise routed ua event
      exact fun can => effect.raised current
        ((SameDecision.mapUa ua (Ua.raise event) before).canAttempt.mpr can)
  | fires timer after ending armed effect => cases effect
  | noAnswer after ending effect => cases effect

theorem step_sameDecision {app : App} {outline next : CallOutline} {action : CallAction}
    (step : CallStep app outline action next) (shape : outline.view.call.Shape)
    (routed : outline.view.call.legs ≠ []) : SameDecision outline.view next.view := by
  cases step with
  | enter label control ending happens =>
      rw [view_finish]
      exact happens.sameDecision shape routed
  | comeBack request clears suspended innermost => exact afterCall_sameDecision clears _

theorem step_policy {app : App} {outline next : CallOutline} {action : CallAction}
    (step : CallStep app outline action next) :
    next.view.call.policy = outline.view.call.policy ∨
      ∃ ua event decision, action = .enter (.raises ua event) ∧
        outline.view.call.Asks ua event ∧ app.decide event = .ok decision ∧
        next.view.call.policy = some decision := by
  cases step with
  | comeBack request clears suspended innermost =>
      exact Or.inl (afterCall_sameDecision clears outline.view).policy
  | enter label control ending happens =>
      rw [view_finish]
      cases happens with
      | invite request after ending first effect => cases effect <;> exact Or.inl rfl
      | raises ua event after ending answered effect =>
          rcases effect.policy with same | ⟨asks, decision, asked, adopted⟩
          · left
            rw [same, Control.call_mapCall, Call.toBaseCallController_raise]
          · right
            unfold Call.Asks at asks
            rw [Control.call_mapCall, Call.toBaseCallController_raise] at asks
            exact ⟨ua, event, decision, rfl, asks, asked, adopted⟩
      | connected value =>
          exact Or.inl (SameDecision.mapUa .trunk (Ua.setConnected value) outline.view).policy
      | fires timer after ending armed effect => cases effect <;> exact Or.inl rfl
      | noAnswer after ending effect => cases effect <;> exact Or.inl rfl
      | dispose => exact Or.inl (SameDecision.cancelNoAnswerTimer outline.view).policy

def AsksNow (call : Call) : CallAction → Prop
  | .enter (.raises ua event) => call.Asks ua event
  | _ => False

theorem step_levels {app : App} {outline next : CallOutline} {action : CallAction}
    (step : CallStep app outline action next) :
    next.view.isEnabledFor = outline.view.isEnabledFor ∧
      (¬AsksNow outline.view.call action →
        next.view.call.decideCalls = outline.view.call.decideCalls) := by
  cases step with
  | comeBack request clears suspended innermost =>
      have same := afterCall_sameDecision clears outline.view
      exact ⟨same.isEnabledFor, fun _ => same.decideCalls⟩
  | enter label control ending happens =>
      rw [view_finish]
      cases happens with
      | invite request after ending first effect => cases effect <;> exact ⟨rfl, fun _ => rfl⟩
      | raises ua event after ending answered effect =>
          obtain ⟨levels, asked⟩ := effect.levels
          refine ⟨levels, fun quiet => ?_⟩
          rw [asked, Control.call_mapCall, Call.decideCalls_raise]
          unfold Call.Asks
          rw [Control.call_mapCall, Call.toBaseCallController_raise]
          exact quiet
      | connected value =>
          have same := SameDecision.mapUa .trunk (Ua.setConnected value) outline.view
          exact ⟨same.isEnabledFor, fun _ => same.decideCalls⟩
      | fires timer after ending armed effect => cases effect <;> exact ⟨rfl, fun _ => rfl⟩
      | noAnswer after ending effect => cases effect <;> exact ⟨rfl, fun _ => rfl⟩
      | dispose =>
          have same := SameDecision.cancelNoAnswerTimer outline.view
          exact ⟨same.isEnabledFor, fun _ => same.decideCalls⟩

theorem AttemptEffect.ending {clears : Bool} {hop : NextHop} {before after : Control}
    {ending : CallEnding} (effect : AttemptEffect clears hop before after ending) :
    (ending = .raised ∧ ¬before.CanAttempt) ∨
      (before.CanAttempt ∧ ∃ pending, before.call.pendingEvent = some pending ∧
        ending = .called (.recvEvent (.leg before.call.legs.length) pending) clears) := by
  cases effect with
  | invited leg seconds pending new address waiting attemptable =>
      exact Or.inr ⟨attemptable, pending, waiting, rfl⟩
  | raised leg seconds new address refused => exact Or.inl ⟨rfl, refused⟩

theorem canAttempt_dropHop (ua : UaRef) (event : CCEvent) (rest : List NextHop)
    (control : Control) :
    ((control.mapCall (Call.raise ua event)).mapCall (Call.dropHop rest)).CanAttempt ↔
      control.CanAttempt := by
  have dropped : SameDecision (control.mapCall (Call.raise ua event))
      ((control.mapCall (Call.raise ua event)).mapCall (Call.dropHop rest)) :=
    ⟨rfl, rfl, rfl, rfl, rfl⟩
  exact ((SameDecision.mapUa ua (Ua.raise event) control).trans dropped).canAttempt

def raisedBy (ref : UaRef) : CallAction → List CCEvent
  | .enter label => label.raisedBy ref
  | .comeBack => []

@[simp] theorem raisedBy_raises (ref : UaRef) (event : CCEvent) :
    raisedBy ref (.enter (.raises ref event)) = [event] := if_pos rfl

theorem enters_of_raisedBy {ref : UaRef} {action : CallAction} {test : CCEvent → Bool}
    (raised : (raisedBy ref action).any test = true) :
    ∃ event, action = .enter (.raises ref event) ∧ test event = true := by
  cases action with
  | comeBack => cases raised
  | enter label =>
      cases label with
      | raises ua event =>
          by_cases same : ua = ref
          · subst same
            rw [raisedBy_raises, List.any_cons, List.any_nil, Bool.or_false] at raised
            exact ⟨event, rfl, raised⟩
          · rw [raisedBy, Label.raisedBy, if_neg same] at raised
            cases raised
      | _ => cases raised

theorem step_raised {app : App} {outline next : CallOutline} {action : CallAction}
    (step : CallStep app outline action next) (shape : outline.view.call.Shape) {ref : UaRef}
    {ua : Ua} (found : outline.view.call.ua? ref = some ua) :
    ∃ later, next.view.call.ua? ref = some later ∧
      later.raised = ua.raised ++ raisedBy ref action := by
  cases step with
  | enter label control ending happens =>
      rw [view_finish]
      exact ⟨_, happens.lives shape ref ua found, rfl⟩
  | comeBack request clears suspended innermost =>
      refine ⟨ua, ?_, by simp [raisedBy]⟩
      cases clears with
      | false => exact found
      | true => exact (Call.ua?_cancelNoAnswerTimer ref _).trans found

/-- The leg that an attempt adds has been given the outbound event, unless the attempt
could not be announced. -/
theorem AttemptEffect.newLeg {clears : Bool} {hop : NextHop} {before after : Control}
    {ending : CallEnding} (effect : AttemptEffect clears hop before after ending)
    {decision : PolicyDecision} (policy : before.call.policy = some decision)
    (pending : before.call.pendingEvent = decision.outboundEvent) {attempts : Nat}
    (length : before.call.legs.length = attempts) :
    ∃ leg : Ua, after.call.legs.drop attempts = [leg] ∧
      (leg.received.map some = [decision.outboundEvent] ↔
        Attemptable before.isEnabledFor (some decision) decision.outboundEvent) := by
  obtain ⟨leg, legs, _, _, received⟩ := effect.done.legs
  refine ⟨leg, ?_, ?_⟩
  · rw [legs, ← length, List.drop_left]
  · rw [← policy, ← pending, received]
    rcases effect.ending with ⟨raised, refused⟩ | ⟨canAttempt, event, waiting, called⟩
    · rw [if_pos raised]
      exact iff_of_false (by simp) refused
    · rw [called, if_neg (by simp), waiting]
      exact iff_of_true rfl (waiting ▸ canAttempt)

theorem Originated.newLeg {app : App} {decision : PolicyDecision} {before after : Control}
    {ua : UaRef} {event : CCEvent} {ending : CallEnding}
    (originated : Originated app before ua event after ending)
    (chosen : before.call.legs ≠ [] → before.call.policy = some decision ∧
      before.call.pendingEvent = decision.outboundEvent)
    (decided : before.call.legs = [] → app.decide event = .ok decision) :
    ∃ leg : Ua, after.call.legs.drop before.call.legs.length = [leg] ∧
      (leg.received.map some = [decision.outboundEvent] ↔
        Attemptable before.isEnabledFor (some decision) decision.outboundEvent) := by
  have length := Call.length_legs_mapUa ua (Ua.raise event) before.call
  cases originated with
  | first other hop rest unrouted asked action hops attempt =>
      rw [decided unrouted] at asked
      cases asked
      exact attempt.newLeg rfl rfl length
  | failover hop rest current routed failed remaining attempt =>
      obtain ⟨policy, pending⟩ := chosen routed
      have raised := Call.toBaseCallController_raise ua event before.call
      exact attempt.newLeg ((congrArg BaseCallController.policy raised).trans policy)
        ((congrArg BaseCallController.pendingEvent raised).trans pending) length

/-! ### A call whose application always takes one decision -/

theorem Call.Shape.decided {call : Call} (shape : call.Shape) {app : App}
    {decision : PolicyDecision}
    (decides : ∀ event, event.isTry = true → app.decide event = .ok decision) {ua : UaRef}
    {event : CCEvent} (starts : Originates app call (.enter (.raises ua event)))
    (unrouted : call.legs = []) : app.decide event = .ok decision := by
  rcases starts with ⟨_, _, first, _⟩ | ⟨current, _⟩
  · exact decides event first
  · rw [shape.legs_of_uaO.mp unrouted] at current
    cases current

structure Chosen (levels : LogLevel → Bool) (decision : PolicyDecision)
    (outline : CallOutline) : Prop where
  shape : outline.view.call.Shape
  levels : outline.view.isEnabledFor = levels
  chosen : outline.view.call.legs ≠ [] → outline.view.call.policy = some decision ∧
    outline.view.call.pendingEvent = decision.outboundEvent

theorem Chosen.initial (process : Process) (globalConfig : GlobalConfig)
    (nextHop : Option (String × Nat)) (decision : PolicyDecision) :
    Chosen process.isEnabledFor decision
      { view := (process.newCall globalConfig nextHop).control
        suspended := []
        escaped := 0 } :=
  ⟨Call.Shape.initial globalConfig nextHop, rfl, fun routed => absurd rfl routed⟩

theorem AttemptDone.chosen {hop : NextHop} {before after : Control} {ending : CallEnding}
    (done : AttemptDone hop before after ending) {decision : PolicyDecision}
    (chosen : before.call.policy = some decision ∧
      before.call.pendingEvent = decision.outboundEvent) :
    after.call.policy = some decision ∧
      after.call.pendingEvent = decision.outboundEvent := by
  rw [done.controller]
  exact chosen

theorem Chosen.step {app : App} {levels : LogLevel → Bool} {decision : PolicyDecision}
    {outline next : CallOutline} {action : CallAction} (chosen : Chosen levels decision outline)
    (decides : ∀ event, event.isTry = true → app.decide event = .ok decision)
    (step : CallStep app outline action next) : Chosen levels decision next := by
  refine ⟨step_shape step chosen.shape, (step_levels step).1.trans chosen.levels, ?_⟩
  intro routedNow
  cases step_attempts step chosen.shape with
  | same action quiet kept =>
      have routed : outline.view.call.legs ≠ [] :=
        fun none => routedNow ((Call.legs_eq_nil_iff kept.length).mpr none)
      have same := step_sameDecision step chosen.shape routed
      rw [same.policy, same.pendingEvent]
      exact chosen.chosen routed
  | started ua event ending starts finished originated =>
      have raised := Call.toBaseCallController_raise ua event outline.view.call
      cases originated with
      | first other hop rest unrouted asked action hops attempt =>
          rw [chosen.shape.decided decides starts unrouted] at asked
          cases asked
          exact attempt.done.chosen ⟨rfl, rfl⟩
      | failover hop rest current routed failed remaining attempt =>
          obtain ⟨policy, pending⟩ := chosen.chosen routed
          exact attempt.done.chosen
            ⟨(congrArg BaseCallController.policy raised).trans policy,
              (congrArg BaseCallController.pendingEvent raised).trans pending⟩

end AsPlatform
