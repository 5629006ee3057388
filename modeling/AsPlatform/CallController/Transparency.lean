/-
The controller as a switchboard.

Once there is an originating leg, what the trunk leg raises is delivered to the current
leg, and what the current leg raises is delivered to the trunk leg, unless it is used
up by a failover.  What a replaced leg raises is delivered to nobody.
-/

import AsPlatform.CallController.Isolation
import AsPlatform.CallController.Decisions
import AsPlatform.Library.Delivery

namespace AsPlatform

open Reentrant

/-- What a transparent relay delivers, and to whom. -/
def Call.delivers (call : Call) : CallAction → List (UaRef × CCEvent)
  | .enter (.raises ua event) =>
      if ua = .trunk then (call.uaO.map fun leg => (leg, event)).toList
      else if call.uaO = some ua ∧ ¬FailsOver call event then [(.trunk, event)]
      else []
  | _ => []

/-- Between the two moments every `UA` has received exactly what was delivered to it; a
leg that is new in between has first been given the event its attempts are given, or
its attempt raised before that. -/
structure Relayed (before : Call) (deliveries : List (UaRef × CCEvent))
    (after : Call) : Prop where
  known : ∀ ref ua, before.ua? ref = some ua → ∃ later,
    after.ua? ref = some later ∧ later.received = ua.received ++ inbox ref deliveries
  added : ∀ ref later, before.ua? ref = none → after.ua? ref = some later →
    ∃ invite, (invite = [] ∨ invite = before.pendingEvent.toList) ∧
      later.received = invite ++ inbox ref deliveries
  absent : ∀ ref, after.ua? ref = none → inbox ref deliveries = []
  pendingEvent : after.pendingEvent = before.pendingEvent

namespace Relayed

theorem refl (call : Call) : Relayed call [] call where
  known := fun _ ua found => ⟨ua, found, (List.append_nil _).symm⟩
  added := fun _ _ none some => by
    rw [none] at some
    cases some
  absent := fun _ _ => rfl
  pendingEvent := rfl

theorem absent_before {before after : Call} {deliveries : List (UaRef × CCEvent)}
    (relayed : Relayed before deliveries after) {ref : UaRef}
    (none : after.ua? ref = none) : before.ua? ref = Option.none := by
  cases found : before.ua? ref with
  | none => rfl
  | some ua =>
      obtain ⟨later, present, _⟩ := relayed.known ref ua found
      rw [none] at present
      cases present

theorem trans {first second third : Call} {earlier later : List (UaRef × CCEvent)}
    (before : Relayed first earlier second) (after : Relayed second later third) :
    Relayed first (earlier ++ later) third := by
  constructor
  · intro ref ua found
    obtain ⟨middle, present, received⟩ := before.known ref ua found
    obtain ⟨last, still, onward⟩ := after.known ref middle present
    refine ⟨last, still, ?_⟩
    rw [onward, received, inbox_append, List.append_assoc]
  · intro ref last none present
    cases found : second.ua? ref with
    | some middle =>
        obtain ⟨invite, first, received⟩ := before.added ref middle none found
        obtain ⟨same, still, onward⟩ := after.known ref middle found
        rw [present] at still
        cases still
        refine ⟨invite, first, ?_⟩
        rw [onward, received, inbox_append, List.append_assoc]
    | none =>
        obtain ⟨invite, first, received⟩ := after.added ref last found present
        rw [before.pendingEvent] at first
        refine ⟨invite, first, ?_⟩
        rw [received, inbox_append, before.absent ref found, List.nil_append]
  · intro ref none
    rw [inbox_append, after.absent ref none, before.absent ref (after.absent_before none),
      List.append_nil]
  · exact after.pendingEvent.trans before.pendingEvent

end Relayed

/-! ### What a step delivers -/

theorem Call.Shape.uaA_of_routed {call : Call} (shape : call.Shape) (routed : call.legs ≠ []) :
    call.uaA = some .trunk := by
  rw [shape.answering, if_pos (shape.routed routed)]

theorem Call.Shape.uaO_of_routed {call : Call} (shape : call.Shape) (routed : call.legs ≠ []) :
    call.uaO = some (.leg (call.legs.length - 1)) := by
  rw [shape.current, Call.newestLeg]
  cases length : call.legs.length with
  | zero => exact absurd (List.length_eq_zero_iff.mp length) routed
  | succ attempts => rfl

theorem Call.Shape.trunk_ne_uaO {call : Call} (shape : call.Shape) :
    call.uaO ≠ some .trunk := by
  rw [shape.current, Call.newestLeg]
  split <;> simp

theorem delivers_trunk {call : Call} {leg : UaRef} (event : CCEvent)
    (current : call.uaO = some leg) :
    call.delivers (.enter (.raises .trunk event)) = [(leg, event)] := by
  simp [Call.delivers, current]

theorem delivers_current {call : Call} {ua : UaRef} {event : CCEvent} (notTrunk : ua ≠ .trunk)
    (current : call.uaO = some ua) (kept : ¬FailsOver call event) :
    call.delivers (.enter (.raises ua event)) = [(.trunk, event)] := by
  simp [Call.delivers, notTrunk, current, kept]

theorem delivers_failover {call : Call} {ua : UaRef} {event : CCEvent} (notTrunk : ua ≠ .trunk)
    (failed : FailsOver call event) : call.delivers (.enter (.raises ua event)) = [] := by
  simp [Call.delivers, notTrunk, failed]

theorem delivers_stale {call : Call} {ua : UaRef} {event : CCEvent} (notTrunk : ua ≠ .trunk)
    (notCurrent : call.uaO ≠ some ua) : call.delivers (.enter (.raises ua event)) = [] := by
  simp [Call.delivers, notTrunk, notCurrent]

/-- The leg an attempt adds is not there before. -/
theorem AttemptEffect.givenTo_older {clears : Bool} {hop : NextHop} {before after : Control}
    {ending : CallEnding} (effect : AttemptEffect clears hop before after ending) {ref : UaRef}
    (older : ref ≠ .leg before.call.legs.length) : givenTo ref ending = [] := by
  cases effect with
  | invited leg seconds pending new address waiting attemptable =>
      exact if_neg (fun same => older same.symm)
  | raised leg seconds new address refused => rfl

theorem RelayEffect.givenTo {event : CCEvent} {before after : Control} {ending : CallEnding}
    (effect : RelayEffect event before after ending) (answering : before.call.uaA = some .trunk)
    (ref : UaRef) : givenTo ref ending = inbox ref [(.trunk, event)] := by
  rw [inbox_singleton]
  cases effect with
  | delivered target given =>
      rw [answering, Option.some.injEq] at given
      rw [← given]
      rfl
  | unanswered absent =>
      rw [answering] at absent
      cases absent

/-- With an originating leg, an event gives every `UA` there is what the switchboard
delivers to it. -/
theorem EventEffect.delivers {app : App} {before after : Control} {ua : UaRef}
    {event : CCEvent} {ending : CallEnding}
    (effect : EventEffect app event ua (before.mapCall (Call.raise ua event)) after ending)
    (shape : before.call.Shape) (routed : before.call.legs ≠ []) {ref : UaRef}
    (older : ref ≠ .leg before.call.legs.length) :
    givenTo ref ending = inbox ref (before.call.delivers (.enter (.raises ua event))) := by
  have answering := shape.uaA_of_routed routed
  have raised := Call.toBaseCallController_raise ua event before.call
  have length := Call.length_legs_mapUa ua (Ua.raise event) before.call
  cases effect with
  | stale notTrunk notCurrent =>
      rw [Control.call_mapCall, raised, answering] at notTrunk
      rw [Control.call_mapCall, raised] at notCurrent
      rw [delivers_stale (fun same => notTrunk (congrArg some same.symm)) notCurrent]
      rfl
  | trunk after ending entered effect =>
      rw [Control.call_mapCall, raised, answering, Option.some.injEq] at entered
      subst entered
      obtain ⟨leg, current, _, rfl⟩ := effect.of_routed (by
        rw [Control.call_mapCall, raised, Ne, ← shape.legs_of_uaO]
        exact routed)
      rw [Control.call_mapCall, raised] at current
      rw [delivers_trunk event current, inbox_singleton]
      rfl
  | nextHop after ending notTrunk current effect =>
      rw [Control.call_mapCall, raised, answering] at notTrunk
      rw [Control.call_mapCall, raised] at current
      have other : ua ≠ .trunk := fun same => notTrunk (congrArg some same.symm)
      cases effect with
      | failover hop rest after ending failed remaining attempt =>
          rw [delivers_failover other (failsOver_raise.mp failed)]
          refine attempt.givenTo_older ?_
          change ref ≠ .leg (before.call.mapUa ua (Ua.raise event)).legs.length
          rw [length]
          exact older
      | relayed after ending kept relay =>
          rw [delivers_current other current (fun failed => kept (failsOver_raise.mpr failed))]
          refine relay.givenTo ?_ ref
          have same := Control.relaying_sameAttempt event
            (before.mapCall (Call.raise ua event))
          refine (Control.relaying_shape (shape.mapUa ua (Ua.raise event))
            event).uaA_of_routed ?_
          rw [Ne, Call.legs_eq_nil_iff (same.length.trans length)]
          exact routed

theorem NoAnswerEffect.givenTo {before after : Control} {ending : CallEnding}
    (effect : NoAnswerEffect before after ending) (ref : UaRef) : givenTo ref ending = [] := by
  cases effect with
  | ignored settled => rfl
  | tornDown leg current away => rfl

theorem Effect.delivers {app : App} {before after : Control} {label : Label}
    {ending : CallEnding} (effect : Effect app before label after ending)
    (shape : before.call.Shape) (routed : before.call.legs ≠ []) {ref : UaRef}
    (older : ref ≠ .leg before.call.legs.length) :
    givenTo ref ending = inbox ref (before.call.delivers (.enter label)) := by
  cases effect with
  | invite request after ending first effect =>
      exact absurd first (shape.invited_of_routed routed)
  | raises ua event after ending answered effect => exact effect.delivers shape routed older
  | connected value => rfl
  | fires timer after ending armed effect => exact effect.givenTo ref
  | noAnswer after ending effect => exact effect.givenTo ref
  | dispose => rfl

/-- The switchboard delivers only to the trunk leg and to the current leg. -/
theorem Call.Shape.delivers_absent {call : Call} (shape : call.Shape) (routed : call.legs ≠ [])
    (action : CallAction) {ref : UaRef} (absent : call.ua? ref = none) :
    inbox ref (call.delivers action) = [] := by
  have trunk : ref ≠ .trunk := by
    rintro rfl
    have present := shape.routed routed
    change call.trunk = none at absent
    rw [absent] at present
    cases present
  have current : call.uaO ≠ some ref := by
    rw [shape.uaO_of_routed routed]
    rintro same
    cases same
    rw [Call.ua?, List.getElem?_eq_none_iff] at absent
    have some := List.length_pos_iff.mpr routed
    omega
  unfold Call.delivers
  split
  · split
    · cases found : call.uaO with
      | none => rfl
      | some leg =>
          rw [Option.map_some, Option.toList_some, inbox_singleton, if_neg]
          rintro rfl
          exact current found
    · split
      · rw [inbox_singleton, if_neg (fun same => trunk same.symm)]
      · rfl
  · rfl

/-- A leg that an attempt adds has been given at most the event of the attempts. -/
theorem Originated.added {app : App} {before after : Control} {ua : UaRef} {event : CCEvent}
    {ending : CallEnding} (originated : Originated app before ua event after ending)
    (shape : before.call.Shape) (routed : before.call.legs ≠ []) {ref : UaRef} {later : Ua}
    (absent : before.call.ua? ref = none) (present : after.call.ua? ref = some later) :
    (later.received = [] ∨ later.received = before.call.pendingEvent.toList) ∧
      before.call.delivers (.enter (.raises ua event)) = [] := by
  cases originated with
  | first decision hop rest unrouted asked action hops attempt => exact absurd unrouted routed
  | failover hop rest current _ failed remaining attempt =>
      have notTrunk : ua ≠ .trunk := by
        rintro rfl
        exact shape.trunk_ne_uaO current
      refine ⟨?_, delivers_failover notTrunk failed⟩
      obtain ⟨leg, legs, _, _, received⟩ := attempt.done.legs
      change after.call.legs = (before.call.raise ua event).legs ++ [leg] at legs
      change leg.received =
        if ending = .raised then [] else (before.call.raise ua event).pendingEvent.toList
        at received
      rw [Call.toBaseCallController_raise] at received
      cases ref with
      | trunk =>
          have answered := shape.routed routed
          change before.call.trunk = none at absent
          rw [absent] at answered
          cases answered
      | leg index =>
          have length := Call.length_legs_mapUa ua (Ua.raise event) before.call
          rw [Call.ua?, List.getElem?_eq_none_iff] at absent
          rw [Call.ua?, legs, List.getElem?_append_right (by rw [Call.raise, length]; exact absent),
            List.getElem?_singleton] at present
          split at present
          · cases present
            rw [received]
            split
            · exact Or.inl rfl
            · exact Or.inr rfl
          · cases present

theorem Call.SameAttempt.absent {before after : Call} (same : Call.SameAttempt before after)
    (shape : before.Shape) (routed : before.legs ≠ []) {ref : UaRef}
    (absent : before.ua? ref = none) : after.ua? ref = none := by
  cases ref with
  | trunk =>
      have answered := shape.routed routed
      change before.trunk = none at absent
      rw [absent] at answered
      cases answered
  | leg index =>
      rw [Call.ua?, List.getElem?_eq_none_iff] at absent ⊢
      rw [same.length]
      exact absent

theorem step_relayed {app : App} {outline next : CallOutline} {action : CallAction}
    (step : CallStep app outline action next) (shape : outline.view.call.Shape)
    (routed : outline.view.call.legs ≠ []) :
    Relayed outline.view.call (outline.view.call.delivers action) next.view.call := by
  have known : ∀ ref ua, outline.view.call.ua? ref = some ua → ∃ later,
      next.view.call.ua? ref = some later ∧
        later.received = ua.received ++ inbox ref (outline.view.call.delivers action) := by
    intro ref ua found
    cases step with
    | enter label control ending happens =>
        have older : ref ≠ .leg outline.view.call.legs.length := by
          rintro rfl
          rw [Call.ua?_leg_length] at found
          cases found
        rw [view_finish, ← happens.delivers shape routed older]
        exact ⟨_, happens.lives shape ref ua found, rfl⟩
    | comeBack request clears suspended innermost =>
        refine ⟨ua, ?_, (List.append_nil _).symm⟩
        cases clears with
        | false => exact found
        | true => exact (Call.ua?_cancelNoAnswerTimer ref _).trans found
  refine ⟨known, ?_, ?_, (step_sameDecision step shape routed).pendingEvent⟩
  · intro ref later absent present
    cases step_attempts step shape with
    | same action quiet kept =>
        rw [kept.absent shape routed absent] at present
        cases present
    | started ua event ending starts finished originated =>
        obtain ⟨invite, nothing⟩ := originated.added shape routed absent present
        exact ⟨later.received, invite, by rw [nothing]; simp⟩
  · intro ref absent
    apply shape.delivers_absent routed
    cases found : outline.view.call.ua? ref with
    | none => rfl
    | some ua =>
        obtain ⟨later, present, _⟩ := known ref ua found
        rw [absent] at present
        cases present

/-! ### Runs of the switchboard -/

def UsedUp (call : Call) (action : CallAction) : Prop :=
  ∃ leg event, action = .enter (.raises leg event) ∧ call.uaO = some leg ∧ FailsOver call event

structure Switched (config : CallConfig) (action : CallAction) (next : CallConfig) :
    Prop where
  relayed : Relayed config.state.toCall (config.state.delivers action) next.state.toCall
  onward : ∀ ua event delivery, action = .enter (.raises ua event) →
    delivery ∈ config.state.delivers action → delivery.1 ≠ ua ∧ delivery.2 = event
  attempts : (UsedUp config.state.toCall action ∧ config.state.delivers action = [] ∧
      next.state.legs.length = config.state.legs.length + 1) ∨
    (¬UsedUp config.state.toCall action ∧
      next.state.legs.length = config.state.legs.length)
  replaced : ∀ leg, config.state.uaO = some leg → next.state.uaO ≠ some leg →
    ∃ event, action = .enter (.raises leg event) ∧ event.terminates = true
  stale : StaleIgnored config action next

theorem Call.Shape.delivers_onward {call : Call} (shape : call.Shape) {ua : UaRef}
    {event : CCEvent} {delivery : UaRef × CCEvent}
    (delivered : delivery ∈ call.delivers (.enter (.raises ua event))) :
    delivery.1 ≠ ua ∧ delivery.2 = event := by
  by_cases trunk : ua = .trunk
  · subst trunk
    cases current : call.uaO with
    | none => simp [Call.delivers, current] at delivered
    | some leg =>
        rw [delivers_trunk event current, List.mem_singleton] at delivered
        subst delivered
        refine ⟨?_, rfl⟩
        rintro rfl
        exact shape.trunk_ne_uaO current
  · by_cases kept : call.uaO = some ua ∧ ¬FailsOver call event
    · rw [delivers_current trunk kept.1 kept.2, List.mem_singleton] at delivered
      subst delivered
      exact ⟨fun same => trunk same.symm, rfl⟩
    · simp [Call.delivers, trunk, kept] at delivered

structure Routed (outline : CallOutline) : Prop where
  shape : outline.view.call.Shape
  routed : outline.view.call.legs ≠ []

theorem Routed.step {app : App} {outline next : CallOutline} {action : CallAction}
    (routed : Routed outline) (step : CallStep app outline action next) : Routed next where
  shape := step_shape step routed.shape
  routed := by
    rw [← List.length_pos_iff]
    have some := List.length_pos_iff.mpr routed.routed
    cases step_attempts step routed.shape with
    | same action quiet kept => rw [kept.length]; exact some
    | started ua event ending starts finished originated => rw [originated.length]; omega

theorem switched_of_step {app : App} {config next : CallConfig} {action : CallAction}
    {outline nextOutline : CallOutline} (follows : callOutlook.Follows config outline)
    (followed : callOutlook.Follows next nextOutline) (routed : Routed outline)
    (taken : (callSystem app).step config action = some next)
    (step : CallStep app outline action nextOutline) : Switched config action next := by
  have before : config.state.toCall = outline.view.call := congrArg Control.call follows.view
  have after : next.state.toCall = nextOutline.view.call := congrArg Control.call followed.view
  have relayed := step_relayed step routed.shape routed.routed
  have onward : ∀ ua event delivery, action = .enter (.raises ua event) →
      delivery ∈ outline.view.call.delivers action → delivery.1 ≠ ua ∧ delivery.2 = event := by
    rintro ua event delivery rfl delivered
    exact routed.shape.delivers_onward delivered
  rw [← before, ← after] at relayed
  rw [← before] at onward
  have steps := step_attempts step routed.shape
  cases steps with
  | same action quiet kept =>
      refine ⟨relayed, onward, Or.inr ⟨?_, ?_⟩, ?_, staleIgnored taken⟩
      · rintro ⟨leg, event, rfl, current, failed⟩
        rw [before] at current failed
        exact quiet (Or.inr ⟨current, failed⟩)
      · rw [before, after]
        exact kept.length
      · intro leg current changed
        rw [after, kept.uaO, ← before] at changed
        exact absurd current changed
  | started ua event ending starts finished originated =>
      have length := originated.length
      rcases starts with ⟨_, unrouted, _⟩ | ⟨current, failed⟩
      · exact absurd (routed.shape.legs_of_uaO.mpr unrouted) routed.routed
      · have notTrunk : ua ≠ .trunk := by
          rintro rfl
          exact routed.shape.trunk_ne_uaO current
        refine ⟨relayed, onward, Or.inl ⟨⟨ua, event, rfl, ?_, ?_⟩, ?_, ?_⟩, ?_,
          staleIgnored taken⟩
        · rw [before]
          exact current
        · rw [before]
          exact failed
        · rw [before]
          exact delivers_failover notTrunk failed
        · rw [before, after]
          exact length
        · intro leg served _
          rw [before, current, Option.some.injEq] at served
          exact ⟨event, by rw [served], failed.1⟩

/-- From the moment there is an originating leg, every `UA` receives exactly what the
switchboard delivers to it, in order, whether or not the events come one by one. -/
theorem relay_transparent (app : App) (process : Process) (globalConfig : GlobalConfig)
    (nextHop : Option (String × Nat)) (earlier later : List CallAction)
    (middle last : CallConfig)
    (before : (callSystem app).run (Config.initial (process.newCall globalConfig nextHop))
      earlier = some middle)
    (routed : middle.state.legs ≠ []) (ran : (callSystem app).run middle later = some last) :
    Relayed middle.state.toCall
        ((callSystem app).delivered (fun config action => config.state.delivers action)
          middle later) last.state.toCall ∧
      (callSystem app).Along Switched middle later := by
  have kept : ∀ config action next, callOutlook.Keeps Routed config →
      (callSystem app).step config action = some next →
        callOutlook.Keeps Routed next ∧ Switched config action next := by
    rintro config action next ⟨outline, follows, inside⟩ taken
    obtain ⟨nextOutline, step, followed⟩ :=
      Outlook.follows_step (callSystem_describes app) follows taken
    exact ⟨⟨nextOutline, followed, inside.step step⟩,
      switched_of_step follows followed inside taken step⟩
  have start : callOutlook.Keeps Routed middle := by
    have shaped : callOutlook.Keeps (fun outline => outline.view.call.Shape) middle := by
      refine Outlook.keeps_reached (callSystem_describes app) _ ?_ ?_
        (System.Reaches.of_run earlier before)
      · exact Call.Shape.initial globalConfig nextHop
      · exact fun _ _ _ _ _ shape _ step => step_shape step shape
    obtain ⟨outline, follows, shape⟩ := shaped
    have call : middle.state.toCall = outline.view.call := congrArg Control.call follows.view
    exact ⟨outline, follows, shape, call ▸ routed⟩
  refine ⟨?_, System.along_of_invariant (callOutlook.Keeps Routed) start kept later⟩
  refine System.relates_run
    (fun first deliveries second => Relayed first.state.toCall deliveries second.state.toCall)
    (callOutlook.Keeps Routed) (fun config => .refl config.state.toCall)
    (fun _ _ _ _ _ => Relayed.trans) ?_ later start ran
  intro config action next inside taken
  have both := kept config action next inside taken
  exact ⟨both.1, both.2.relayed⟩

def sampleExchange : List CallAction :=
  [.enter (.raises (.leg 0) sampleFail), .comeBack, .enter (.raises .trunk .update), .comeBack,
    .enter (.raises (.leg 0) .disconnect), .enter (.raises (.leg 1) (.ring none)), .comeBack]

/-- The first leg fails and is replaced.  What the trunk leg raises then goes to the
second leg, what the second leg raises goes to the trunk leg, and what the first leg still
raises goes nowhere. -/
theorem relay_transparent_failover :
    ∃ middle last : CallConfig,
      (callSystem (App.deciding (sampleRelay [sampleHop "1", sampleHop "2"]))).run
          middle sampleExchange = some last ∧
        Relayed middle.state.toCall [(.leg 1, .update), (.trunk, .ring none)]
          last.state.toCall :=
  ⟨_, _, rfl, (relay_transparent (App.deciding (sampleRelay [sampleHop "1", sampleHop "2"]))
    sampleProcess { sipAddress := some "192.0.2.1" } none sampleOpening sampleExchange _ _ rfl
    (List.cons_ne_nil _ _) rfl).1⟩

end AsPlatform
