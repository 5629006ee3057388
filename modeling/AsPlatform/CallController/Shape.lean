/-
What holds of the state of a call at every moment.

The current originating leg is always the newest one, every attempt has a timer of
its own, and the timer referred to, if any, is the newest.  All of it is kept by each
operation of the controller.
-/

import AsPlatform.CallController.Handled

namespace AsPlatform

open Reentrant

def Call.newestLeg (call : Call) : Option UaRef :=
  match call.legs.length with
  | 0 => none
  | attempts + 1 => some (.leg attempts)

structure Call.Shape (call : Call) : Prop where
  answering : call.uaA = if call.trunk.isSome then some .trunk else none
  admitted : call.trunk.isSome = true → call.trunkRequest.isSome = true
  current : call.uaO = call.newestLeg
  routed : call.legs ≠ [] → call.trunk.isSome = true
  timers : call.timers.length = call.legs.length
  attempts : ∀ (index : Nat) (timer : Timeout), call.timers[index]? = some timer →
    timer.attempt = index + 1
  newest : ∀ index : Nat, call.noAnswerTimer = some index → index + 1 = call.timers.length
  unrouted : call.legs = [] → call.failoverHops = []

namespace Call

variable {call : Call}

theorem newestLeg_of_length {other : Call} (same : other.legs.length = call.legs.length) :
    other.newestLeg = call.newestLeg := by
  unfold newestLeg
  rw [same]

theorem legs_eq_nil_iff {other : Call} (same : other.legs.length = call.legs.length) :
    other.legs = [] ↔ call.legs = [] := by
  rw [← List.length_eq_zero_iff, same, List.length_eq_zero_iff]

theorem Shape.initial (globalConfig : GlobalConfig) (nextHop : Option (String × Nat)) :
    Shape { toBaseCallController := { globalConfig := globalConfig, nextHop := nextHop } } where
  answering := rfl
  admitted := nofun
  current := rfl
  routed := nofun
  timers := rfl
  attempts := by simp
  newest := nofun
  unrouted := fun _ => rfl

/-- What keeps the controller and the number of legs and timers keeps the shape. -/
theorem Shape.of_same {other : Call} (shape : call.Shape)
    (controller : other.toBaseCallController = call.toBaseCallController)
    (trunk : other.trunk.isSome = call.trunk.isSome)
    (legs : other.legs.length = call.legs.length)
    (timers : other.timers.map Timeout.attempt = call.timers.map Timeout.attempt) :
    other.Shape := by
  have length : other.timers.length = call.timers.length := by
    have lengths := congrArg List.length timers
    simpa only [List.length_map] using lengths
  constructor
  · rw [controller, trunk]
    exact shape.answering
  · rw [controller, trunk]
    exact shape.admitted
  · rw [controller, newestLeg_of_length legs]
    exact shape.current
  · rw [Ne, legs_eq_nil_iff legs, trunk]
    exact shape.routed
  · rw [length, legs]
    exact shape.timers
  · intro index timer present
    have attempt : (other.timers.map Timeout.attempt)[index]? = some timer.attempt := by
      rw [List.getElem?_map, present]
      rfl
    rw [timers, List.getElem?_map, Option.map_eq_some_iff] at attempt
    obtain ⟨older, found, same⟩ := attempt
    rw [← same]
    exact shape.attempts index older found
  · rw [controller, length]
    exact shape.newest
  · rw [legs_eq_nil_iff legs, controller]
    exact shape.unrouted

theorem Shape.mapUa (shape : call.Shape) (ref : UaRef) (change : Ua → Ua) :
    (call.mapUa ref change).Shape :=
  shape.of_same (by simp) (by simp) (by simp) (by simp)

theorem Shape.fireTimer (shape : call.Shape) (timer : Nat) : (call.fireTimer timer).Shape := by
  refine shape.of_same rfl rfl rfl ?_
  apply List.ext_getElem?
  intro index
  simp only [Call.fireTimer, List.getElem?_map, List.getElem?_modify]
  by_cases same : timer = index <;> cases call.timers[index]? <;> simp [same, Timeout.fire]

theorem attempts_cancelNoAnswerTimer (call : Call) :
    call.cancelNoAnswerTimer.timers.map Timeout.attempt = call.timers.map Timeout.attempt := by
  apply List.ext_getElem?
  intro index
  rw [List.getElem?_map, List.getElem?_map, getElem?_timers_cancelNoAnswerTimer]
  split <;> cases call.timers[index]? <;> rfl

theorem Shape.cancelNoAnswerTimer (shape : call.Shape) : call.cancelNoAnswerTimer.Shape := by
  have same : Shape { call.cancelNoAnswerTimer with noAnswerTimer := call.noAnswerTimer } :=
    shape.of_same (by simp) (by simp) (by simp) (attempts_cancelNoAnswerTimer call)
  exact { same with newest := by simp }

/-- The new attempt is at the end of the legs and of the timers, and is the one both
references now name; what was referred to before does not matter. -/
theorem Shape.startAttempt {other : Call} (shape : call.Shape) (legs : other.legs = call.legs)
    (timers : other.timers = call.timers) (trunk : other.trunk = call.trunk)
    (uaA : other.uaA = call.uaA) (request : other.trunkRequest = call.trunkRequest)
    (answering : call.trunk.isSome = true) (hop : NextHop) (leg : Ua) (seconds : Rat) :
    (other.startAttempt hop leg seconds).Shape where
  answering := by
    simp only [Call.startAttempt, aimAt, createLeg, armNoAnswerTimer, uaA, trunk]
    exact shape.answering
  admitted := by
    simp only [Call.startAttempt, aimAt, createLeg, armNoAnswerTimer, request, trunk]
    exact shape.admitted
  current := by simp [Call.startAttempt, aimAt, createLeg, armNoAnswerTimer, newestLeg]
  routed := by
    simp only [Call.startAttempt, aimAt, createLeg, armNoAnswerTimer, trunk]
    exact fun _ => answering
  timers := by
    simp [Call.startAttempt, aimAt, createLeg, armNoAnswerTimer, legs, timers, shape.timers]
  attempts := by
    intro index timer present
    simp only [Call.startAttempt, aimAt, createLeg, armNoAnswerTimer, List.length_append,
      List.length_singleton, List.getElem?_append, List.getElem?_singleton, timers, legs]
      at present
    split at present
    · exact shape.attempts index timer present
    · rename_i beyond
      split at present
      · rename_i last
        cases present
        have lengths := shape.timers
        change call.legs.length + 1 = index + 1
        omega
      · cases present
  newest := by
    intro index reference
    simp only [Call.startAttempt, armNoAnswerTimer, aimAt, createLeg, Option.some.injEq]
      at reference
    simp [Call.startAttempt, armNoAnswerTimer, aimAt, createLeg, reference]
  unrouted := by simp [Call.startAttempt, aimAt, createLeg, armNoAnswerTimer]

/-- The application's decision changes nothing the shape speaks of, as long as no hop
is left over without a leg. -/
theorem Shape.relaying (shape : call.Shape) (decision : PolicyDecision) :
    (call.relaying decision []).Shape :=
  { shape with unrouted := fun _ => rfl }

end Call

/-! ### Every step keeps the shape -/

theorem AttemptEffect.shape {clears : Bool} {hop : NextHop} {before after : Control}
    {ending : CallEnding} (effect : AttemptEffect clears hop before after ending)
    {call : Call} (shape : call.Shape) (legs : before.call.legs = call.legs)
    (timers : before.call.timers = call.timers) (trunk : before.call.trunk = call.trunk)
    (uaA : before.call.uaA = call.uaA)
    (request : before.call.trunkRequest = call.trunkRequest)
    (answering : call.trunk.isSome = true) : after.call.Shape := by
  cases effect with
  | invited leg seconds pending new address waiting attemptable =>
      exact (shape.startAttempt legs timers trunk uaA request answering hop leg
        seconds).mapUa (.leg before.call.legs.length) (Ua.give pending)
  | raised leg seconds new address refused =>
      exact shape.startAttempt legs timers trunk uaA request answering hop leg seconds

theorem RelayEffect.shape {event : CCEvent} {before after : Control} {ending : CallEnding}
    (effect : RelayEffect event before after ending) (shape : before.call.Shape) :
    after.call.Shape := by
  cases effect with
  | delivered ref answering => exact shape.mapUa ref _
  | unanswered absent => exact shape

theorem Control.relaying_shape {control : Control} (shape : control.call.Shape)
    (event : CCEvent) : (control.relaying event).call.Shape := by
  unfold Control.relaying
  split
  · exact shape.cancelNoAnswerTimer
  · split
    · exact shape.cancelNoAnswerTimer
    · exact shape

theorem RejectEffect.shape {decision : PolicyDecision} {ref : UaRef} {before after : Control}
    {ending : CallEnding} (effect : RejectEffect decision ref before after ending)
    (shape : before.call.Shape) : after.call.Shape := by
  cases effect with
  | unjustified missing => exact shape
  | answered error carried answerable => exact shape.cancelNoAnswerTimer.mapUa ref _
  | unanswered error carried clash => exact shape.cancelNoAnswerTimer

theorem Call.Shape.trunk_of_uaA {call : Call} (shape : call.Shape) {ref : UaRef}
    (answering : call.uaA = some ref) : ref = .trunk ∧ call.trunk.isSome = true := by
  have same := shape.answering
  rw [answering] at same
  split at same
  · rename_i present
    exact ⟨Option.some.inj same, present⟩
  · cases same

theorem TrunkEffect.shape {app : App} {event : CCEvent} {ua : UaRef} {before after : Control}
    {ending : CallEnding} (effect : TrunkEffect app event ua before after ending)
    (shape : before.call.Shape) (answering : before.call.uaA = some ua) :
    after.call.Shape := by
  have present := (shape.trunk_of_uaA answering).2
  cases effect with
  | tornDown unrouted other => exact shape.mapUa ua _
  | hookRaised error unrouted first raised => exact { shape with }
  | rejected decision after ending unrouted first asked action reject =>
      exact reject.shape { shape with }
  | noHop decision unrouted first asked action empty => exact shape.relaying decision
  | attempted decision hop rest after ending unrouted first asked action hops attempt =>
      exact attempt.shape shape rfl rfl rfl rfl rfl present
  | relayed leg routed => exact shape.mapUa leg _

theorem NextHopEffect.shape {event : CCEvent} {before after : Control} {ending : CallEnding}
    (effect : NextHopEffect event before after ending) (shape : before.call.Shape) :
    after.call.Shape := by
  cases effect with
  | failover hop rest after ending failed remaining attempt =>
      have routed : before.call.legs ≠ [] := by
        intro none
        rw [shape.unrouted none] at remaining
        cases remaining
      exact attempt.shape shape rfl rfl rfl rfl rfl (shape.routed routed)
  | relayed after ending kept relay => exact relay.shape (Control.relaying_shape shape event)

theorem EventEffect.shape {app : App} {event : CCEvent} {ua : UaRef} {before after : Control}
    {ending : CallEnding} (effect : EventEffect app event ua before after ending)
    (shape : before.call.Shape) : after.call.Shape := by
  cases effect with
  | stale notTrunk notCurrent => exact shape
  | trunk after ending answering effect => exact effect.shape shape answering
  | nextHop after ending notTrunk current effect => exact effect.shape shape

theorem InviteEffect.shape {request : Request} {before after : Control} {ending : CallEnding}
    (effect : InviteEffect request before after ending) (shape : before.call.Shape)
    (first : before.call.trunkRequest = none) : after.call.Shape := by
  have unanswered : before.call.trunk.isSome = false := by
    cases present : before.call.trunk.isSome with
    | false => rfl
    | true =>
        have admitted := shape.admitted present
        rw [first] at admitted
        cases admitted
  have unrouted : before.call.legs = [] := by
    cases legs : before.call.legs with
    | nil => rfl
    | cons leg rest =>
        have routed := shape.routed (by rw [legs]; exact List.cons_ne_nil leg rest)
        rw [unanswered] at routed
        cases routed
  cases effect with
  | hookRaised => exact { shape with admitted := fun _ => rfl }
  | lineRaised => exact { shape with admitted := fun _ => rfl }
  | accepted ua new =>
      exact
        { shape with
          answering := rfl
          admitted := fun _ => rfl
          routed := fun routed => absurd unrouted routed }

theorem NoAnswerEffect.shape {before after : Control} {ending : CallEnding}
    (effect : NoAnswerEffect before after ending) (shape : before.call.Shape) :
    after.call.Shape := by
  cases effect with
  | ignored settled => exact shape
  | tornDown leg current away => exact shape

theorem Effect.shape {app : App} {before after : Control} {label : Label} {ending : CallEnding}
    (effect : Effect app before label after ending) (shape : before.call.Shape) :
    after.call.Shape := by
  cases effect with
  | invite request after ending first effect => exact effect.shape shape first
  | raises ua event after ending answered effect => exact effect.shape (shape.mapUa ua _)
  | connected value => exact shape.mapUa .trunk _
  | fires timer after ending armed effect => exact effect.shape (shape.fireTimer timer)
  | noAnswer after ending effect => exact effect.shape shape
  | dispose => exact shape.cancelNoAnswerTimer

theorem afterCall_shape {control : Control} (shape : control.call.Shape) (clears : Bool) :
    (afterCall clears control).call.Shape := by
  cases clears with
  | false => exact shape
  | true => exact shape.cancelNoAnswerTimer

abbrev CallOutline : Type := Outline Control UaCall Bool

abbrev CallStep (app : App) : CallOutline → CallAction → CallOutline → Prop :=
  callOutlook.Step (Effect app)

@[simp] theorem view_finish (outline : CallOutline) (control : Control) (ending : CallEnding) :
    (outline.finish control ending).view = control := by
  cases ending <;> rfl

theorem step_shape {app : App} {outline next : CallOutline} {action : CallAction}
    (step : CallStep app outline action next) (shape : outline.view.call.Shape) :
    next.view.call.Shape := by
  cases step with
  | enter label control ending happens =>
      rw [view_finish]
      exact happens.shape shape
  | comeBack request clears suspended innermost => exact afterCall_shape shape clears

end AsPlatform
