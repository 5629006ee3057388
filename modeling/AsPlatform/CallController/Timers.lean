/-
The no-answer timers of a call.

A controller refers to one timer, while every attempt arms a new one.  A failover that
starts while the timer of the failed attempt is still armed loses that timer: it stays
armed, and no later cancellation reaches it.  Nothing else can go wrong, so a run in
which every failover comes after the end of its own timer never has a stale one.
-/

import AsPlatform.CallController.Attempts

namespace AsPlatform

open Reentrant

/-! ### What a step does to the timers -/

inductive Cancels (outline : CallOutline) : CallAction → Prop where
  | heard (ua : UaRef) (event : CCEvent) (current : outline.view.call.uaO = some ua) :
      Cancels outline (.enter (.raises ua event))
  | rejected (ua : UaRef) (event : CCEvent) (unrouted : outline.view.call.legs = []) :
      Cancels outline (.enter (.raises ua event))
  | disposed : Cancels outline (.enter .dispose)
  | cleared (request : UaCall) (suspended : List (UaCall × Bool))
      (innermost : outline.suspended = (request, true) :: suspended) :
      Cancels outline .comeBack

inductive StepTimers (app : App) (outline next : CallOutline) : CallAction → Prop where
  | kept (action : CallAction) (quiet : ¬Originates app outline.view.call action)
      (timers : next.view.call.timers = outline.view.call.timers)
      (reference : next.view.call.noAnswerTimer = outline.view.call.noAnswerTimer) :
      StepTimers app outline next action
  | fired (timer : Nat)
      (timers : next.view.call.timers = outline.view.call.timers.modify timer Timeout.fire)
      (reference : next.view.call.noAnswerTimer = outline.view.call.noAnswerTimer) :
      StepTimers app outline next (.enter (.fires timer))
  | cancelled (action : CallAction) (quiet : ¬Originates app outline.view.call action)
      (reason : Cancels outline action)
      (timers : next.view.call.timers = outline.view.call.cancelNoAnswerTimer.timers)
      (reference : next.view.call.noAnswerTimer = none) :
      StepTimers app outline next action
  | started (ua : UaRef) (event : CCEvent) (ending : CallEnding) (seconds : Rat)
      (starts : Originates app outline.view.call (.enter (.raises ua event)))
      (finished : next = outline.finish next.view ending)
      (originated : Originated app outline.view ua event next.view ending)
      (timers : next.view.call.timers = outline.view.call.timers ++
        [{ seconds := seconds, attempt := outline.view.call.legs.length + 1 }])
      (reference : next.view.call.noAnswerTimer = some outline.view.call.timers.length) :
      StepTimers app outline next (.enter (.raises ua event))

theorem Call.timers_cancelNoAnswerTimer_congr {call other : Call}
    (timers : other.timers = call.timers)
    (reference : other.noAnswerTimer = call.noAnswerTimer) :
    other.cancelNoAnswerTimer.timers = call.cancelNoAnswerTimer.timers := by
  apply List.ext_getElem?
  intro timer
  rw [getElem?_timers_cancelNoAnswerTimer, getElem?_timers_cancelNoAnswerTimer, timers,
    reference]

inductive KeptOrCancelled (reason : Prop) (before after : Call) : Prop where
  | kept (timers : after.timers = before.timers)
      (reference : after.noAnswerTimer = before.noAnswerTimer)
  | cancelled (because : reason) (timers : after.timers = before.cancelNoAnswerTimer.timers)
      (reference : after.noAnswerTimer = none)

theorem KeptOrCancelled.of_same {reason : Prop} {before middle after : Call}
    (onward : KeptOrCancelled reason middle after) (timers : middle.timers = before.timers)
    (reference : middle.noAnswerTimer = before.noAnswerTimer) :
    KeptOrCancelled reason before after := by
  cases onward with
  | kept timersKept referenceKept =>
      exact .kept (timersKept.trans timers) (referenceKept.trans reference)
  | cancelled because cancelled none =>
      refine .cancelled because ?_ none
      rw [cancelled]
      exact Call.timers_cancelNoAnswerTimer_congr timers reference

theorem RelayEffect.timers {event : CCEvent} {before after : Control} {ending : CallEnding}
    (effect : RelayEffect event before after ending) :
    after.call.timers = before.call.timers ∧
      after.call.noAnswerTimer = before.call.noAnswerTimer := by
  cases effect with
  | delivered ref answering => simp
  | unanswered absent => exact ⟨rfl, rfl⟩

theorem NoAnswerEffect.call {before after : Control} {ending : CallEnding}
    (effect : NoAnswerEffect before after ending) : after = before := by
  cases effect with
  | ignored settled => rfl
  | tornDown leg current away => rfl

theorem InviteEffect.timers {request : Request} {before after : Control} {ending : CallEnding}
    (effect : InviteEffect request before after ending) :
    after.call.timers = before.call.timers ∧
      after.call.noAnswerTimer = before.call.noAnswerTimer := by
  cases effect with
  | hookRaised => exact ⟨rfl, rfl⟩
  | lineRaised => exact ⟨rfl, rfl⟩
  | accepted ua new => exact ⟨rfl, rfl⟩

theorem Originated.timers {app : App} {before after : Control} {ua : UaRef} {event : CCEvent}
    {ending : CallEnding} (originated : Originated app before ua event after ending) :
    (∃ seconds : Rat, after.call.timers = before.call.timers ++
      [{ seconds := seconds, attempt := before.call.legs.length + 1 }]) ∧
    after.call.noAnswerTimer = some before.call.timers.length := by
  have legs : (before.call.raise ua event).legs.length = before.call.legs.length :=
    Call.length_legs_mapUa ua (Ua.raise event) before.call
  have timers : (before.call.raise ua event).timers = before.call.timers :=
    Call.timers_raise ua event before.call
  cases originated with
  | first decision hop rest unrouted asked action hops attempt =>
      obtain ⟨seconds, appended⟩ := attempt.done.timers
      refine ⟨⟨seconds, ?_⟩, ?_⟩
      · simpa [Call.relaying, Call.decided, Call.askApplication, Call.adopt, Call.setPending,
          Call.setFailoverHops, legs] using appended
      · rw [attempt.done.controller]
        exact congrArg (fun timers => some timers.length) timers
  | failover hop rest current routed failed remaining attempt =>
      obtain ⟨seconds, appended⟩ := attempt.done.timers
      refine ⟨⟨seconds, ?_⟩, ?_⟩
      · simpa [Call.dropHop, Call.forgetLeg, Call.setFailoverHops, legs] using appended
      · rw [attempt.done.controller]
        exact congrArg (fun timers => some timers.length) timers

theorem RejectEffect.timers {reason : Prop} {decision : PolicyDecision} {ref : UaRef}
    {before after : Control} {ending : CallEnding}
    (effect : RejectEffect decision ref before after ending) (because : reason) :
    KeptOrCancelled reason before.call after.call := by
  cases effect with
  | unjustified missing => exact .kept rfl rfl
  | answered error carried answerable => exact .cancelled because (by simp) (by simp)
  | unanswered error carried clash => exact .cancelled because rfl (by simp)

/-- An event of the current leg that starts no failover: what hangs up and what answers
cancels the timer. -/
theorem RelayEffect.timers_relaying {reason : Prop} {event : CCEvent}
    {before after : Control} {ending : CallEnding}
    (effect : RelayEffect event (before.relaying event) after ending) (because : reason) :
    KeptOrCancelled reason before.call after.call := by
  have relayed := effect.timers
  unfold Control.relaying at relayed
  split at relayed
  · exact .cancelled because relayed.1 (by rw [relayed.2]; simp)
  · split at relayed
    · exact .cancelled because relayed.1 (by rw [relayed.2]; simp)
    · exact .kept relayed.1 relayed.2

theorem TrunkEffect.timers {app : App} {event : CCEvent} {ua : UaRef}
    {before after : Control} {ending : CallEnding}
    (effect : TrunkEffect app event ua before after ending)
    (quiet : before.call.uaO = none → event.isTry = true →
      ∀ decision, app.decide event = .ok decision → decision.action = .relay →
        decision.nextHops = []) :
    KeptOrCancelled (before.call.uaO = none) before.call after.call := by
  cases effect with
  | tornDown unrouted other => exact .kept (by simp) (by simp)
  | hookRaised error unrouted first refused => exact .kept rfl rfl
  | rejected decision after ending unrouted first asked action reject =>
      exact (reject.timers unrouted).of_same rfl rfl
  | noHop decision unrouted first asked action empty => exact .kept rfl rfl
  | attempted decision hop rest after ending unrouted first asked action hops attempt =>
      have empty := quiet unrouted first decision asked action
      rw [hops] at empty
      cases empty
  | relayed leg routed => exact .kept (by simp) (by simp)

/-- An event that starts no attempt. -/
theorem EventEffect.timers {app : App} {event : CCEvent} {ua : UaRef}
    {before after : Control} {ending : CallEnding}
    (effect : EventEffect app event ua (before.mapCall (Call.raise ua event)) after ending)
    (quiet : ¬Originates app before.call (.enter (.raises ua event))) :
    KeptOrCancelled (before.call.uaO = some ua ∨ before.call.uaO = none)
      before.call after.call := by
  have raised : (before.call.raise ua event).timers = before.call.timers :=
    Call.timers_raise ua event before.call
  have controller := Call.toBaseCallController_raise ua event before.call
  have reference := congrArg BaseCallController.noAnswerTimer controller
  have current := congrArg BaseCallController.uaO controller
  refine KeptOrCancelled.of_same ?_ raised reference
  cases effect with
  | stale notTrunk notCurrent => exact .kept rfl rfl
  | trunk after ending answering effect =>
      simp only [Control.call_mapCall, Call.toBaseCallController_raise] at answering
      have noAttempt : (before.call.raise ua event).uaO = none → event.isTry = true →
          ∀ decision, app.decide event = .ok decision → decision.action = .relay →
            decision.nextHops = [] := by
        intro unrouted first decision asked action
        by_contra some
        exact quiet (Or.inl ⟨answering, current.symm.trans unrouted, first, decision, asked,
          action, some⟩)
      cases effect.timers noAttempt with
      | kept timers reference => exact .kept timers reference
      | cancelled unrouted timers reference =>
          exact .cancelled (Or.inr (current.symm.trans unrouted)) timers reference
  | nextHop after ending notTrunk isCurrent effect =>
      simp only [Control.call_mapCall, Call.toBaseCallController_raise] at isCurrent
      cases effect with
      | failover hop rest after ending failed remaining attempt =>
          exact absurd (Or.inr ⟨isCurrent, failsOver_raise.mp failed⟩) quiet
      | relayed after ending kept relay => exact relay.timers_relaying (Or.inl isCurrent)

theorem step_timers {app : App} {outline next : CallOutline} {action : CallAction}
    (step : CallStep app outline action next) (shape : outline.view.call.Shape) :
    StepTimers app outline next action := by
  cases step_attempts step shape with
  | started ua event ending starts finished originated =>
      obtain ⟨⟨seconds, timers⟩, reference⟩ := originated.timers
      exact .started ua event ending seconds starts finished originated timers reference
  | same action quiet same =>
  cases step with
  | comeBack request clears suspended innermost =>
      cases clears with
      | false => exact .kept _ quiet rfl rfl
      | true =>
          refine .cancelled _ quiet (.cleared request suspended innermost) rfl ?_
          simp [afterCall]
  | enter label control ending happens =>
      cases happens with
      | invite request after ending first effect =>
          refine .kept _ quiet ?_ ?_
          · rw [view_finish]
            exact effect.timers.1
          · rw [view_finish]
            exact effect.timers.2
      | connected value =>
          refine .kept _ quiet ?_ ?_
          · rw [view_finish]
            exact Call.timers_mapUa .trunk (Ua.setConnected value) outline.view.call
          · rw [view_finish]
            exact congrArg BaseCallController.noAnswerTimer
              (Call.toBaseCallController_mapUa .trunk (Ua.setConnected value) outline.view.call)
      | fires timer after ending armed effect =>
          refine .fired timer ?_ ?_
          · rw [view_finish, effect.call]
            rfl
          · rw [view_finish, effect.call]
            rfl
      | noAnswer after ending effect =>
          refine .kept _ quiet ?_ ?_
          · rw [view_finish, effect.call]
          · rw [view_finish, effect.call]
      | dispose =>
          refine .cancelled _ quiet .disposed ?_ ?_
          · rw [view_finish]
            rfl
          · rw [view_finish]
            simp
      | raises ua event after ending answered effect =>
          cases effect.timers quiet with
          | kept timers reference =>
              refine .kept _ quiet ?_ ?_
              · rw [view_finish]
                exact timers
              · rw [view_finish]
                exact reference
          | cancelled because timers reference =>
              refine .cancelled _ quiet ?_ ?_ ?_
              · rcases because with current | unrouted
                · exact .heard ua event current
                · exact .rejected ua event (shape.legs_of_uaO.mpr unrouted)
              · rw [view_finish]
                exact timers
              · rw [view_finish]
                exact reference

/-! ### Timers nobody refers to -/

/-- Every armed timer is the one the controller refers to. -/
def Call.Referred (call : Call) : Prop :=
  ∀ timer, timer < call.timers.length → call.armed timer = true →
    call.noAnswerTimer = some timer

instance (call : Call) : Decidable call.Referred := by
  unfold Call.Referred
  infer_instance

def LeavesTimer (call : Call) : CallAction → Prop
  | .enter (.raises ua event) =>
      call.uaO = some ua ∧ FailsOver call event ∧ call.armed (call.legs.length - 1) = true
  | _ => False

instance (call : Call) : ∀ action, Decidable (LeavesTimer call action)
  | .enter (.raises ua event) =>
      inferInstanceAs (Decidable (call.uaO = some ua ∧ FailsOver call event ∧
        call.armed (call.legs.length - 1) = true))
  | .enter (.invite _) | .enter (.connected _) | .enter (.fires _) | .enter .noAnswer
  | .enter .dispose | .comeBack => .isFalse id

theorem LeavesTimer.originates {app : App} {call : Call} {action : CallAction}
    (leaves : LeavesTimer call action) : Originates app call action := by
  cases action with
  | comeBack => exact leaves
  | enter label =>
      cases label with
      | raises ua event => exact Or.inr ⟨leaves.1, leaves.2.1⟩
      | _ => exact leaves

namespace Call

variable {call : Call}

theorem armed_iff {timer : Nat} :
    call.armed timer = true ↔
      ∃ timeout, call.timers[timer]? = some timeout ∧ timeout.state = .armed := by
  unfold armed
  cases call.timers[timer]? with
  | none => simp
  | some timeout => simp

theorem armed_of_timers {other : Call} (timers : other.timers = call.timers) (timer : Nat) :
    other.armed timer = call.armed timer := by
  unfold armed
  rw [timers]

theorem lt_of_armed {timer : Nat} (armed : call.armed timer = true) :
    timer < call.timers.length := by
  obtain ⟨timeout, found, _⟩ := armed_iff.mp armed
  exact (List.getElem?_eq_some_iff.mp found).1

theorem Referred.reference (referred : call.Referred) {timer : Nat}
    (armed : call.armed timer = true) : call.noAnswerTimer = some timer :=
  referred timer (lt_of_armed armed) armed

theorem armed_cancelNoAnswerTimer {timer : Nat} :
    call.cancelNoAnswerTimer.armed timer = true ↔
      call.armed timer = true ∧ call.noAnswerTimer ≠ some timer := by
  rw [armed_iff, armed_iff, getElem?_timers_cancelNoAnswerTimer]
  by_cases reference : call.noAnswerTimer = some timer
  · simp only [reference, if_true, ne_eq, not_true_eq_false, and_false, iff_false]
    rintro ⟨timeout, found, armed⟩
    obtain ⟨before, _, rfl⟩ := Option.map_eq_some_iff.mp found
    unfold Timeout.cancel at armed
    split at armed
    · cases armed
    · rename_i idle
      exact idle armed
  · simp only [reference, if_false, ne_eq, not_false_eq_true, and_true]

/-- Cancelling the timer referred to leaves no timer armed exactly if every armed timer
is the one referred to. -/
theorem silent_cancelNoAnswerTimer_iff :
    (∀ timer, call.cancelNoAnswerTimer.armed timer = false) ↔ call.Referred := by
  constructor
  · intro silent timer _ armed
    by_contra other
    have still := armed_cancelNoAnswerTimer.mpr ⟨armed, other⟩
    rw [silent timer] at still
    cases still
  · intro referred timer
    rw [← Bool.not_eq_true]
    intro still
    have both := armed_cancelNoAnswerTimer.mp still
    exact both.2 (referred.reference both.1)

/-- The only timer that may be armed is the newest. -/
theorem Referred.newest (referred : call.Referred) (shape : call.Shape) {timer : Nat}
    (armed : call.armed timer = true) : timer + 1 = call.legs.length := by
  rw [← shape.timers]
  exact shape.newest timer (referred.reference armed)

end Call

theorem StepTimers.referred {app : App} {outline next : CallOutline} {action : CallAction}
    (step : StepTimers app outline next action) (shape : outline.view.call.Shape)
    (referred : outline.view.call.Referred) :
    next.view.call.Referred ↔ ¬LeavesTimer outline.view.call action := by
  cases step with
  | kept action quiet timers reference =>
      refine iff_of_true ?_ (fun leaves => quiet leaves.originates)
      intro timer _ armed
      rw [Call.armed_of_timers timers] at armed
      rw [reference]
      exact referred.reference armed
  | fired fired timers reference =>
      refine iff_of_true ?_ id
      intro timer _ armed
      rw [reference]
      obtain ⟨timeout, found, state⟩ := Call.armed_iff.mp armed
      rw [timers, List.getElem?_modify] at found
      obtain ⟨before, present, changed⟩ := Option.map_eq_some_iff.mp found
      have unfired : before.state = .armed := by
        split at changed
        · subst changed
          cases state
        · exact (congrArg Timeout.state changed).trans state
      exact referred.reference (Call.armed_iff.mpr ⟨before, present, unfired⟩)
  | cancelled action quiet reason timers reference =>
      refine iff_of_true ?_ (fun leaves => quiet leaves.originates)
      intro timer _ armed
      rw [Call.armed_of_timers timers] at armed
      have both := Call.armed_cancelNoAnswerTimer.mp armed
      exact absurd (referred.reference both.1) both.2
  | started ua event ending seconds starts finished originated timers reference =>
      have older : ∀ timer, timer < outline.view.call.timers.length →
          next.view.call.armed timer = outline.view.call.armed timer := by
        intro timer within
        unfold Call.armed
        rw [timers, List.getElem?_append_left within]
      constructor
      · rintro now ⟨_, _, armed⟩
        have within := Call.lt_of_armed armed
        have still := now.reference ((older _ within).trans armed)
        rw [reference] at still
        have same := Option.some.inj still
        omega
      · intro spent timer within armed
        rw [reference, Option.some.injEq]
        rw [timers, List.length_append, List.length_singleton] at within
        by_contra other
        have earlier : timer < outline.view.call.timers.length := by omega
        rw [older timer earlier] at armed
        have newest := referred.newest shape armed
        -- an older timer was armed: the attempt it belongs to is the one that failed
        cases originated with
        | first decision hop rest unrouted asked action hops attempt =>
            rw [unrouted] at newest
            cases newest
        | failover hop rest current routed failed remaining attempt =>
            refine spent ⟨current, failed, ?_⟩
            rw [← newest]
            exact armed

/-- No timer is stale at any moment of a run exactly if no failover of it starts while
the timer of the failed attempt is armed. -/
theorem referred_iff (app : App) (process : Process) (globalConfig : GlobalConfig)
    (nextHop : Option (String × Nat)) (actions : List CallAction) :
    CallAlong app (fun _ _ next => next.state.Referred)
        (process.newCall globalConfig nextHop) actions ↔
      CallAlong app (fun config action _ => ¬LeavesTimer config.state.toCall action)
        (process.newCall globalConfig nextHop) actions := by
  apply Outlook.along_iff_along (callSystem_describes app)
    (fun outline => outline.view.call.Shape ∧ outline.view.call.Referred)
  · exact ⟨Call.Shape.initial globalConfig nextHop, fun timer within => by cases within⟩
  · intro config action outline next follows inv allowed step
    have call : config.state.toCall = outline.view.call := congrArg Control.call follows.view
    rw [call] at allowed
    exact ⟨step_shape step inv.1,
      ((step_timers step inv.1).referred inv.1 inv.2).mpr allowed⟩
  · intro config action next outline nextOutline follows followed inv _taken step
    have before : config.state.toCall = outline.view.call := congrArg Control.call follows.view
    have after : next.state.toCall = nextOutline.view.call :=
      congrArg Control.call followed.view
    rw [before, after]
    exact (step_timers step inv.1).referred inv.1 inv.2

end AsPlatform
