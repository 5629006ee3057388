/-
Attempts that are over do not act on later ones.

An event of a replaced leg is filtered by the identity of the leg.  A timer carries no
such identity, so a stale one tears down whatever leg is current when it fires.  Where
no timer is left behind, the leg a timer tears down is the one of its own attempt.
-/

import AsPlatform.CallController.Timers

namespace AsPlatform

open Reentrant

def Timeout.leg (timer : Timeout) : UaRef :=
  .leg (timer.attempt - 1)

/-- An event raised by a leg that is no longer current is only remembered by the leg. -/
def StaleIgnored (config : CallConfig) (action : CallAction) (next : CallConfig) : Prop :=
  ∀ ua event, action = .enter (.raises ua event) → config.state.uaA ≠ some ua →
    config.state.uaO ≠ some ua →
      next = { config with state := config.state.mapCall (Call.raise ua event) }

/-- A timer that fires does nothing but tear down the leg of its own attempt. -/
def TearsDownOwn (config : CallConfig) : CallAction → CallConfig → Prop
  | .enter (.fires timer), next =>
      ∀ frame, frame ∈ next.frames →
        some frame.request =
          (config.state.timers[timer]?).map fun timeout => UaCall.disconnect timeout.leg
  | _, _ => True

instance (config : CallConfig) : ∀ action next, Decidable (TearsDownOwn config action next)
  | .enter (.fires timer), next =>
      inferInstanceAs (Decidable (∀ frame, frame ∈ next.frames → some frame.request =
        (config.state.timers[timer]?).map fun timeout => UaCall.disconnect timeout.leg))
  | .enter (.invite _), _ | .enter (.raises _ _), _ | .enter (.connected _), _
  | .enter .noAnswer, _ | .enter .dispose, _ | .comeBack, _ => .isTrue trivial

structure Isolated (config : CallConfig) (action : CallAction) (next : CallConfig) :
    Prop where
  stale : StaleIgnored config action next
  timer : ∀ timer, action = .enter (.fires timer) →
    next.state.toCall = config.state.fireTimer timer
  own : TearsDownOwn config action next

theorem staleIgnored {app : App} {config next : CallConfig} {action : CallAction}
    (taken : (callSystem app).step config action = some next) :
    StaleIgnored config action next := by
  rintro ua event rfl notTrunk notCurrent
  have ignored : recvEvent app event ua (config.state.mapCall (Call.raise ua event)) =
      .ret (config.state.mapCall (Call.raise ua event)) (.ok ()) := by
    simp [recvEvent, notTrunk, notCurrent]
  simp only [System.step, callSystem, ignored, Option.map_eq_some_iff,
    Option.ite_none_right_eq_some, Option.some.injEq] at taken
  obtain ⟨program, ⟨_, rfl⟩, settled⟩ := taken
  rw [settle_ok] at settled
  exact settled.symm

/-- Timers fire between the handlers, never inside one. -/
theorem frames_of_fires {app : App} {config next : CallConfig} {timer : Nat}
    (taken : (callSystem app).step config (.enter (.fires timer)) = some next) :
    config.frames = [] := by
  simp only [System.step, callSystem, Option.map_eq_some_iff, Option.ite_none_right_eq_some,
    Bool.and_eq_true] at taken
  obtain ⟨_, ⟨⟨idle, _⟩, _⟩, _⟩ := taken
  exact List.isEmpty_iff.mp idle

/-- The current leg is the one of the timer, since the armed timer is the newest. -/
theorem Call.Shape.leg_of_armed {call : Call} (shape : call.Shape) (referred : call.Referred)
    {timer : Nat} (armed : call.armed timer = true) :
    (call.timers[timer]?).map Timeout.leg = call.uaO := by
  obtain ⟨timeout, found, _⟩ := Call.armed_iff.mp armed
  have newest := referred.newest shape armed
  rw [found, Option.map_some, Timeout.leg, shape.attempts timer timeout found, shape.current,
    Call.newestLeg, ← newest]
  rfl

theorem isolated_of_step {app : App} {config next : CallConfig} {action : CallAction}
    {outline nextOutline : CallOutline} (follows : callOutlook.Follows config outline)
    (followed : callOutlook.Follows next nextOutline) (shape : outline.view.call.Shape)
    (referred : outline.view.call.Referred)
    (taken : (callSystem app).step config action = some next)
    (step : CallStep app outline action nextOutline) : Isolated config action next := by
  refine ⟨staleIgnored taken, ?_, ?_⟩
  · rintro timer rfl
    have after := congrArg Control.call followed.view
    cases step with
    | enter label control ending happens =>
        cases happens with
        | fires timer after ending armed effect =>
            rw [view_finish, effect.call, ← follows.view] at after
            exact after
  · unfold TearsDownOwn
    split
    · rename_i timer next
      have before := congrArg Control.call follows.view
      have idle := frames_of_fires taken
      have frames := follows.frames
      rw [idle] at frames
      have nothing : outline.suspended = [] := List.forall₂_nil_left_iff.mp frames
      have later := followed.frames
      cases step with
      | enter label control ending happens =>
          cases happens with
          | fires timer after ending armed effect =>
              cases effect with
              | ignored settled =>
                  rw [Outline.finish, nothing, List.forall₂_nil_right_iff] at later
                  rw [later]
                  intro frame member
                  cases member
              | tornDown leg current away =>
                  have own := shape.leg_of_armed referred armed
                  have same : outline.view.call.uaO = some leg := current
                  have known : config.state.timers = outline.view.call.timers :=
                    congrArg Call.timers before
                  rw [same] at own
                  rw [Outline.finish, nothing, List.forall₂_cons_right_iff] at later
                  obtain ⟨newest, others, rests, alone, frames⟩ := later
                  rw [List.forall₂_nil_right_iff] at alone
                  intro frame member
                  rw [frames, alone, List.mem_singleton] at member
                  rw [member, rests.request, known]
                  have mapped := congrArg (Option.map UaCall.disconnect) own
                  rw [Option.map_map, Option.map_some] at mapped
                  exact mapped.symm
    · trivial

/-- A run that leaves no timer behind keeps its attempts apart. -/
theorem isolated_of_leavesNone (app : App) (process : Process) (globalConfig : GlobalConfig)
    (nextHop : Option (String × Nat)) (actions : List CallAction)
    (leavesNone : CallAlong app
      (fun config action _ => ¬LeavesTimer config.state.toCall action)
      (process.newCall globalConfig nextHop) actions) :
    CallAlong app Isolated (process.newCall globalConfig nextHop) actions := by
  apply Outlook.along_of_along (callSystem_describes app)
    (fun outline => outline.view.call.Shape ∧ outline.view.call.Referred) ?_ ?_ actions
    leavesNone
  · intro config action next outline nextOutline follows followed inv allowed taken step
    have call : config.state.toCall = outline.view.call := congrArg Control.call follows.view
    rw [call] at allowed
    exact ⟨⟨step_shape step inv.1, ((step_timers step inv.1).referred inv.1 inv.2).mpr allowed⟩,
      isolated_of_step follows followed inv.1 inv.2 taken step⟩
  · exact ⟨_, Outlook.follows_initial _, Call.Shape.initial globalConfig nextHop,
      fun timer within => by cases within⟩

/-- The first hop does not answer in time; its timer tears down its own leg, and the
second hop gets an attempt of its own. -/
theorem isolated_of_leavesNone_timeout :
    CallAlong (App.deciding (sampleRelay [sampleHop "1", sampleHop "2"])) Isolated sampleWorld
      (sampleOpening ++
        [.enter (.fires 0), .enter (.raises (.leg 0) .disconnect), .comeBack, .comeBack,
          .enter (.raises (.leg 0) sampleFail)]) := by
  apply isolated_of_leavesNone
  decide

/-- The first hop fails at once.  Its timer is still armed, and when it fires it tears
down the leg towards the second hop. -/
theorem not_isolated :
    ¬CallAlong (App.deciding (sampleRelay [sampleHop "1", sampleHop "2"])) Isolated sampleWorld
      (sampleOpening ++
        [.enter (.raises (.leg 0) sampleFail), .comeBack, .enter (.fires 0)]) := by
  intro along
  have own := along.mono (fun _ _ _ isolated => isolated.own)
  revert own
  decide

end AsPlatform
