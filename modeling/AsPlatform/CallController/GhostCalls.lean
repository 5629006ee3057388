/-
Legs that are created although the call is over.

Neither the trunk handler nor the end of a call looks at the hops that are left or at
the timer, so a failure of the current leg still starts an attempt when the caller has
gone.  A run is free of such attempts exactly if no action of it starts one then.
-/

import AsPlatform.CallController.Attempts

namespace AsPlatform

open Reentrant

def Call.over (call : Call) : Bool :=
  (call.trunk.map fun ua => ua.wasConnected || ua.ended).getD false

/-- Once the call is over no leg is created and no hop is taken. -/
def NoGhost (config : CallConfig) (_action : CallAction) (next : CallConfig) : Prop :=
  config.state.over = true →
    next.state.legs.length = config.state.legs.length ∧
      next.state.failoverHops = config.state.failoverHops

instance (config : CallConfig) (action : CallAction) (next : CallConfig) :
    Decidable (NoGhost config action next) := by
  unfold NoGhost
  infer_instance

/-- The action starts an attempt although the call is over. -/
def Haunted (app : App) (config : CallConfig) (action : CallAction) : Prop :=
  config.state.over = true ∧ Originates app config.state.toCall action

theorem noGhost_iff_of_step {app : App} {outline next : CallOutline} {action : CallAction}
    (step : CallStep app outline action next) (shape : outline.view.call.Shape) :
    (next.view.call.legs.length = outline.view.call.legs.length ∧
      next.view.call.failoverHops = outline.view.call.failoverHops) ↔
    ¬Originates app outline.view.call action := by
  cases step_attempts step shape with
  | same action quiet kept => exact iff_of_true ⟨kept.length, kept.failoverHops⟩ quiet
  | started ua event ending starts finished originated =>
      have longer := originated.length
      exact iff_of_false (fun both => by omega) (fun quiet => quiet starts)

theorem noGhost_iff (app : App) (process : Process) (globalConfig : GlobalConfig)
    (nextHop : Option (String × Nat)) (actions : List CallAction) :
    CallAlong app NoGhost (process.newCall globalConfig nextHop) actions ↔
      CallAlong app (fun config action _ => ¬Haunted app config action)
        (process.newCall globalConfig nextHop) actions := by
  apply Outlook.along_iff_along (callSystem_describes app)
    (fun outline => outline.view.call.Shape)
  · exact Call.Shape.initial globalConfig nextHop
  · intro config action outline next _follows shape _allowed step
    exact step_shape step shape
  · intro config action next outline nextOutline follows followed shape _taken step
    have exact_ := noGhost_iff_of_step step shape
    rw [← follows.view, ← followed.view] at exact_
    unfold NoGhost Haunted
    rw [not_and]
    exact imp_congr_right (fun _ => exact_)

/-- The caller cancels while the first hop is ringing out, and the timer of that hop
starts an attempt at the second one. -/
theorem not_noGhost :
    ¬CallAlong (App.deciding (sampleRelay [sampleHop "1", sampleHop "2"])) NoGhost sampleWorld
      (sampleOpening ++
        [.enter (.raises .trunk .disconnect), .comeBack, .enter (.fires 0),
          .enter (.raises (.leg 0) .disconnect)]) := by
  decide

end AsPlatform
