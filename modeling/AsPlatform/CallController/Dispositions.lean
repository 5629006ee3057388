/-
Which steps count a disposition.

The outcome of a call is counted by a rejection and by an event of the current leg that
ends it and starts no failover.  Nothing remembers that the call has been counted, and
the trunk leg, when it ends the call, counts nothing.
-/

import AsPlatform.CallController.Decisions

namespace AsPlatform

open Reentrant

/-- The current leg ends and no failover follows, or the application rejects the call with an
error. -/
def Counts (app : App) (call : Call) : CallAction → Prop
  | .enter (.raises ua event) =>
      (call.Asks ua event ∧ ∃ decision, app.decide event = .ok decision ∧
        decision.action = .reject ∧ decision.error ≠ none) ∨
      (call.uaO = some ua ∧ event.terminates = true ∧ ¬FailsOver call event)
  | _ => False

theorem Counts.enters {app : App} {call : Call} {action : CallAction}
    (counts : Counts app call action) : ∃ ua event, action = .enter (.raises ua event) := by
  cases action with
  | comeBack => exact False.elim counts
  | enter label =>
      cases label with
      | raises ua event => exact ⟨ua, event, rfl⟩
      | _ => exact False.elim counts

structure StepCounts (app : App) (before after : Control) (action : CallAction) : Prop where
  counted : Counts app before.call action → after.disposed = before.disposed + 1
  uncounted : ¬Counts app before.call action → after.disposed = before.disposed
  started : before.started ≤ after.started
  trunk : after.call.trunk.isSome = before.call.trunk.isSome ∨
    (before.started + 1 ≤ after.started ∧ ∃ ua : Ua, after.call.trunk = some ua ∧ ua.New)

theorem StepCounts.quiet {app : App} {before after : Control} {action : CallAction}
    (quiet : ¬Counts app before.call action) (disposed : after.disposed = before.disposed)
    (started : after.started = before.started)
    (trunk : after.call.trunk.isSome = before.call.trunk.isSome) :
    StepCounts app before after action where
  counted := fun counts => absurd counts quiet
  uncounted := fun _ => disposed
  started := Nat.le_of_eq started.symm
  trunk := Or.inl trunk

theorem StepCounts.loud {app : App} {before after : Control} {action : CallAction}
    (counts : Counts app before.call action) (disposed : after.disposed = before.disposed + 1)
    (started : after.started = before.started)
    (trunk : after.call.trunk.isSome = before.call.trunk.isSome) :
    StepCounts app before after action where
  counted := fun _ => disposed
  uncounted := fun quiet => absurd counts quiet
  started := Nat.le_of_eq started.symm
  trunk := Or.inl trunk

@[simp] theorem Call.isSome_trunk_raise (ref : UaRef) (event : CCEvent) (call : Call) :
    (call.raise ref event).trunk.isSome = call.trunk.isSome :=
  Call.isSome_trunk_mapUa ref (Ua.raise event) call

@[simp] theorem Call.isSome_trunk_give (ref : UaRef) (event : CCEvent) (call : Call) :
    (call.give ref event).trunk.isSome = call.trunk.isSome :=
  Call.isSome_trunk_mapUa ref (Ua.give event) call

theorem RelayEffect.counters {event : CCEvent} {before after : Control} {ending : CallEnding}
    (effect : RelayEffect event before after ending) :
    after.disposed = before.disposed ∧ after.started = before.started ∧
      after.call.trunk.isSome = before.call.trunk.isSome := by
  cases effect with
  | delivered ref answering => simp
  | unanswered absent => exact ⟨rfl, rfl, rfl⟩

theorem Control.relaying_counters (event : CCEvent) (control : Control) :
    (control.relaying event).disposed =
        control.disposed + (if event.terminates then 1 else 0) ∧
      (control.relaying event).started = control.started ∧
      (control.relaying event).call.trunk.isSome = control.call.trunk.isSome := by
  unfold Control.relaying
  split
  · simp
  · split <;> simp

theorem NextHopEffect.counts {app : App} {event : CCEvent} {ua : UaRef}
    {before after : Control} {ending : CallEnding}
    (effect : NextHopEffect event (before.mapCall (Call.raise ua event)) after ending)
    (current : before.call.uaO = some ua) :
    StepCounts app before after (.enter (.raises ua event)) := by
  cases effect with
  | failover hop rest after ending failed remaining attempt =>
      refine .quiet ?_ attempt.done.disposed attempt.done.started ?_
      · rintro (⟨asks, _⟩ | ⟨_, _, stays⟩)
        · rw [asks.2.1] at current
          cases current
        · exact stays (failsOver_raise.mp failed)
      · rw [attempt.done.trunk]
        exact Call.isSome_trunk_raise ua event before.call
  | relayed after ending kept relay =>
      obtain ⟨disposed, started, trunk⟩ := relay.counters
      obtain ⟨closed, startedToo, trunkToo⟩ :=
        Control.relaying_counters event (before.mapCall (Call.raise ua event))
      rw [closed] at disposed
      rw [startedToo] at started
      rw [trunkToo, Control.call_mapCall, Call.isSome_trunk_raise] at trunk
      by_cases terminates : event.terminates = true
      · rw [if_pos terminates] at disposed
        exact .loud (Or.inr ⟨current, terminates, fun failed => kept (failsOver_raise.mpr failed)⟩)
          disposed started trunk
      · rw [if_neg terminates] at disposed
        refine .quiet ?_ disposed started trunk
        rintro (⟨asks, _⟩ | ⟨_, ends, _⟩)
        · rw [asks.2.1] at current
          cases current
        · exact terminates ends

theorem TrunkEffect.counts {app : App} {event : CCEvent} {ua : UaRef} {before after : Control}
    {ending : CallEnding}
    (effect : TrunkEffect app event ua (before.mapCall (Call.raise ua event)) after ending)
    (shape : before.call.Shape) (answering : before.call.uaA = some ua) :
    StepCounts app before after (.enter (.raises ua event)) := by
  have notCurrent : before.call.uaO ≠ some ua :=
    fun current => shape.uaO_ne_uaA current answering
  cases effect with
  | tornDown unrouted other =>
      refine .quiet ?_ rfl rfl (by simp)
      rintro (⟨asks, _⟩ | ⟨current, _⟩)
      · rw [asks.2.2] at other
        cases other
      · exact notCurrent current
  | hookRaised error unrouted first raised =>
      refine .quiet ?_ rfl rfl (by simp [Call.askApplication])
      rintro (⟨_, decision, asked, _⟩ | ⟨current, _⟩)
      · rw [raised] at asked
        cases asked
      · exact notCurrent current
  | rejected decision after ending unrouted first asked action reject =>
      simp only [Control.call_mapCall, Call.toBaseCallController_raise] at unrouted
      have asks : before.call.Asks ua event := ⟨answering, unrouted, first⟩
      cases reject with
      | unjustified missing =>
          refine .quiet ?_ rfl rfl (by simp [Call.decided, Call.askApplication, Call.adopt])
          rintro (⟨_, other, askedToo, _, carried⟩ | ⟨current, _⟩)
          · rw [asked] at askedToo
            cases askedToo
            exact carried missing
          · exact notCurrent current
      | answered error carried answerable =>
          refine .loud (Or.inl ⟨asks, decision, asked, action, ?_⟩) (by simp) rfl ?_
          · rw [carried]
            exact nofun
          · simp [Call.decided, Call.askApplication, Call.adopt]
      | unanswered error carried clash =>
          refine .loud (Or.inl ⟨asks, decision, asked, action, ?_⟩) (by simp) rfl ?_
          · rw [carried]
            exact nofun
          · simp [Call.decided, Call.askApplication, Call.adopt]
  | noHop decision unrouted first asked action empty =>
      refine .quiet ?_ rfl rfl (by simp [Call.relaying, Call.decided, Call.askApplication,
        Call.adopt, Call.setPending, Call.setFailoverHops])
      rintro (⟨_, other, askedToo, reject, _⟩ | ⟨current, _⟩)
      · rw [asked] at askedToo
        cases askedToo
        rw [action] at reject
        cases reject
      · exact notCurrent current
  | attempted decision hop rest after ending unrouted first asked action hops attempt =>
      refine .quiet ?_ attempt.done.disposed attempt.done.started ?_
      · rintro (⟨_, other, askedToo, reject, _⟩ | ⟨current, _⟩)
        · rw [asked] at askedToo
          cases askedToo
          rw [action] at reject
          cases reject
        · exact notCurrent current
      · rw [attempt.done.trunk]
        exact Call.isSome_trunk_raise ua event before.call
  | relayed leg routed =>
      simp only [Control.call_mapCall, Call.toBaseCallController_raise] at routed
      refine .quiet ?_ rfl rfl (by simp)
      rintro (⟨asks, _⟩ | ⟨current, _⟩)
      · rw [asks.2.1] at routed
        cases routed
      · exact notCurrent current

theorem Effect.counts {app : App} {before after : Control} {label : Label}
    {ending : CallEnding} (effect : Effect app before label after ending)
    (shape : before.call.Shape) : StepCounts app before after (.enter label) := by
  cases effect with
  | invite request after ending first effect =>
      cases effect with
      | hookRaised => exact .quiet id rfl rfl rfl
      | lineRaised => exact ⟨nofun, fun _ => rfl, Nat.le_succ _, Or.inl rfl⟩
      | accepted ua new =>
          exact ⟨nofun, fun _ => rfl, Nat.le_succ _, Or.inr ⟨Nat.le_refl _, ua, rfl, new⟩⟩
  | raises ua event after ending answered effect =>
      cases effect with
      | stale notTrunk notCurrent =>
          simp only [Control.call_mapCall, Call.toBaseCallController_raise] at notTrunk notCurrent
          refine .quiet ?_ rfl rfl (by simp)
          exact fun counts => counts.elim (fun first => notTrunk first.1.1)
            (fun ends => notCurrent ends.1)
      | trunk after ending answering effect =>
          simp only [Control.call_mapCall, Call.toBaseCallController_raise] at answering
          exact effect.counts shape answering
      | nextHop after ending notTrunk current effect =>
          simp only [Control.call_mapCall, Call.toBaseCallController_raise] at current
          exact effect.counts current
  | connected value => exact .quiet id rfl rfl (Call.isSome_trunk_mapUa .trunk _ before.call)
  | fires timer after ending armed effect =>
      cases effect with
      | ignored settled => exact .quiet id rfl rfl rfl
      | tornDown leg current away => exact .quiet id rfl rfl rfl
  | noAnswer after ending effect =>
      cases effect with
      | ignored settled => exact .quiet id rfl rfl rfl
      | tornDown leg current away => exact .quiet id rfl rfl rfl
  | dispose => exact .quiet id rfl rfl (by simp)

theorem step_counts {app : App} {outline next : CallOutline} {action : CallAction}
    (step : CallStep app outline action next) (shape : outline.view.call.Shape) :
    StepCounts app outline.view next.view action := by
  cases step with
  | enter label control ending happens =>
      rw [view_finish]
      exact happens.counts shape
  | comeBack request clears suspended innermost =>
      cases clears with
      | false => exact .quiet id rfl rfl rfl
      | true => exact .quiet id rfl rfl (by simp [afterCall])

end AsPlatform
