/-
What happens to one `UA` in one step.

A `UA` raises what the environment lets it raise and is given what the controller
calls it with; nothing else is ever added to its history, and nothing is taken away.
-/

import AsPlatform.CallController.Attempts

namespace AsPlatform

open Reentrant

def Label.raisedBy (ref : UaRef) : Label → List CCEvent
  | .raises ua event => if ua = ref then [event] else []
  | _ => []

def givenTo (ref : UaRef) : CallEnding → List CCEvent
  | .called (.recvEvent ua event) _ => if ua = ref then [event] else []
  | _ => []

/-- Whether the trunk leg is connected is up to the environment alone. -/
def Label.connects (ref : UaRef) (label : Label) (ua : Ua) : Ua :=
  match label with
  | .connected value => if ref = .trunk then ua.setConnected value else ua
  | _ => ua

def Ua.live (ref : UaRef) (label : Label) (ending : CallEnding) (ua : Ua) : Ua :=
  { label.connects ref ua with
    raised := ua.raised ++ label.raisedBy ref
    received := ua.received ++ givenTo ref ending }

@[simp] theorem Ua.raised_live (ref : UaRef) (label : Label) (ending : CallEnding) (ua : Ua) :
    (ua.live ref label ending).raised = ua.raised ++ label.raisedBy ref := rfl

@[simp] theorem Ua.received_live (ref : UaRef) (label : Label) (ending : CallEnding) (ua : Ua) :
    (ua.live ref label ending).received = ua.received ++ givenTo ref ending := rfl

namespace Call

/-- A change of one `UA`, told as what happens to each. -/
theorem ua?_mapUa_of {ref ua : UaRef} {change grown : Ua → Ua}
    (own : ua = ref → ∀ old, change old = grown old) (others : ua ≠ ref → ∀ old, grown old = old)
    (call : Call) : (call.mapUa ua change).ua? ref = (call.ua? ref).map grown := by
  rw [ua?_mapUa]
  by_cases same : ref = ua
  · rw [if_pos same, funext (own same.symm)]
  · have unchanged : grown = id := funext (others fun reverse => same reverse.symm)
    rw [if_neg same, unchanged, Option.map_id]
    rfl

theorem ua?_raise (ref : UaRef) (ua : UaRef) (event : CCEvent) (call : Call) :
    (call.raise ua event).ua? ref =
      (call.ua? ref).map fun old => { old with
        raised := old.raised ++ (Label.raises ua event).raisedBy ref } := by
  apply ua?_mapUa_of
  · intro same old
    rw [Label.raisedBy, if_pos same]
    rfl
  · intro other old
    rw [Label.raisedBy, if_neg other, List.append_nil]

theorem ua?_give (ref : UaRef) (ua : UaRef) (event : CCEvent) (clears : Bool) (call : Call) :
    (call.give ua event).ua? ref =
      (call.ua? ref).map fun old => { old with
        received := old.received ++ givenTo ref (.called (.recvEvent ua event) clears) } := by
  apply ua?_mapUa_of
  · intro same old
    rw [givenTo, if_pos same]
    rfl
  · intro other old
    rw [givenTo, if_neg other, List.append_nil]

@[simp] theorem ua?_cancelNoAnswerTimer (ref : UaRef) (call : Call) :
    call.cancelNoAnswerTimer.ua? ref = call.ua? ref := by
  cases ref <;> simp [ua?]

theorem ua?_startAttempt (hop : NextHop) (leg : Ua) (seconds : Rat) (ref : UaRef) (call : Call) :
    (call.startAttempt hop leg seconds).ua? ref =
      if ref = .leg call.legs.length then some leg else call.ua? ref := by
  cases ref with
  | trunk => rfl
  | leg index =>
      change (call.legs ++ [leg])[index]? = _
      simp only [UaRef.leg.injEq, ua?]
      rcases Nat.lt_trichotomy index call.legs.length with earlier | same | later
      · rw [List.getElem?_append_left earlier, if_neg (Nat.ne_of_lt earlier)]
      · rw [same, if_pos rfl]
        simp
      · rw [if_neg (Nat.ne_of_gt later), List.getElem?_eq_none, List.getElem?_eq_none]
        · exact Nat.le_of_lt later
        · rw [List.length_append, List.length_singleton]
          exact later

theorem ua?_leg_length (call : Call) : call.ua? (.leg call.legs.length) = none := by
  simp [ua?]

end Call

/-- The history of a `UA` that exists grows by what it raises and what it is given. -/
def Lives (label : Label) (ending : CallEnding) (before after : Call) : Prop :=
  ∀ ref ua, before.ua? ref = some ua → after.ua? ref = some (ua.live ref label ending)

/-- As `Lives`, for the part of an activation that comes after the event was raised. -/
def Given (ending : CallEnding) (before after : Call) : Prop :=
  ∀ ref ua, before.ua? ref = some ua →
    after.ua? ref = some { ua with received := ua.received ++ givenTo ref ending }

theorem Given.of_same {ending : CallEnding} {before after : Call}
    (same : ∀ ref, after.ua? ref = before.ua? ref) (nothing : ∀ ref, givenTo ref ending = []) :
    Given ending before after := by
  intro ref ua found
  rw [same, found, nothing]
  simp

theorem Given.of_give {before after : Call} {target : UaRef} {event : CCEvent} {clears : Bool}
    (same : ∀ ref, after.ua? ref = (before.give target event).ua? ref) :
    Given (.called (.recvEvent target event) clears) before after := by
  intro ref ua found
  rw [same, Call.ua?_give ref target event clears, found]
  rfl

theorem AttemptEffect.given {clears : Bool} {hop : NextHop} {before after : Control}
    {ending : CallEnding} (effect : AttemptEffect clears hop before after ending) :
    Given ending before.call after.call := by
  cases effect with
  | invited leg seconds pending new address waiting attemptable =>
      intro ref ua found
      have older : ref ≠ .leg before.call.legs.length := by
        rintro rfl
        rw [Call.ua?_leg_length] at found
        cases found
      simp only [Control.call_mapCall]
      rw [Call.ua?_give ref _ pending clears, Call.ua?_startAttempt, if_neg older, found]
      rfl
  | raised leg seconds new address refused =>
      intro ref ua found
      have older : ref ≠ .leg before.call.legs.length := by
        rintro rfl
        rw [Call.ua?_leg_length] at found
        cases found
      simp only [Control.call_mapCall]
      rw [Call.ua?_startAttempt, if_neg older, found]
      simp [givenTo]

theorem RelayEffect.given {event : CCEvent} {before after : Control} {ending : CallEnding}
    (effect : RelayEffect event before after ending) : Given ending before.call after.call := by
  cases effect with
  | delivered ref answering => exact Given.of_give (fun _ => rfl)
  | unanswered absent => exact Given.of_same (fun _ => rfl) (fun _ => rfl)

theorem Control.ua?_relaying (event : CCEvent) (control : Control) (ref : UaRef) :
    (control.relaying event).call.ua? ref = control.call.ua? ref := by
  unfold Control.relaying
  split
  · simp
  · split
    · simp
    · rfl

theorem RejectEffect.given {decision : PolicyDecision} {ua : UaRef} {before after : Control}
    {ending : CallEnding} (effect : RejectEffect decision ua before after ending) :
    Given ending before.call after.call := by
  cases effect with
  | unjustified missing => exact Given.of_same (fun _ => rfl) (fun _ => rfl)
  | answered error carried answerable =>
      refine Given.of_give (fun ref => ?_)
      simp only [Control.call_mapCall, Control.call_count]
      rw [Call.ua?_give ref ua error.failEvent false, Call.ua?_give ref ua error.failEvent false,
        Call.ua?_cancelNoAnswerTimer]
  | unanswered error carried clash =>
      exact Given.of_same (fun ref => Call.ua?_cancelNoAnswerTimer ref before.call)
        (fun _ => rfl)

theorem TrunkEffect.given {app : App} {event : CCEvent} {ua : UaRef} {before after : Control}
    {ending : CallEnding} (effect : TrunkEffect app event ua before after ending) :
    Given ending before.call after.call := by
  cases effect with
  | tornDown unrouted other => exact Given.of_give (fun _ => rfl)
  | hookRaised error unrouted first raised =>
      exact Given.of_same (fun ref => by cases ref <;> rfl) (fun _ => rfl)
  | rejected decision after ending unrouted first asked action reject =>
      intro ref ua found
      exact reject.given ref ua (by cases ref <;> exact found)
  | noHop decision unrouted first asked action empty =>
      exact Given.of_same (fun ref => by cases ref <;> rfl) (fun _ => rfl)
  | attempted decision hop rest after ending unrouted first asked action hops attempt =>
      intro ref ua found
      exact attempt.given ref ua (by cases ref <;> exact found)
  | relayed leg routed => exact Given.of_give (fun _ => rfl)

theorem NextHopEffect.given {event : CCEvent} {before after : Control} {ending : CallEnding}
    (effect : NextHopEffect event before after ending) : Given ending before.call after.call := by
  cases effect with
  | failover hop rest after ending failed remaining attempt =>
      intro ref ua found
      exact attempt.given ref ua (by cases ref <;> exact found)
  | relayed after ending kept relay =>
      intro ref ua found
      exact relay.given ref ua ((Control.ua?_relaying event before ref).trans found)

theorem EventEffect.given {app : App} {event : CCEvent} {ua : UaRef} {before after : Control}
    {ending : CallEnding} (effect : EventEffect app event ua before after ending) :
    Given ending before.call after.call := by
  cases effect with
  | stale notTrunk notCurrent => exact Given.of_same (fun _ => rfl) (fun _ => rfl)
  | trunk after ending answering effect => exact effect.given
  | nextHop after ending notTrunk current effect => exact effect.given

theorem NoAnswerEffect.given {before after : Control} {ending : CallEnding}
    (effect : NoAnswerEffect before after ending) : Given ending before.call after.call := by
  cases effect with
  | ignored settled => exact Given.of_same (fun _ => rfl) (fun _ => rfl)
  | tornDown leg current away => exact Given.of_same (fun _ => rfl) (fun _ => rfl)

theorem Given.lives {label : Label} {ending : CallEnding} {before middle after : Call}
    (given : Given ending middle after)
    (first : ∀ ref ua, before.ua? ref = some ua → middle.ua? ref = some
      { label.connects ref ua with raised := ua.raised ++ label.raisedBy ref })
    (kept : ∀ ref ua, (label.connects ref ua).received = ua.received) :
    Lives label ending before after := by
  intro ref ua found
  rw [given ref _ (first ref ua found)]
  simp only [Ua.live, kept]

theorem Effect.lives {app : App} {before after : Control} {label : Label} {ending : CallEnding}
    (effect : Effect app before label after ending) (shape : before.call.Shape) :
    Lives label ending before.call after.call := by
  have unchanged : ∀ {ua : Ua} {ref : UaRef} {call : Call}, call.ua? ref = some ua →
      call.ua? ref = some { ua with raised := ua.raised ++ [] } := by
    intro ua ref call found
    simpa using found
  cases effect with
  | invite request after ending first effect =>
      have unanswered : before.call.trunk = none := by
        cases present : before.call.trunk with
        | none => rfl
        | some ua =>
            have admitted := shape.admitted (by rw [present]; rfl)
            rw [first] at admitted
            cases admitted
      have same : Given ending before.call after.call := by
        cases effect with
        | hookRaised => exact Given.of_same (fun ref => by cases ref <;> rfl) (fun _ => rfl)
        | lineRaised => exact Given.of_same (fun ref => by cases ref <;> rfl) (fun _ => rfl)
        | accepted ua new =>
            intro ref old found
            cases ref with
            | trunk =>
                change before.call.trunk = some old at found
                rw [unanswered] at found
                cases found
            | leg index =>
                have nothing : givenTo (.leg index)
                    (.called (.recvRequest .trunk request) false) = [] := rfl
                rw [nothing, List.append_nil]
                exact found
      exact same.lives (fun ref ua found => unchanged found) (fun _ _ => rfl)
  | raises ua event after ending answered effect =>
      refine effect.given.lives (fun ref old found => ?_) (fun _ _ => rfl)
      simp only [Control.call_mapCall]
      rw [Call.ua?_raise, found]
      rfl
  | connected value =>
      have given : Given (.returned : CallEnding)
          (before.call.setTrunkConnected value) (before.call.setTrunkConnected value) :=
        Given.of_same (fun _ => rfl) (fun _ => rfl)
      refine given.lives (fun ref old found => ?_) (fun ref ua => ?_)
      · rw [Call.setTrunkConnected, Call.ua?_mapUa, found, Label.connects]
        split <;> simp [Label.raisedBy, Ua.setConnected]
      · simp only [Label.connects]
        split <;> rfl
  | fires timer after ending armed effect =>
      refine effect.given.lives (fun ref old found => ?_) (fun _ _ => rfl)
      have same : (before.call.fireTimer timer).ua? ref = before.call.ua? ref := by
        cases ref <;> rfl
      exact unchanged (same.trans found)
  | noAnswer after ending effect =>
      exact effect.given.lives (fun ref old found => unchanged found) (fun _ _ => rfl)
  | dispose =>
      have given : Given (.returned : CallEnding) before.call before.call.cancelNoAnswerTimer :=
        Given.of_same (fun ref => Call.ua?_cancelNoAnswerTimer ref before.call) (fun _ => rfl)
      exact given.lives (fun ref old found => unchanged found) (fun _ _ => rfl)

end AsPlatform
