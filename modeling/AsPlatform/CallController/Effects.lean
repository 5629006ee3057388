/-
What entering the controller can do, said once.

`Effect` lists every way in which a step changes the control part of the state and
how it ends: it returns, it raises, or it is now inside a call into a `UA`.  What a
handler still does when such a call comes back is known too: nothing, or, after a
failover, the cancellation of the timer that is then referred to.
-/

import AsPlatform.CallController.Equations
import AsPlatform.Library.Outline

namespace AsPlatform

open Reentrant

/-- `clears` says that the handler will still cancel the timer referred to when its
call comes back. -/
abbrev CallEnding : Type := Ending UaCall Bool

def afterCall (clears : Bool) (control : Control) : Control :=
  if clears then control.mapCall Call.cancelNoAnswerTimer else control

/-! ### One attempt -/

structure Ua.New (ua : Ua) : Prop where
  received : ua.received = []
  raised : ua.raised = []
  connected : ua.connected = false
  wasConnected : ua.wasConnected = false

/-- `_originate_towards(hop)`: the leg and the timer exist in either case, the
INVITE is given to the leg if the attempt can be announced. -/
inductive AttemptEffect (clears : Bool) (hop : NextHop) (before : Control) :
    Control → CallEnding → Prop where
  | invited (leg : Ua) (seconds : Rat) (pending : CCEvent) (new : leg.New)
      (address : leg.nhAddress = some hop.target)
      (waiting : before.call.pendingEvent = some pending)
      (attemptable : Attemptable before.isEnabledFor before.call.policy
        before.call.pendingEvent) :
      AttemptEffect clears hop before
        ((before.mapCall (Call.startAttempt hop leg seconds)).mapCall
          (Call.give (.leg before.call.legs.length) pending))
        (.called (.recvEvent (.leg before.call.legs.length) pending) clears)
  | raised (leg : Ua) (seconds : Rat) (new : leg.New)
      (address : leg.nhAddress = some hop.target)
      (refused : ¬Attemptable before.isEnabledFor before.call.policy
        before.call.pendingEvent) :
      AttemptEffect clears hop before
        (before.mapCall (Call.startAttempt hop leg seconds)) .raised

/-! ### Events of the originating leg -/

/-- The control part when an event of the current leg is about to go to the trunk. -/
def Control.relaying (event : CCEvent) (control : Control) : Control :=
  if event.terminates then
    (control.mapCall Call.cancelNoAnswerTimer).count (control.call.outcome event)
  else if event.isAnswer then control.mapCall Call.cancelNoAnswerTimer
  else control

inductive RelayEffect (event : CCEvent) (before : Control) : Control → CallEnding → Prop where
  | delivered (ref : UaRef) (answering : before.call.uaA = some ref) :
      RelayEffect event before (before.mapCall (Call.give ref event))
        (.called (.recvEvent ref event) false)
  | unanswered (absent : before.call.uaA = none) :
      RelayEffect event before before .returned

def FailsOver (call : Call) (event : CCEvent) : Prop :=
  event.terminates = true ∧ call.trunkConnected = false ∧ call.failoverHops ≠ []

instance (call : Call) (event : CCEvent) : Decidable (FailsOver call event) := by
  unfold FailsOver
  infer_instance

inductive NextHopEffect (event : CCEvent) (before : Control) : Control → CallEnding → Prop where
  | failover (hop : NextHop) (rest : List NextHop) (after : Control) (ending : CallEnding)
      (failed : FailsOver before.call event)
      (remaining : before.call.failoverHops = hop :: rest)
      (attempt : AttemptEffect true hop (before.mapCall (Call.dropHop rest)) after ending) :
      NextHopEffect event before after ending
  | relayed (after : Control) (ending : CallEnding) (kept : ¬FailsOver before.call event)
      (relay : RelayEffect event (before.relaying event) after ending) :
      NextHopEffect event before after ending

/-! ### Events of the trunk leg -/

/-- The line of a rejection does not raise. -/
def Answerable (isEnabledFor : LogLevel → Bool) (decision : PolicyDecision)
    (error : AsError) : Prop :=
  KeysAccepted (isEnabledFor .warning)
    (["call_id", "direction", "peer", "method"] ++
      (decision.rejectLogFields.keys ++ error.asLogFields.keys))

instance (isEnabledFor : LogLevel → Bool) (decision : PolicyDecision) (error : AsError) :
    Decidable (Answerable isEnabledFor decision error) := by
  unfold Answerable
  infer_instance

/-- The disposition is counted before the line that may raise. -/
inductive RejectEffect (decision : PolicyDecision) (ref : UaRef) (before : Control) :
    Control → CallEnding → Prop where
  | unjustified (missing : decision.error = none) :
      RejectEffect decision ref before before .raised
  | answered (error : AsError) (carried : decision.error = some error)
      (answerable : Answerable before.isEnabledFor decision error) :
      RejectEffect decision ref before
        (((before.mapCall Call.cancelNoAnswerTimer).count decision.disposition).mapCall
          (Call.give ref error.failEvent))
        (.called (.recvEvent ref error.failEvent) false)
  | unanswered (error : AsError) (carried : decision.error = some error)
      (clash : ¬Answerable before.isEnabledFor decision error) :
      RejectEffect decision ref before
        ((before.mapCall Call.cancelNoAnswerTimer).count decision.disposition) .raised

inductive TrunkEffect (app : App) (event : CCEvent) (ua : UaRef) (before : Control) :
    Control → CallEnding → Prop where
  | tornDown (unrouted : before.call.uaO = none) (other : event.isTry = false) :
      TrunkEffect app event ua before (before.mapCall (Call.give ua .disconnect))
        (.called (.recvEvent ua .disconnect) false)
  | hookRaised (error : PyError) (unrouted : before.call.uaO = none)
      (first : event.isTry = true) (raised : app.decide event = .error error) :
      TrunkEffect app event ua before (before.mapCall Call.askApplication) .raised
  | rejected (decision : PolicyDecision) (after : Control) (ending : CallEnding)
      (unrouted : before.call.uaO = none) (first : event.isTry = true)
      (asked : app.decide event = .ok decision) (action : decision.action = .reject)
      (reject : RejectEffect decision ua (before.mapCall (Call.decided decision)) after ending) :
      TrunkEffect app event ua before after ending
  | noHop (decision : PolicyDecision) (unrouted : before.call.uaO = none)
      (first : event.isTry = true) (asked : app.decide event = .ok decision)
      (action : decision.action = .relay) (empty : decision.nextHops = []) :
      TrunkEffect app event ua before (before.mapCall (Call.relaying decision [])) .raised
  | attempted (decision : PolicyDecision) (hop : NextHop) (rest : List NextHop)
      (after : Control) (ending : CallEnding) (unrouted : before.call.uaO = none)
      (first : event.isTry = true) (asked : app.decide event = .ok decision)
      (action : decision.action = .relay) (hops : decision.nextHops = hop :: rest)
      (attempt : AttemptEffect false hop (before.mapCall (Call.relaying decision rest))
        after ending) :
      TrunkEffect app event ua before after ending
  | relayed (leg : UaRef) (routed : before.call.uaO = some leg) :
      TrunkEffect app event ua before (before.mapCall (Call.give leg event))
        (.called (.recvEvent leg event) false)

/-! ### All labels -/

inductive EventEffect (app : App) (event : CCEvent) (ua : UaRef) (before : Control) :
    Control → CallEnding → Prop where
  | stale (notTrunk : before.call.uaA ≠ some ua) (notCurrent : before.call.uaO ≠ some ua) :
      EventEffect app event ua before before .returned
  | trunk (after : Control) (ending : CallEnding) (answering : before.call.uaA = some ua)
      (effect : TrunkEffect app event ua before after ending) :
      EventEffect app event ua before after ending
  | nextHop (after : Control) (ending : CallEnding) (notTrunk : before.call.uaA ≠ some ua)
      (current : before.call.uaO = some ua)
      (effect : NextHopEffect event before after ending) :
      EventEffect app event ua before after ending

inductive NoAnswerEffect (before : Control) : Control → CallEnding → Prop where
  | ignored (settled : before.call.uaO = none ∨ before.call.trunkConnected = true) :
      NoAnswerEffect before before .returned
  | tornDown (leg : UaRef) (current : before.call.uaO = some leg)
      (away : before.call.trunkConnected = false) :
      NoAnswerEffect before before (.called (.disconnect leg) false)

/-- The trunk INVITE: the application's inbound fields come before the call is
counted, the line that carries them after it. -/
inductive InviteEffect (request : Request) (before : Control) : Control → CallEnding → Prop where
  | hookRaised :
      InviteEffect request before
        ((before.mapCall (Call.rememberRequest request)).mapCall
          (Call.identify request.callId (sourcePeer request))) .raised
  | lineRaised :
      InviteEffect request before
        (((before.mapCall (Call.rememberRequest request)).mapCall
          (Call.identify request.callId (sourcePeer request))).start) .raised
  | accepted (ua : Ua) (new : ua.New) :
      InviteEffect request before
        ((((before.mapCall (Call.rememberRequest request)).mapCall
          (Call.identify request.callId (sourcePeer request))).start).mapCall
            (Call.createTrunk ua))
        (.called (.recvRequest .trunk request) false)

/-- Every way in which entering the controller by a label can go. -/
inductive Effect (app : App) (before : Control) : Label → Control → CallEnding → Prop where
  | invite (request : Request) (after : Control) (ending : CallEnding)
      (first : before.call.trunkRequest = none)
      (effect : InviteEffect request before after ending) :
      Effect app before (.invite request) after ending
  | raises (ua : UaRef) (event : CCEvent) (after : Control) (ending : CallEnding)
      (answered : ua = .trunk → before.call.trunk.isSome = true)
      (effect : EventEffect app event ua (before.mapCall (Call.raise ua event)) after ending) :
      Effect app before (.raises ua event) after ending
  | connected (value : Bool) :
      Effect app before (.connected value)
        (before.mapCall (Call.setTrunkConnected value)) .returned
  | fires (timer : Nat) (after : Control) (ending : CallEnding)
      (armed : before.call.armed timer = true)
      (effect : NoAnswerEffect (before.mapCall (Call.fireTimer timer)) after ending) :
      Effect app before (.fires timer) after ending
  | noAnswer (after : Control) (ending : CallEnding)
      (effect : NoAnswerEffect before after ending) :
      Effect app before .noAnswer after ending
  | dispose :
      Effect app before .dispose (before.mapCall Call.cancelNoAnswerTimer) .returned

def callOutlook : Outlook World Control Bool where
  view := World.control
  after := afterCall

@[simp] theorem callOutlook_view (world : World) :
    callOutlook.view world = world.control := rfl

@[simp] theorem callOutlook_after (clears : Bool) (control : Control) :
    callOutlook.after clears control = afterCall clears control := rfl

end AsPlatform
