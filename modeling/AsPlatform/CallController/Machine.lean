/-
One call as a system of re-entrant handlers.

The environment hands the controller its INVITE, lets any `UA` raise any event (a
`UA` the controller does not know as well), lets the trunk leg connect or cease to be
connected, lets armed timers fire, and lets a call into a `UA` come back.  While a
call into a `UA` is out, further events may be raised; timers fire and the stack
stops only when no handler is at work, since all of them belong to one event loop.
-/

import AsPlatform.CallController.Handlers
import AsPlatform.Library.EventSystem

namespace AsPlatform

open Reentrant

/-- `noAnswer` calls the callback of the timer without a timer. -/
inductive Label where
  | invite (request : Request)
  | raises (ua : UaRef) (event : CCEvent)
  | connected (value : Bool)
  | fires (timer : Nat)
  | noAnswer
  | dispose
  deriving DecidableEq

abbrev CallConfig : Type := Config World UaCall PyError

abbrev CallAction : Type := Action Label

def Call.setTrunkConnected (value : Bool) (call : Call) : Call :=
  call.mapUa .trunk (Ua.setConnected value)

def Call.fireTimer (timer : Nat) (call : Call) : Call :=
  { call with timers := call.timers.modify timer Timeout.fire }

def Call.armed (call : Call) (timer : Nat) : Bool :=
  match call.timers[timer]? with
  | none => false
  | some timeout => decide (timeout.state = .armed)

def receiveInvite (app : App) (request : Request) : Ctl Unit := do
  captureTrunkRequest request
  recvRequest app request

def callSystem (app : App) : System World UaCall PyError Label where
  enter label world idle :=
    match label with
    | .invite request =>
        if idle && world.trunkRequest.isNone then
          some (receiveInvite app request world)
        else none
    | .raises ua event =>
        if ua = .trunk → world.trunk.isSome then
          some (recvEvent app event ua (world.mapCall (Call.raise ua event)))
        else none
    | .connected value =>
        if world.trunk.isSome then
          some (modifyCall (Call.setTrunkConnected value) world)
        else none
    | .fires timer =>
        if idle && world.armed timer then
          some (onNextHopNoAnswer app (world.mapCall (Call.fireTimer timer)))
        else none
    | .noAnswer => if idle then some (onNextHopNoAnswer app world) else none
    | .dispose => if idle then some (dispose world) else none

/-! Each label does something to the objects of the call and starts one handler. -/

def Label.opening : Label → Call → Call
  | .raises ua event => Call.raise ua event
  | .fires timer => Call.fireTimer timer
  | _ => id

def Label.handler (app : App) : Label → Ctl Unit
  | .invite request => receiveInvite app request
  | .raises ua event => recvEvent app event ua
  | .connected value => modifyCall (Call.setTrunkConnected value)
  | .fires _ => onNextHopNoAnswer app
  | .noAnswer => onNextHopNoAnswer app
  | .dispose => AsPlatform.dispose

def Label.enabled (call : Call) (idle : Bool) : Label → Bool
  | .invite _ => idle && call.trunkRequest.isNone
  | .raises ua _ => decide (ua = .trunk → call.trunk.isSome = true)
  | .connected _ => call.trunk.isSome
  | .fires timer => idle && call.armed timer
  | .noAnswer => idle
  | .dispose => idle

theorem callSystem_enter (app : App) (label : Label) (world : World) (idle : Bool) :
    (callSystem app).enter label world idle =
      if label.enabled world.toCall idle = true then
        some (label.handler app (world.mapCall label.opening))
      else none := by
  cases label with
  | raises ua event =>
      simp only [callSystem, Label.enabled, decide_eq_true_eq]
      rfl
  | invite request => rfl
  | connected value => rfl
  | fires timer => rfl
  | noAnswer => rfl
  | dispose => rfl

abbrev CallReaches (app : App) (may : CallConfig → CallAction → Prop) (world : World)
    (config : CallConfig) : Prop :=
  (callSystem app).Reaches may (Config.initial world) config

abbrev CallAlong (app : App) (holds : CallConfig → CallAction → CallConfig → Prop)
    (world : World) (actions : List CallAction) : Prop :=
  (callSystem app).Along holds (Config.initial world) actions

/-! ### A small process, to run by hand -/

def sampleProcess : Process where
  metrics := {}
  tracer := {}
  log := []
  sipConf := ⟨"127.0.0.1", 5060, "as", "udp"⟩
  isEnabledFor := fun level => level ≠ .debug

def sampleWorld : World :=
  sampleProcess.newCall { sipAddress := some "192.0.2.1" } none

def sampleRequest : Request :=
  { callId := "a1@trunk", source := some ("192.0.2.9", 5060) }

def sampleTry (calledNumber : String) : CCEvent :=
  .tryEvent (some ⟨"a1@trunk", "100", calledNumber⟩)

def sampleFail : CCEvent :=
  .fail (some { code := 503, reason := "Service Unavailable" })

def sampleHop (name : String) : NextHop :=
  { name := name, address := "198.51.100." ++ name }

def sampleRelay (hops : List NextHop) : PolicyDecision :=
  { action := .relay
    outboundEvent := some (sampleTry "200")
    nextHops := hops
    relayLogMessage := "originating" }

def sampleError : AsError :=
  AsError.create SkeletonErrorCode.peerNotAllowed none none ∅

def sampleReject : PolicyDecision :=
  { action := .reject
    error := some sampleError
    rejectTraceSummary := "call rejected"
    rejectLogMessage := "rejected"
    rejectLogFields := OrderedDict.singleton "rule_id" (.str "r1") }

/-- The INVITE has been handed in and the trunk leg has raised its first event. -/
def sampleOpening : List CallAction :=
  [.enter (.invite sampleRequest), .comeBack, .enter (.raises .trunk (sampleTry "200")),
    .comeBack]

end AsPlatform
