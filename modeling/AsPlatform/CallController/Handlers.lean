/-
The relay mechanics of the call controller, one definition for each method.
-/

import AsPlatform.CallController.State

namespace AsPlatform

open Reentrant

def legTrunk : String := "trunk"

def legNextHop : String := "next_hop"

def defaultNextHopExpire : Rat := 3

def unknownHopKey : String := "next_hop"

/-- The method or status code of an event, and a short summary of it. -/
def describeEvent : CCEvent → String × String
  | .tryEvent _ => ("INVITE", "invite received")
  | .ring none => ("180", "ringing")
  | .connect none => ("180", "ringing")
  | .ring (some data) => (toString data.code, strip (toString data.code ++ " " ++ data.reason))
  | .connect (some data) => (toString data.code, strip (toString data.code ++ " " ++ data.reason))
  | .fail none => ("500", "call failed")
  | .fail (some data) => (toString data.code, strip (toString data.code ++ " " ++ data.reason))
  | .disconnect => ("BYE", "call released")
  | .update => ("INVITE", "session update")
  | .other typeName => (typeName, "call control event")

def nextHopPeer (controller : BaseCallController) : String :=
  match controller.nextHop with
  | none => "-"
  | some target => renderPeer target.1 target.2

/-- `_record`: one event into the trace and one debug line. -/
def record (direction leg method summary peer : String) (attributes : Fields) : Ctl Unit := do
  let world ← Handler.get
  Handler.modify (World.mapTracer fun tracer => tracer.record
    { callId := world.callId
      direction := direction
      method := method
      summary := summary
      peer := peer
      attributes := (OrderedDict.singleton "leg" (.str leg)).update attributes })
  emitLog .debug summary
    [("call_id", .str world.callId), ("direction", .str direction), ("peer", .str peer),
      ("method", .str method), ("leg", .str leg)] []

def setPeerStatus (peerName : String) (status : PeerStatus) : Ctl Unit :=
  Handler.modify (World.mapMetrics fun metrics => metrics.setPeerStatus peerName status)

def recordCallDisposition (disposition : CallDisposition) : Ctl Unit :=
  Handler.modify (World.mapMetrics fun metrics => metrics.recordCallDisposition disposition)

def cancelNoAnswerTimer : Ctl Unit :=
  modifyCall Call.cancelNoAnswerTimer

def dispose : Ctl Unit :=
  cancelNoAnswerTimer

def recordDisposition (event : CCEvent) : Ctl Unit := do
  let world ← Handler.get
  let disposition := world.outcome event
  recordCallDisposition disposition
  emitLog .info "call finished"
    [("call_id", .str world.callId), ("direction", .str LogDirection.internal),
      ("disposition", .str disposition.value)] []

/-- `self.uaA.recvEvent(event)`. -/
def giveTrunk (event : CCEvent) : Ctl Unit := do
  let world ← Handler.get
  match world.uaA with
  | some ref => callUa (.recvEvent ref event)
  | none => Handler.raise (.attributeError "'NoneType' object has no attribute 'recvEvent'")

/-- `CCEventFail((error.sip_status, error.sip_phrase, None))`. -/
def AsError.failEvent (error : AsError) : CCEvent :=
  .fail (some { code := error.sipStatus, reason := error.sipPhrase })

/-- The first part of `_reject_on_trunk`: count, trace and log the rejection. -/
def announceReject (decision : PolicyDecision) (error : AsError) : Ctl Unit := do
  cancelNoAnswerTimer
  recordCallDisposition decision.disposition
  let world ← Handler.get
  let attributes : Fields :=
    ((OrderedDict.singleton "leg" (.str legTrunk)).insert
      "error_code" (.str error.code.code)).update decision.attributes
  Handler.modify (World.mapTracer fun tracer => tracer.record
    { callId := world.callId
      direction := LogDirection.outbound
      method := toString error.sipStatus
      summary := decision.rejectTraceSummary
      peer := world.trunkPeer
      ruleId := (decision.attributes.get? "rule_id").filter Value.truth
      attributes := attributes })
  emitLog .warning decision.rejectLogMessage
    [("call_id", .str world.callId), ("direction", .str LogDirection.outbound),
      ("peer", .str world.trunkPeer), ("method", .str (toString error.sipStatus))]
    [decision.rejectLogFields, error.asLogFields]

def rejectOnTrunk (decision : PolicyDecision) : Ctl Unit := do
  match decision.error with
  | none => Handler.raise .assertionError
  | some error =>
      announceReject decision error
      let world ← Handler.get
      if world.uaA.isSome then
        giveTrunk error.failEvent

def applyCallPolicy (app : App) (event : CCEvent) : Ctl PolicyDecision := do
  modifyCall Call.askApplication
  let decision ← Handler.ofExcept (app.decide event)
  modifyCall (Call.adopt decision)
  pure decision

/-- The first part of `_originate_towards`: the new leg and its timer. -/
def startAttempt (hop : NextHop) : Ctl Unit := do
  modifyCall (Call.aimAt hop)
  let world ← Handler.get
  modifyCall (Call.createLeg
    { nhAddress := some hop.target
      localUa := world.globalConfig.sipUaname.getD ""
      lContact := localContact world.globalConfig world.sipConf })
  modifyCall (Call.armNoAnswerTimer
    (world.globalConfig.nextHopExpireSeconds.getD defaultNextHopExpire))

/-- The second part: the vocabulary of the attempt into trace and log. -/
def announceAttempt (app : App) (hop : NextHop) : Ctl Unit := do
  let world ← Handler.get
  let calledNumber ← Handler.ofExcept (CCEvent.calledNumber world.pendingEvent)
  let (message, traceAttributes, logFields) :=
    relayVocabulary world.policy hop calledNumber
  setPeerStatus (app.peerStatusKey hop) .reachable
  record LogDirection.outbound legNextHop "INVITE" message
    (nextHopPeer world.toBaseCallController) traceAttributes
  emitLog .info message
    [("call_id", .str world.callId), ("direction", .str LogDirection.outbound),
      ("peer", .str (nextHopPeer world.toBaseCallController)), ("method", .str "INVITE")]
    [logFields]

/-- The last part: `self.uaO.recvEvent(self._pending_event)`. -/
def giveInvite : Ctl Unit := do
  let world ← Handler.get
  match world.uaO, world.pendingEvent with
  | some leg, some pending => callUa (.recvEvent leg pending)
  | _, _ => Handler.raise (.attributeError "'NoneType' object has no attribute 'recvEvent'")

def originateTowards (app : App) (hop : NextHop) : Ctl Unit := do
  startAttempt hop
  announceAttempt app hop
  sipIdentity giveInvite

/-- `_originate_outbound_leg`: apply the decision to the first event of the trunk leg. -/
def originateOutboundLeg (app : App) (event : CCEvent) : Ctl Unit := do
  let decision ← applyCallPolicy app event
  if decision.action ≠ .relay then
    rejectOnTrunk decision
  else
    modifyCall (Call.setPending decision.outboundEvent)
    modifyCall (Call.setFailoverHops decision.nextHops)
    match decision.nextHops with
    | [] => Handler.raise (.indexError "pop from empty list")
    | hop :: rest =>
        modifyCall (Call.setFailoverHops rest)
        originateTowards app hop

/-- `_try_failover`: whether an attempt at a further hop was started. -/
def tryFailover (app : App) : Ctl Bool := do
  let world ← Handler.get
  match world.failoverHops with
  | [] => pure false
  | nextHop :: rest =>
      let failed := world.servingHop
      setPeerStatus ((failed.map app.peerStatusKey).getD unknownHopKey) .unreachable
      modifyCall (Call.setFailoverHops rest)
      modifyCall Call.forgetLeg
      emitLog .warning "next hop failed; trying failover hop"
        [("call_id", .str world.callId), ("direction", .str LogDirection.internal),
          ("failed_hop", .str ((failed.map NextHop.name).getD "")),
          ("failover_hop", .str nextHop.name),
          ("error_code", .str SkeletonErrorCode.peerUnreachable.code)] []
      originateTowards app nextHop
      pure true

def relayFromTrunk (app : App) (event : CCEvent) : Ctl Unit := do
  let (method, summary) := describeEvent event
  let world ← Handler.get
  match world.uaO with
  | none =>
      if !event.isTry then
        giveTrunk .disconnect
      else
        originateOutboundLeg app event
  | some leg =>
      record LogDirection.inbound legTrunk method (summary ++ " on the trunk leg")
        world.trunkPeer ∅
      callUa (.recvEvent leg event)

/-- The end of `_relay_from_next_hop` after a failover attempt was started.  The
serving hop and the next hop are by now those of the new attempt. -/
def reportFailover (event : CCEvent) : Ctl Unit := do
  let (method, summary) := describeEvent event
  cancelNoAnswerTimer
  let world ← Handler.get
  record LogDirection.inbound legNextHop method
    (summary ++ " on the next-hop leg; trying failover")
    (nextHopPeer world.toBaseCallController)
    (OrderedDict.singleton "failed_hop" (.str ((world.servingHop.map NextHop.name).getD "")))

/-- The last lines of `_relay_from_next_hop`: an answer has been relayed. -/
def reportRelayed (event : CCEvent) : Ctl Unit := do
  let (method, summary) := describeEvent event
  if event.isAnswer && method != "ACK" then
    let world ← Handler.get
    record LogDirection.outbound legTrunk method (summary ++ " relayed to the trunk leg")
      world.trunkPeer ∅

/-- The end of `_relay_from_next_hop` for an event that starts no failover. -/
def relayToTrunk (event : CCEvent) : Ctl Unit := do
  let (method, summary) := describeEvent event
  let world ← Handler.get
  record LogDirection.inbound legNextHop method (summary ++ " on the next-hop leg")
    (nextHopPeer world.toBaseCallController) ∅
  if event.terminates then
    cancelNoAnswerTimer
    recordDisposition event
  if world.uaA.isSome then
    giveTrunk event
  reportRelayed event

def relayFromNextHop (app : App) (event : CCEvent) : Ctl Unit := do
  if event.isAnswer then
    cancelNoAnswerTimer
  let world ← Handler.get
  let failedOver ←
    if event.terminates && !world.trunkConnected then tryFailover app else pure false
  if failedOver then
    reportFailover event
  else
    relayToTrunk event

def recvEvent (app : App) (event : CCEvent) (ua : UaRef) : Ctl Unit := do
  let world ← Handler.get
  if world.uaA = some ua then
    relayFromTrunk app event
  else if world.uaO ≠ some ua then
    pure ()
  else
    relayFromNextHop app event

def onNextHopNoAnswer (app : App) : Ctl Unit := do
  let world ← Handler.get
  match world.uaO with
  | none => pure ()
  | some leg =>
      if world.trunkConnected then
        pure ()
      else
        emitLog .warning "next hop did not answer in time"
          [("call_id", .str world.callId), ("direction", .str LogDirection.internal),
            ("next_hop", .str (app.noAnswerHopLabel world.servingHop)),
            ("error_code", .str SkeletonErrorCode.peerUnreachable.code)] []
        callUa (.disconnect leg)

def captureTrunkRequest (request : Request) : Ctl Unit :=
  modifyCall (Call.rememberRequest request)

/-- The first part of `recv_request`: count, trace and log the INVITE. -/
def admitInvite (app : App) (request : Request) : Ctl Unit := do
  modifyCall (Call.identify request.callId (sourcePeer request))
  let inboundFields ← Handler.ofExcept (app.inboundFields request)
  let world ← Handler.get
  Handler.modify (World.mapMetrics MetricsRegistry.recordCallStarted)
  setPeerStatus (world.trunkPeer ++ ":trunk") .reachable
  record LogDirection.inbound legTrunk "INVITE" "invite received from the trunk"
    world.trunkPeer inboundFields
  emitLog .info "invite received on the trunk"
    [("call_id", .str world.callId), ("direction", .str LogDirection.inbound),
      ("peer", .str world.trunkPeer), ("method", .str "INVITE")]
    [inboundFields]

def recvRequest (app : App) (request : Request) : Ctl Unit := do
  admitInvite app request
  let world ← Handler.get
  modifyCall (Call.createTrunk
    { nhAddress := none
      localUa := world.globalConfig.sipUaname.getD ""
      lContact := localContact world.globalConfig world.sipConf })
  sipIdentity (callUa (.recvRequest .trunk request))

end AsPlatform
