/-
What the handlers compute, as equations on the state they are entered in.

A log call with fixed keywords never raises, so `_record` and the fixed warnings
are plain state changes.  Only the splatted mappings of the application can make a
log call raise; `Attemptable` and `Answerable` say when they do not.
-/

import AsPlatform.CallController.Machine

namespace AsPlatform

open Reentrant

/-! ### Log and trace -/

def logEntry (isEnabledFor : LogLevel → Bool) (level : LogLevel) (event : String)
    (named : List (String × Value)) (splatted : List Fields) : Option LogRecord :=
  match logEvent isEnabledFor level event named splatted with
  | .ok entry => entry
  | .error _ => none

theorem emitLog_accepted (level : LogLevel) (event : String) (named : List (String × Value))
    (splatted : List Fields) (world : World)
    (accepted : KeysAccepted (world.isEnabledFor level) (keywordKeys named splatted)) :
    emitLog level event named splatted world =
      .ret (world.appendLog (logEntry world.isEnabledFor level event named splatted))
        (.ok ()) := by
  obtain ⟨entry, emitted⟩ :=
    (logEvent_accepted_iff world.isEnabledFor level event named splatted).mpr accepted
  simp [emitLog, logEntry, emitted]

theorem emitLog_refused (level : LogLevel) (event : String) (named : List (String × Value))
    (splatted : List Fields) (world : World)
    (refused : ¬KeysAccepted (world.isEnabledFor level) (keywordKeys named splatted)) :
    ∃ error, emitLog level event named splatted world = .ret world (.error error) := by
  cases emitted : logEvent world.isEnabledFor level event named splatted with
  | ok entry => exact absurd ((logEvent_accepted_iff _ _ _ _ _).mp ⟨entry, emitted⟩) refused
  | error error => exact ⟨error, by simp [emitLog, emitted]⟩

namespace World

def recorded (direction leg method summary peer : String) (attributes : Fields)
    (world : World) : World :=
  (world.mapTracer fun tracer => tracer.record
    { callId := world.callId
      direction := direction
      method := method
      summary := summary
      peer := peer
      attributes := (OrderedDict.singleton "leg" (.str leg)).update attributes }).appendLog
    (logEntry world.isEnabledFor .debug summary
      [("call_id", .str world.callId), ("direction", .str direction), ("peer", .str peer),
        ("method", .str method), ("leg", .str leg)] [])

def newLeg (hop : NextHop) (world : World) : Ua :=
  { nhAddress := some hop.target
    localUa := world.globalConfig.sipUaname.getD ""
    lContact := localContact world.globalConfig world.sipConf }

def expireSeconds (world : World) : Rat :=
  world.globalConfig.nextHopExpireSeconds.getD defaultNextHopExpire

/-- An attempt's vocabulary, as it goes into counters, trace and log. -/
def announced (app : App) (hop : NextHop) (calledNumber : String) (world : World) : World :=
  let vocabulary := relayVocabulary world.policy hop calledNumber
  (((world.mapMetrics fun metrics =>
    metrics.setPeerStatus (app.peerStatusKey hop) .reachable).recorded
      LogDirection.outbound legNextHop "INVITE" vocabulary.1
      (nextHopPeer world.toBaseCallController) vocabulary.2.1)).appendLog
    (logEntry world.isEnabledFor .info vocabulary.1
      [("call_id", .str world.callId), ("direction", .str LogDirection.outbound),
        ("peer", .str (nextHopPeer world.toBaseCallController)), ("method", .str "INVITE")]
      [vocabulary.2.2])

@[simp] theorem control_recorded (direction leg method summary peer : String)
    (attributes : Fields) (world : World) :
    (world.recorded direction leg method summary peer attributes).control = world.control := rfl

@[simp] theorem isEnabledFor_recorded (direction leg method summary peer : String)
    (attributes : Fields) (world : World) :
    (world.recorded direction leg method summary peer attributes).isEnabledFor =
      world.isEnabledFor := rfl

@[simp] theorem toCall_recorded (direction leg method summary peer : String)
    (attributes : Fields) (world : World) :
    (world.recorded direction leg method summary peer attributes).toCall = world.toCall := rfl

@[simp] theorem control_announced (app : App) (hop : NextHop) (calledNumber : String)
    (world : World) : (world.announced app hop calledNumber).control = world.control := rfl

end World

def Call.startAttempt (hop : NextHop) (leg : Ua) (seconds : Rat) (call : Call) : Call :=
  ((call.aimAt hop).createLeg leg).armNoAnswerTimer seconds

theorem record_run (direction leg method summary peer : String) (attributes : Fields)
    (world : World) :
    record direction leg method summary peer attributes world =
      .ret (world.recorded direction leg method summary peer attributes) (.ok ()) := by
  have accepted : ∀ enabled, KeysAccepted enabled
      ["call_id", "direction", "peer", "method", "leg"] := by decide
  simp only [record, Handler.run_bind, Handler.run_get, Prog.bind_ok, Handler.run_modify]
  rw [emitLog_accepted]
  · rfl
  · exact accepted _

/-! ### One attempt -/

def relayLogKeys (policy : Option PolicyDecision) : List String :=
  (policy.map fun decision => decision.relayLogFields.keys).getD []

/-- An attempt can be announced: the pending event has a called number, and the
originate line does not raise. -/
structure Attemptable (isEnabledFor : LogLevel → Bool) (policy : Option PolicyDecision)
    (pending : Option CCEvent) : Prop where
  called : ∃ calledNumber, CCEvent.calledNumber pending = .ok calledNumber
  accepted : KeysAccepted (isEnabledFor .info)
    (["call_id", "direction", "peer", "method"] ++ relayLogKeys policy)

theorem relayVocabulary_keys (policy : Option PolicyDecision) (hop : NextHop)
    (calledNumber : String) :
    (relayVocabulary policy hop calledNumber).2.2.keys = relayLogKeys policy := by
  cases policy with
  | none => rfl
  | some decision => exact keys_withAttemptFields decision.relayLogFields hop calledNumber

theorem pending_isSome_of_called {pending : Option CCEvent} {calledNumber : String}
    (called : CCEvent.calledNumber pending = .ok calledNumber) :
    ∃ event, pending = some event := by
  cases pending with
  | none => cases called
  | some event => exact ⟨event, rfl⟩

theorem startAttempt_run (hop : NextHop) (world : World) :
    startAttempt hop world =
      .ret (world.mapCall (Call.startAttempt hop (world.newLeg hop) world.expireSeconds))
        (.ok ()) := rfl

theorem announceAttempt_run (app : App) (hop : NextHop) (calledNumber : String) (world : World)
    (called : CCEvent.calledNumber world.pendingEvent = .ok calledNumber)
    (accepted : KeysAccepted (world.isEnabledFor .info)
      (["call_id", "direction", "peer", "method"] ++ relayLogKeys world.policy)) :
    announceAttempt app hop world =
      .ret (world.announced app hop calledNumber) (.ok ()) := by
  simp only [announceAttempt, Handler.run_bind, Handler.run_get, Prog.bind_ok,
    Handler.run_ofExcept, called, setPeerStatus, Handler.run_modify, record_run]
  rw [emitLog_accepted]
  · rfl
  · simpa [keywordKeys, relayVocabulary_keys] using accepted

theorem announceAttempt_refused (app : App) (hop : NextHop) (world : World)
    (refused : ¬Attemptable world.isEnabledFor world.policy world.pendingEvent) :
    ∃ last error, announceAttempt app hop world = .ret last (.error error) ∧
      last.control = world.control := by
  simp only [announceAttempt, Handler.run_bind, Handler.run_get, Prog.bind_ok,
    Handler.run_ofExcept]
  cases called : CCEvent.calledNumber world.pendingEvent with
  | error error => exact ⟨world, error, rfl, rfl⟩
  | ok calledNumber =>
      have clash : ¬KeysAccepted (world.isEnabledFor .info)
          (["call_id", "direction", "peer", "method"] ++ relayLogKeys world.policy) :=
        fun accepted => refused ⟨⟨calledNumber, called⟩, accepted⟩
      rw [← relayVocabulary_keys world.policy hop calledNumber] at clash
      simp only [Prog.bind_ok, setPeerStatus, Handler.run_modify, record_run]
      obtain ⟨error, raised⟩ := emitLog_refused .info
        (relayVocabulary world.policy hop calledNumber).1
        [("call_id", .str world.callId), ("direction", .str LogDirection.outbound),
          ("peer", .str (nextHopPeer world.toBaseCallController)), ("method", .str "INVITE")]
        [(relayVocabulary world.policy hop calledNumber).2.2]
        ((world.mapMetrics fun metrics =>
          metrics.setPeerStatus (app.peerStatusKey hop) .reachable).recorded
            LogDirection.outbound legNextHop "INVITE"
            (relayVocabulary world.policy hop calledNumber).1
            (nextHopPeer world.toBaseCallController)
            (relayVocabulary world.policy hop calledNumber).2.1)
        (by simpa [keywordKeys] using clash)
      exact ⟨_, error, raised, rfl⟩

/-! ### Giving the pending event to the new leg -/

/-- `with _sip_identity(…): ua.recvEvent(event)` and nothing after it. -/
theorem sipIdentity_callUa_run (request : UaCall) (world : World) :
    sipIdentity (callUa request) world =
      (callUa request (world.mapSipConf (SipConf.pin world.globalConfig))).ensure
        (World.mapSipConf (SipConf.putBack world.sipConf)) := rfl

theorem callUa_recvEvent_run (ref : UaRef) (event : CCEvent) (world : World) :
    callUa (.recvEvent ref event) world =
      .call (world.mapCall (Call.give ref event)) (.recvEvent ref event)
        (fun back result => .ret back result) := rfl

theorem callUa_recvRequest_run (ref : UaRef) (request : Request) (world : World) :
    callUa (.recvRequest ref request) world =
      .call world (.recvRequest ref request) (fun back result => .ret back result) := rfl

theorem callUa_disconnect_run (ref : UaRef) (world : World) :
    callUa (.disconnect ref) world =
      .call world (.disconnect ref) (fun back result => .ret back result) := rfl

theorem giveInvite_run (leg : UaRef) (pending : CCEvent) (world : World)
    (current : world.uaO = some leg) (waiting : world.pendingEvent = some pending) :
    sipIdentity giveInvite world =
      .call ((world.mapSipConf (SipConf.pin world.globalConfig)).mapCall
          (Call.give leg pending))
        (.recvEvent leg pending)
        (fun back result => .ret (back.mapSipConf (SipConf.putBack world.sipConf)) result) := by
  have called : (world.mapSipConf (SipConf.pin world.globalConfig)).uaO = some leg := current
  have kept : (world.mapSipConf (SipConf.pin world.globalConfig)).pendingEvent = some pending :=
    waiting
  have givesIt : giveInvite (world.mapSipConf (SipConf.pin world.globalConfig)) =
      callUa (.recvEvent leg pending)
        (world.mapSipConf (SipConf.pin world.globalConfig)) := by
    simp only [giveInvite, Handler.run_bind, Handler.run_get, Prog.bind_ok, called, kept]
  simp only [sipIdentity, Handler.run_bind, Handler.run_get, Prog.bind_ok, Handler.run_modify,
    Handler.run_ensure, givesIt, callUa_recvEvent_run, Prog.ensure_call, Prog.ensure_ret]

/-- The state in which an attempt that can be announced gives its leg the INVITE. -/
def World.attempted (app : App) (hop : NextHop) (calledNumber : String) (pending : CCEvent)
    (world : World) : World :=
  (((world.mapCall (Call.startAttempt hop (world.newLeg hop) world.expireSeconds)).announced
    app hop calledNumber).mapSipConf (SipConf.pin world.globalConfig)).mapCall
      (Call.give (.leg world.legs.length) pending)

theorem originateTowards_run (app : App) (hop : NextHop) (calledNumber : String)
    (pending : CCEvent) (world : World) (waiting : world.pendingEvent = some pending)
    (called : CCEvent.calledNumber world.pendingEvent = .ok calledNumber)
    (accepted : KeysAccepted (world.isEnabledFor .info)
      (["call_id", "direction", "peer", "method"] ++ relayLogKeys world.policy)) :
    originateTowards app hop world =
      .call (world.attempted app hop calledNumber pending)
        (.recvEvent (.leg world.legs.length) pending)
        (fun back result => .ret (back.mapSipConf (SipConf.putBack world.sipConf)) result) := by
  simp only [originateTowards, Handler.run_bind, startAttempt_run, Prog.bind_ok]
  rw [announceAttempt_run app hop calledNumber]
  · rw [Prog.bind_ok, giveInvite_run (.leg world.legs.length) pending]
    · rfl
    · rfl
    · exact waiting
  · exact called
  · exact accepted

theorem originateTowards_refused (app : App) (hop : NextHop) (world : World)
    (refused : ¬Attemptable world.isEnabledFor world.policy world.pendingEvent) :
    ∃ last error, originateTowards app hop world = .ret last (.error error) ∧
      last.control = world.control.mapCall
        (Call.startAttempt hop (world.newLeg hop) world.expireSeconds) := by
  obtain ⟨last, error, raised, same⟩ := announceAttempt_refused app hop
    (world.mapCall (Call.startAttempt hop (world.newLeg hop) world.expireSeconds)) refused
  refine ⟨last, error, ?_, same⟩
  simp only [originateTowards, Handler.run_bind, startAttempt_run, Prog.bind_ok, raised,
    Prog.bind_error]

/-! ### The two ways in which an attempt is started -/

def Call.decided (decision : PolicyDecision) (call : Call) : Call :=
  call.askApplication.adopt decision

def Call.relaying (decision : PolicyDecision) (hops : List NextHop) (call : Call) : Call :=
  ((call.decided decision).setPending decision.outboundEvent).setFailoverHops hops

theorem applyCallPolicy_run (app : App) (event : CCEvent) (world : World)
    (decision : PolicyDecision) (asked : app.decide event = .ok decision) :
    applyCallPolicy app event world =
      .ret (world.mapCall (Call.decided decision)) (.ok decision) := by
  simp only [applyCallPolicy, modifyCall, Handler.run_bind, Handler.run_modify,
    Handler.run_ofExcept, Handler.run_pure, Prog.bind_ok, asked, World.mapCall_mapCall]
  rfl

theorem applyCallPolicy_raised (app : App) (event : CCEvent) (world : World) (error : PyError)
    (asked : app.decide event = .error error) :
    applyCallPolicy app event world = .ret (world.mapCall Call.askApplication) (.error error) := by
  simp only [applyCallPolicy, modifyCall, Handler.run_bind, Handler.run_modify,
    Handler.run_ofExcept, Prog.bind_ok, Prog.bind_error, asked]

theorem originateOutboundLeg_raised (app : App) (event : CCEvent) (world : World)
    (error : PyError) (asked : app.decide event = .error error) :
    originateOutboundLeg app event world =
      .ret (world.mapCall Call.askApplication) (.error error) := by
  rw [originateOutboundLeg, Handler.run_bind, applyCallPolicy_raised app event world error asked,
    Prog.bind_error]

theorem Call.setFailoverHops_setFailoverHops (first second : List NextHop) (call : Call) :
    (call.setFailoverHops first).setFailoverHops second = call.setFailoverHops second := rfl

theorem originateOutboundLeg_attempt (app : App) (event : CCEvent) (world : World)
    (decision : PolicyDecision) (hop : NextHop) (rest : List NextHop)
    (asked : app.decide event = .ok decision) (action : decision.action = .relay)
    (hops : decision.nextHops = hop :: rest) :
    originateOutboundLeg app event world =
      originateTowards app hop (world.mapCall (Call.relaying decision rest)) := by
  rw [originateOutboundLeg, Handler.run_bind, applyCallPolicy_run app event world decision asked,
    Prog.bind_ok, if_neg (not_not_intro action)]
  -- Steps by congruence: a step by definition would have the kernel run the whole attempt.
  simp -implicitDefEqProofs only [hops, modifyCall, Handler.run_bind, Handler.run_modify,
    Prog.bind_ok, World.mapCall_mapCall, Call.setFailoverHops_setFailoverHops]
  rfl

theorem originateOutboundLeg_noHop (app : App) (event : CCEvent) (world : World)
    (decision : PolicyDecision) (asked : app.decide event = .ok decision)
    (action : decision.action = .relay) (empty : decision.nextHops = []) :
    originateOutboundLeg app event world =
      .ret (world.mapCall (Call.relaying decision []))
        (.error (.indexError "pop from empty list")) := by
  rw [originateOutboundLeg, Handler.run_bind, applyCallPolicy_run app event world decision asked,
    Prog.bind_ok, if_neg (not_not_intro action)]
  simp only [empty, modifyCall, Handler.run_bind, Handler.run_modify, Prog.bind_ok,
    World.mapCall_mapCall]
  rfl

theorem originateOutboundLeg_reject (app : App) (event : CCEvent) (world : World)
    (decision : PolicyDecision) (asked : app.decide event = .ok decision)
    (action : decision.action = .reject) :
    originateOutboundLeg app event world =
      rejectOnTrunk decision (world.mapCall (Call.decided decision)) := by
  have other : decision.action ≠ .relay := by simp [action]
  rw [originateOutboundLeg, Handler.run_bind, applyCallPolicy_run app event world decision asked,
    Prog.bind_ok, if_pos other]

def Call.dropHop (rest : List NextHop) (call : Call) : Call :=
  (call.setFailoverHops rest).forgetLeg

def World.failedOver (app : App) (hop : NextHop) (rest : List NextHop) (world : World) : World :=
  ((world.mapMetrics fun metrics => metrics.setPeerStatus
    ((world.servingHop.map app.peerStatusKey).getD unknownHopKey) .unreachable).mapCall
      (Call.dropHop rest)).appendLog
    (logEntry world.isEnabledFor .warning "next hop failed; trying failover hop"
      [("call_id", .str world.callId), ("direction", .str LogDirection.internal),
        ("failed_hop", .str ((world.servingHop.map NextHop.name).getD "")),
        ("failover_hop", .str hop.name),
        ("error_code", .str SkeletonErrorCode.peerUnreachable.code)] [])

@[simp] theorem World.control_failedOver (app : App) (hop : NextHop) (rest : List NextHop)
    (world : World) :
    (world.failedOver app hop rest).control = world.control.mapCall (Call.dropHop rest) := rfl

theorem tryFailover_none (app : App) (world : World) (exhausted : world.failoverHops = []) :
    tryFailover app world = .ret world (.ok false) := by
  simp only [tryFailover, Handler.run_bind, Handler.run_get, Prog.bind_ok, exhausted,
    Handler.run_pure]

theorem tryFailover_some (app : App) (world : World) (hop : NextHop) (rest : List NextHop)
    (remaining : world.failoverHops = hop :: rest) :
    tryFailover app world =
      (originateTowards app hop (world.failedOver app hop rest)).bind
        (fun middle _ => .ret middle (.ok true)) := by
  have accepted : ∀ enabled, KeysAccepted enabled
      ["call_id", "direction", "failed_hop", "failover_hop", "error_code"] := by decide
  simp only [tryFailover, Handler.run_bind, Handler.run_get, Prog.bind_ok, remaining,
    setPeerStatus, modifyCall, Handler.run_modify]
  rw [emitLog_accepted]
  · rfl
  · exact accepted _

theorem relayFromNextHop_failover (app : App) (event : CCEvent) (world : World) (hop : NextHop)
    (rest : List NextHop) (terminates : event.terminates = true)
    (away : world.trunkConnected = false) (remaining : world.failoverHops = hop :: rest) :
    relayFromNextHop app event world =
      (originateTowards app hop (world.failedOver app hop rest)).bind
        (fun middle _ => reportFailover event middle) := by
  have quiet : event.isAnswer = false := event.not_isAnswer_of_terminates terminates
  simp only [relayFromNextHop, terminates, quiet, away, Bool.false_eq_true, if_false,
    Bool.not_false, Bool.and_self, if_true, Handler.run_bind, Handler.run_get, Prog.bind_ok,
    tryFailover_some app world hop rest remaining, Prog.bind_assoc]

/-- An event of the current leg that starts no failover is relayed. -/
theorem relayFromNextHop_kept (app : App) (event : CCEvent) (world : World)
    (kept : event.terminates = true → world.trunkConnected = false → world.failoverHops = []) :
    relayFromNextHop app event world =
      relayToTrunk event
        (if event.isAnswer then world.mapCall Call.cancelNoAnswerTimer else world) := by
  cases terminates : event.terminates with
  | false =>
      cases answer : event.isAnswer <;>
        simp -implicitDefEqProofs [relayFromNextHop, terminates, answer, cancelNoAnswerTimer,
          modifyCall]
  | true =>
      have quiet : event.isAnswer = false := event.not_isAnswer_of_terminates terminates
      cases connected : world.trunkConnected with
      | true => simp -implicitDefEqProofs [relayFromNextHop, terminates, quiet, connected]
      | false =>
          simp -implicitDefEqProofs [relayFromNextHop, terminates, quiet, connected,
            tryFailover_none app world (kept terminates connected)]

theorem recvEvent_trunk (app : App) (event : CCEvent) (ua : UaRef) (world : World)
    (answering : world.uaA = some ua) :
    recvEvent app event ua world = relayFromTrunk app event world := by
  simp [recvEvent, answering]

theorem recvEvent_first (app : App) (event : CCEvent) (ua : UaRef) (world : World)
    (decision : PolicyDecision) (hop : NextHop) (rest : List NextHop)
    (answering : world.uaA = some ua) (unrouted : world.uaO = none) (first : event.isTry = true)
    (asked : app.decide event = .ok decision) (action : decision.action = .relay)
    (hops : decision.nextHops = hop :: rest) :
    recvEvent app event ua world =
      originateTowards app hop (world.mapCall (Call.relaying decision rest)) := by
  rw [← originateOutboundLeg_attempt app event world decision hop rest asked action hops,
    recvEvent_trunk app event ua world answering]
  simp [relayFromTrunk, unrouted, first]

theorem recvEvent_nextHop (app : App) (event : CCEvent) (ua : UaRef) (world : World)
    (notTrunk : world.uaA ≠ some ua) (current : world.uaO = some ua) :
    recvEvent app event ua world = relayFromNextHop app event world := by
  simp [recvEvent, notTrunk, current]

end AsPlatform
