/-
What the handlers of a controller write for others to read.

That is the number of calls started, the state of each peer and what is traced.  Only the
admission of an INVITE counts a call; a peer becomes reachable by an attempt and unreachable
by a failover; and only the report of a failover, or the application's own fields of an
INVITE, name a failed hop in an inbound event.
-/

import AsPlatform.CallController.Handled
import AsPlatform.Library.Keeping

namespace AsPlatform

open Reentrant

structure Told where
  callsTotal : Nat
  peerStatus : OrderedDict String PeerStatus
  recorded : List TraceEvent

def World.told (world : World) : Told where
  callsTotal := world.metrics.callsTotal
  peerStatus := world.metrics.peerStatus
  recorded := world.tracer.recorded

def Told.Records (events : TraceEvent → Prop) (before after : Told) : Prop :=
  ∃ more, after.recorded = before.recorded ++ more ∧ ∀ event, event ∈ more → events event

structure Told.Grows (peers : String → PeerStatus → Prop) (events : TraceEvent → Prop)
    (before after : Told) : Prop where
  callsTotal : after.callsTotal = before.callsTotal
  peerStatus : ∀ name, after.peerStatus.get? name = before.peerStatus.get? name ∨
    ∃ status, peers name status ∧ after.peerStatus.get? name = some status
  recorded : before.Records events after

def noPeers (_ : String) (_ : PeerStatus) : Prop := False

def anyPeer (_ : String) (_ : PeerStatus) : Prop := True

def anyEvent (_ : TraceEvent) : Prop := True

/-! ### Kinds of events -/

namespace TraceEvent

def IsInvite (event : TraceEvent) : Prop :=
  event.direction = LogDirection.outbound ∧ event.method = "INVITE"

def NamesFailedHop (event : TraceEvent) : Prop :=
  event.direction = LogDirection.inbound ∧ event.attributes.get? "failed_hop" ≠ none

structure Plain (event : TraceEvent) : Prop where
  noInvite : ¬event.IsInvite
  noFailedHop : ¬event.NamesFailedHop

structure Attempts (hop : NextHop) (event : TraceEvent) : Prop where
  outbound : event.direction = LogDirection.outbound
  peer : event.peer = renderPeer hop.address hop.port

def Inbound (event : TraceEvent) : Prop :=
  event.direction = LogDirection.inbound

theorem outbound_ne_inbound : LogDirection.outbound ≠ LogDirection.inbound := by decide

theorem Attempts.noFailedHop {hop : NextHop} {event : TraceEvent} (attempts : event.Attempts hop) :
    ¬event.NamesFailedHop :=
  fun names => outbound_ne_inbound (attempts.outbound.symm.trans names.1)

theorem Inbound.noInvite {event : TraceEvent} (inbound : event.Inbound) : ¬event.IsInvite :=
  fun invite => outbound_ne_inbound (invite.1.symm.trans inbound)

theorem plain_inbound (callId leg method summary peer : String) :
    ({ callId := callId
       direction := LogDirection.inbound
       method := method
       summary := summary
       peer := peer
       attributes := (OrderedDict.singleton "leg" (.str leg)).update ∅ } : TraceEvent).Plain :=
  ⟨Inbound.noInvite rfl, fun names => names.2 rfl⟩

theorem plain_outbound {event : TraceEvent} (outbound : event.direction = LogDirection.outbound)
    (other : event.method ≠ "INVITE") : event.Plain :=
  ⟨fun invite => other invite.2, fun names => outbound_ne_inbound (outbound.symm.trans names.1)⟩

end TraceEvent

theorem toString_ne_invite (code : Nat) : toString code ≠ "INVITE" := by
  intro same
  have member : 'I' ∈ Nat.toDigits 10 code := by
    have spelt : (toString code).toList = Nat.toDigits 10 code := Nat.toList_repr
    rw [← spelt, same]
    decide
  have digit := Nat.isDigit_of_mem_toDigits (by decide) (by decide) member
  revert digit
  decide

theorem describeEvent_ne_invite {event : CCEvent} (answer : event.isAnswer = true) :
    (describeEvent event).1 ≠ "INVITE" := by
  cases event with
  | ring data =>
      cases data with
      | none => decide
      | some data => exact toString_ne_invite data.code
  | connect data =>
      cases data with
      | none => decide
      | some data => exact toString_ne_invite data.code
  | _ => cases answer

namespace Told

variable {peers morePeers : String → PeerStatus → Prop} {events moreEvents : TraceEvent → Prop}

theorem Records.refl (told : Told) : told.Records events told :=
  ⟨[], (List.append_nil _).symm, fun _ member => absurd member List.not_mem_nil⟩

theorem Records.trans {first second third : Told} (earlier : first.Records events second)
    (later : second.Records events third) : first.Records events third := by
  obtain ⟨more, isMore, allowed⟩ := earlier
  obtain ⟨still, isStill, allowedToo⟩ := later
  refine ⟨more ++ still, ?_, ?_⟩
  · rw [isStill, isMore, List.append_assoc]
  · intro event member
    rcases List.mem_append.mp member with before | after
    · exact allowed event before
    · exact allowedToo event after

theorem Records.mono {before after : Told} (records : before.Records events after)
    (weaker : ∀ event, events event → moreEvents event) : before.Records moreEvents after := by
  obtain ⟨more, isMore, allowed⟩ := records
  exact ⟨more, isMore, fun event member => weaker event (allowed event member)⟩

theorem Grows.refl (told : Told) : told.Grows peers events told :=
  ⟨rfl, fun _ => Or.inl rfl, Records.refl told⟩

theorem Grows.trans {first second third : Told} (earlier : first.Grows peers events second)
    (later : second.Grows peers events third) : first.Grows peers events third := by
  refine ⟨later.callsTotal.trans earlier.callsTotal, ?_, earlier.recorded.trans later.recorded⟩
  intro name
  rcases later.peerStatus name with same | set
  · rw [same]
    exact earlier.peerStatus name
  · exact Or.inr set

theorem Grows.mono {before after : Told} (grows : before.Grows peers events after)
    (peersToo : ∀ name status, peers name status → morePeers name status)
    (eventsToo : ∀ event, events event → moreEvents event) :
    before.Grows morePeers moreEvents after := by
  refine ⟨grows.callsTotal, ?_, grows.recorded.mono eventsToo⟩
  intro name
  rcases grows.peerStatus name with same | ⟨status, set, isStatus⟩
  · exact Or.inl same
  · exact Or.inr ⟨status, peersToo name status set, isStatus⟩

theorem Grows.get?_peerStatus {before after : Told} (grows : before.Grows peers events after)
    {name : String} (other : ∀ status, ¬peers name status) :
    after.peerStatus.get? name = before.peerStatus.get? name := by
  rcases grows.peerStatus name with same | ⟨status, set, _⟩
  · exact same
  · exact absurd set (other status)

end Told

def Writes (peers : String → PeerStatus → Prop) (events : TraceEvent → Prop) {Result : Type}
    (handler : Ctl Result) : Prop :=
  ∀ world, (handler world).Moves (Told.Grows peers events) World.told world.told

/-! ### The operations from which the handlers are built -/

section Operations

variable {peers : String → PeerStatus → Prop} {events : TraceEvent → Prop} {First Result : Type}

theorem writes_pure (value : Result) : Writes peers events (pure value : Ctl Result) :=
  fun world => Told.Grows.refl world.told

theorem writes_raise (error : PyError) :
    Writes peers events (Handler.raise error : Ctl Result) :=
  fun world => Told.Grows.refl world.told

theorem writes_ofExcept (result : Except PyError Result) :
    Writes peers events (Handler.ofExcept result) :=
  fun world => Told.Grows.refl world.told

theorem writes_callOut (request : UaCall) :
    Writes peers events (Handler.callOut request : Ctl Unit) :=
  fun world => ⟨Told.Grows.refl world.told, fun back _ => Told.Grows.refl back.told⟩

theorem writes_bind {first : Ctl First} {next : First → Ctl Result}
    (writes : Writes peers events first) (onward : ∀ value, Writes peers events (next value)) :
    Writes peers events (first >>= next) := by
  intro world
  exact (writes world).bind (fun _ _ _ => Told.Grows.trans)
    (fun state value => onward value state)

theorem writes_read {body : World → Ctl Result}
    (onward : ∀ world, Writes peers events (body world)) :
    Writes peers events (Handler.get >>= body) :=
  fun world => onward world world

/-- What nobody is told of. -/
theorem writes_modify {change : World → World}
    (silent : ∀ world, (change world).told = world.told) :
    Writes peers events (Handler.modify change) := by
  intro world
  change Told.Grows peers events world.told (change world).told
  rw [silent]
  exact Told.Grows.refl world.told

theorem modifyCall_writes (change : Call → Call) : Writes peers events (modifyCall change) :=
  writes_modify fun _ => rfl

theorem writes_trace {event : TraceEvent} (allowed : events event) :
    Writes peers events
      (Handler.modify (World.mapTracer fun tracer => tracer.record event) : Ctl Unit) := by
  intro world
  refine ⟨rfl, fun _ => Or.inl rfl, [event], rfl, ?_⟩
  intro other member
  rw [List.mem_singleton.mp member]
  exact allowed

theorem setPeerStatus_writes {peerName : String} {status : PeerStatus}
    (allowed : peers peerName status) : Writes peers events (setPeerStatus peerName status) := by
  intro world
  refine ⟨rfl, ?_, [], (List.append_nil _).symm, fun _ member => absurd member List.not_mem_nil⟩
  intro name
  have inserted := OrderedDict.get?_insert world.metrics.peerStatus peerName name status
  by_cases same : peerName = name
  · rw [if_pos same] at inserted
    exact Or.inr ⟨status, same ▸ allowed, inserted⟩
  · rw [if_neg same] at inserted
    exact Or.inl inserted

theorem emitLog_writes (level : LogLevel) (event : String) (named : List (String × Value))
    (splatted : List Fields) : Writes peers events (emitLog level event named splatted) :=
  writes_read fun _ => writes_bind (writes_ofExcept _) (fun _ => writes_modify fun _ => rfl)

theorem emitLog_ends (level : LogLevel) (event : String) (named : List (String × Value))
    (splatted : List Fields) (world : World) :
    ∃ last result, emitLog level event named splatted world = .ret last result := by
  simp only [emitLog, Handler.run_bind, Handler.run_get, Prog.bind_ok]
  cases logEvent world.isEnabledFor level event named splatted with
  | error error => exact ⟨_, _, rfl⟩
  | ok entry => exact ⟨_, _, rfl⟩

theorem record_writes {direction leg method summary peer : String} {attributes : Fields}
    (allowed : ∀ callId, events
      { callId := callId
        direction := direction
        method := method
        summary := summary
        peer := peer
        attributes := (OrderedDict.singleton "leg" (.str leg)).update attributes }) :
    Writes peers events (record direction leg method summary peer attributes) :=
  writes_read fun world => writes_bind (writes_trace (allowed world.callId))
    (fun _ => emitLog_writes _ _ _ _)

theorem sipIdentity_writes {body : Ctl Unit} (writes : Writes peers events body) :
    Writes peers events (sipIdentity body) := by
  refine writes_read fun world => writes_bind (writes_modify fun _ => rfl) ?_
  intro _ later
  exact Prog.Moves.ensure (writes later) (fun _ => rfl)

end Operations

/-! ### The handlers -/

section Handlers

variable {peers : String → PeerStatus → Prop} {events : TraceEvent → Prop}

theorem recordCallDisposition_writes (disposition : CallDisposition) :
    Writes peers events (recordCallDisposition disposition) :=
  writes_modify fun _ => rfl

theorem cancelNoAnswerTimer_writes : Writes peers events cancelNoAnswerTimer :=
  modifyCall_writes _

theorem recordDisposition_writes (event : CCEvent) :
    Writes peers events (recordDisposition event) :=
  writes_read fun _ => writes_bind (recordCallDisposition_writes _)
    (fun _ => emitLog_writes _ _ _ _)

theorem callUa_writes (request : UaCall) : Writes peers events (callUa request) := by
  cases request with
  | recvEvent ref event => exact writes_bind (modifyCall_writes _) (fun _ => writes_callOut _)
  | recvRequest ref request => exact writes_callOut _
  | disconnect ref => exact writes_callOut _

theorem giveTrunk_writes (event : CCEvent) : Writes peers events (giveTrunk event) := by
  refine writes_read fun world => ?_
  cases world.uaA with
  | none => exact writes_raise _
  | some ref => exact callUa_writes _

theorem giveInvite_writes : Writes peers events giveInvite := by
  refine writes_read fun world => ?_
  split
  · exact callUa_writes _
  · exact writes_raise _

theorem onNextHopNoAnswer_writes (app : App) : Writes peers events (onNextHopNoAnswer app) := by
  refine writes_read fun world => ?_
  split
  · exact writes_pure _
  · split
    · exact writes_pure _
    · exact writes_bind (emitLog_writes _ _ _ _) (fun _ => callUa_writes _)

theorem applyCallPolicy_writes (app : App) (event : CCEvent) :
    Writes peers events (applyCallPolicy app event) :=
  writes_bind (modifyCall_writes _) fun _ => writes_bind (writes_ofExcept _) fun decision =>
    writes_bind (modifyCall_writes _) fun _ => writes_pure decision

/-- The attempt is told of with the hop the controller is aimed at. -/
theorem announceAttempt_writes (app : App) {hop : NextHop} (world : World)
    (aimed : world.nextHop = some hop.target)
    (reachable : peers (app.peerStatusKey hop) .reachable)
    (attempts : ∀ event : TraceEvent, event.Attempts hop → events event) :
    (announceAttempt app hop world).Moves (Told.Grows peers events) World.told world.told := by
  have peer : nextHopPeer world.toBaseCallController = renderPeer hop.address hop.port := by
    rw [nextHopPeer, aimed]
    rfl
  have announced : Writes peers events
      (do
        let calledNumber ← Handler.ofExcept (CCEvent.calledNumber world.pendingEvent)
        setPeerStatus (app.peerStatusKey hop) .reachable
        record LogDirection.outbound legNextHop "INVITE"
          (relayVocabulary world.policy hop calledNumber).1
          (nextHopPeer world.toBaseCallController)
          (relayVocabulary world.policy hop calledNumber).2.1
        emitLog .info (relayVocabulary world.policy hop calledNumber).1
          [("call_id", .str world.callId), ("direction", .str LogDirection.outbound),
            ("peer", .str (nextHopPeer world.toBaseCallController)), ("method", .str "INVITE")]
          [(relayVocabulary world.policy hop calledNumber).2.2]) :=
    writes_bind (writes_ofExcept _) fun _ => writes_bind (setPeerStatus_writes reachable) fun _ =>
      writes_bind (record_writes fun _ => attempts _ ⟨rfl, peer⟩) fun _ => emitLog_writes _ _ _ _
  exact announced world

theorem originateTowards_writes (app : App) {hop : NextHop}
    (reachable : peers (app.peerStatusKey hop) .reachable)
    (attempts : ∀ event : TraceEvent, event.Attempts hop → events event) :
    Writes peers events (originateTowards app hop) := by
  intro world
  have announced := announceAttempt_writes app
    (world.mapCall (Call.startAttempt hop (world.newLeg hop) world.expireSeconds)) rfl
    reachable attempts
  rw [originateTowards, Handler.run_bind, startAttempt_run, Prog.bind_ok]
  exact announced.bind (fun _ _ _ => Told.Grows.trans)
    (fun state _ => sipIdentity_writes giveInvite_writes state)

variable (quiet : ∀ event : TraceEvent, event.Plain → events event)
include quiet

theorem announceReject_writes (decision : PolicyDecision) (error : AsError) :
    Writes peers events (announceReject decision error) := by
  refine writes_bind cancelNoAnswerTimer_writes fun _ =>
    writes_bind (recordCallDisposition_writes _) fun _ => writes_read fun _ => ?_
  exact writes_bind
    (writes_trace (quiet _ (TraceEvent.plain_outbound rfl (toString_ne_invite error.sipStatus))))
    (fun _ => emitLog_writes _ _ _ _)

theorem rejectOnTrunk_writes (decision : PolicyDecision) :
    Writes peers events (rejectOnTrunk decision) := by
  unfold rejectOnTrunk
  cases decision.error with
  | none => exact writes_raise _
  | some error =>
      refine writes_bind (announceReject_writes quiet decision error) fun _ =>
        writes_read fun world => ?_
      split
      · exact giveTrunk_writes _
      · exact writes_pure ()

theorem reportRelayed_writes (event : CCEvent) : Writes peers events (reportRelayed event) := by
  unfold reportRelayed
  dsimp only
  split
  · rename_i relayed
    have answer : event.isAnswer = true := (Bool.and_eq_true_iff.mp relayed).1
    exact writes_read fun _ => record_writes fun _ => quiet _
      (TraceEvent.plain_outbound rfl (describeEvent_ne_invite answer))
  · exact writes_pure ()

theorem relayToTrunk_writes (event : CCEvent) : Writes peers events (relayToTrunk event) := by
  unfold relayToTrunk
  dsimp only
  refine writes_read fun world =>
    writes_bind (record_writes fun _ => quiet _ (TraceEvent.plain_inbound _ _ _ _ _)) ?_
  have given : Writes peers events
      (do
        if world.uaA.isSome then
          giveTrunk event
        reportRelayed event) := by
    split
    · exact writes_bind (giveTrunk_writes event) (fun _ => reportRelayed_writes quiet event)
    · exact reportRelayed_writes quiet event
  intro _
  split
  · exact writes_bind cancelNoAnswerTimer_writes fun _ =>
      writes_bind (recordDisposition_writes event) fun _ => given
  · exact given

omit quiet

/-- The report of a failover names the hop that is served by then. -/
theorem reportFailover_writes (inbound : ∀ event : TraceEvent, event.Inbound → events event)
    (event : CCEvent) : Writes peers events (reportFailover event) :=
  writes_bind cancelNoAnswerTimer_writes fun _ => writes_read fun _ =>
    record_writes fun _ => inbound _ rfl

theorem tryFailover_writes (app : App) : Writes anyPeer anyEvent (tryFailover app) := by
  refine writes_read fun world => ?_
  split
  · exact writes_pure false
  · refine writes_bind (setPeerStatus_writes trivial) fun _ =>
      writes_bind (modifyCall_writes _) fun _ => writes_bind (modifyCall_writes _) fun _ =>
        writes_bind (emitLog_writes _ _ _ _) fun _ => ?_
    exact writes_bind (originateTowards_writes app trivial (fun _ _ => trivial))
      (fun _ => writes_pure true)

theorem relayFromNextHop_writes (app : App) (event : CCEvent) :
    Writes anyPeer anyEvent (relayFromNextHop app event) := by
  have last : ∀ failedOver : Bool, Writes anyPeer anyEvent
      (if failedOver = true then reportFailover event else relayToTrunk event) := by
    intro failedOver
    split
    · exact reportFailover_writes (fun _ _ => trivial) event
    · exact relayToTrunk_writes (fun _ _ => trivial) event
  have rest : Writes anyPeer anyEvent
      (do
        let world ← Handler.get
        let failedOver ←
          if event.terminates && !world.trunkConnected then tryFailover app else pure false
        if failedOver then
          reportFailover event
        else
          relayToTrunk event) := by
    refine writes_read fun world => ?_
    dsimp only
    split
    · exact writes_bind (tryFailover_writes app) last
    · exact writes_bind (writes_pure false) last
  unfold relayFromNextHop
  split
  · exact writes_bind cancelNoAnswerTimer_writes (fun _ => rest)
  · exact rest

theorem originateOutboundLeg_writes (app : App) (event : CCEvent) :
    Writes anyPeer anyEvent (originateOutboundLeg app event) := by
  refine writes_bind (applyCallPolicy_writes app event) (fun decision => ?_)
  split
  · exact rejectOnTrunk_writes (fun _ _ => trivial) decision
  · refine writes_bind (modifyCall_writes _) fun _ => writes_bind (modifyCall_writes _) fun _ => ?_
    cases decision.nextHops with
    | nil => exact writes_raise _
    | cons hop rest =>
        exact writes_bind (modifyCall_writes _)
          (fun _ => originateTowards_writes app trivial (fun _ _ => trivial))

theorem relayFromTrunk_writes (app : App) (event : CCEvent) :
    Writes anyPeer anyEvent (relayFromTrunk app event) := by
  unfold relayFromTrunk
  dsimp only
  refine writes_read fun world => ?_
  split
  · split
    · exact giveTrunk_writes _
    · exact originateOutboundLeg_writes app event
  · exact writes_bind (record_writes fun _ => trivial) (fun _ => callUa_writes _)

theorem handler_writes (app : App) {label : Label}
    (notInvite : ∀ request, label ≠ .invite request) :
    Writes anyPeer anyEvent (label.handler app) := by
  cases label with
  | invite request => exact absurd rfl (notInvite request)
  | raises ua event =>
      refine writes_read fun world => ?_
      split
      · exact relayFromTrunk_writes app event
      · split
        · exact writes_pure ()
        · exact relayFromNextHop_writes app event
  | connected value => exact modifyCall_writes _
  | fires timer => exact onNextHopNoAnswer_writes app
  | noAnswer => exact onNextHopNoAnswer_writes app
  | dispose => exact cancelNoAnswerTimer_writes

/-! ### The INVITE -/

def announceInvite (request : Request) (fields : Fields) : Ctl Unit := do
  setPeerStatus (sourcePeer request ++ ":trunk") .reachable
  record LogDirection.inbound legTrunk "INVITE" "invite received from the trunk"
    (sourcePeer request) fields
  emitLog .info "invite received on the trunk"
    [("call_id", .str request.callId), ("direction", .str LogDirection.inbound),
      ("peer", .str (sourcePeer request)), ("method", .str "INVITE")]
    [fields]

def answerInvite (request : Request) : Ctl Unit := do
  let world ← Handler.get
  modifyCall (Call.createTrunk
    { nhAddress := none
      localUa := world.globalConfig.sipUaname.getD ""
      lContact := localContact world.globalConfig world.sipConf })
  sipIdentity (callUa (.recvRequest .trunk request))

theorem receiveInvite_given {app : App} {request : Request} {fields : Fields}
    (given : app.inboundFields request = .ok fields) (world : World) :
    receiveInvite app request world =
      (announceInvite request fields >>= fun _ => answerInvite request)
        (((world.mapCall (Call.rememberRequest request)).mapCall
          (Call.identify request.callId (sourcePeer request))).mapMetrics
            MetricsRegistry.recordCallStarted) := by
  simp only [receiveInvite, captureTrunkRequest, recvRequest, admitInvite, modifyCall,
    Handler.run_bind, Handler.run_modify, Handler.run_ofExcept, given, Prog.bind_ok,
    Handler.run_get]
  rfl

theorem announceInvite_writes (request : Request) (fields : Fields) :
    Writes anyPeer TraceEvent.Inbound (announceInvite request fields) :=
  writes_bind (setPeerStatus_writes trivial) fun _ =>
    writes_bind (record_writes fun _ => rfl) fun _ => emitLog_writes _ _ _ _

theorem answerInvite_writes (request : Request) : Writes peers events (answerInvite request) :=
  writes_read fun _ => writes_bind (modifyCall_writes _) fun _ =>
    sipIdentity_writes (callUa_writes _)

theorem announceInvite_run (request : Request) (fields : Fields) (world : World) :
    ∃ last result, announceInvite request fields world = .ret last result := by
  simp only [announceInvite, Handler.run_bind, setPeerStatus, Handler.run_modify, Prog.bind_ok,
    record_run]
  exact emitLog_ends _ _ _ _ _

/-- An INVITE whose fields are given is counted before anything is called. -/
theorem receiveInvite_counts {app : App} {request : Request} {fields : Fields}
    (given : app.inboundFields request = .ok fields) (world : World) :
    (receiveInvite app request world).Spares (fun world => world.told.callsTotal)
      (world.told.callsTotal + 1) := by
  rw [receiveInvite_given given]
  have whole := writes_bind (announceInvite_writes request fields)
    (fun _ => answerInvite_writes request)
    (((world.mapCall (Call.rememberRequest request)).mapCall
      (Call.identify request.callId (sourcePeer request))).mapMetrics
        MetricsRegistry.recordCallStarted)
  exact whole.spares Told.callsTotal (fun _ _ grows => grows.callsTotal)

/-- An INVITE whose fields are refused is not counted. -/
theorem receiveInvite_refused {app : App} {request : Request} {error : PyError}
    (refused : app.inboundFields request = .error error) (world : World) :
    receiveInvite app request world =
      .ret ((world.mapCall (Call.rememberRequest request)).mapCall
        (Call.identify request.callId (sourcePeer request))) (.error error) := by
  simp only [receiveInvite, captureTrunkRequest, recvRequest, admitInvite, modifyCall,
    Handler.run_bind, Handler.run_modify, Handler.run_ofExcept, refused, Prog.bind_ok,
    Prog.bind_error]

/-- All that is told of an INVITE is told before the answering leg is handed it. -/
theorem receiveInvite_opens (app : App) (request : Request) (world : World) :
    (receiveInvite app request world).Opens (Told.Records TraceEvent.Inbound)
      (Told.Grows peers events) World.told world.told := by
  cases given : app.inboundFields request with
  | error error =>
      rw [receiveInvite_refused given]
      exact Told.Records.refl world.told
  | ok fields =>
      rw [receiveInvite_given given, Handler.run_bind]
      have announced := announceInvite_writes request fields
        (((world.mapCall (Call.rememberRequest request)).mapCall
          (Call.identify request.callId (sourcePeer request))).mapMetrics
            MetricsRegistry.recordCallStarted)
      obtain ⟨last, result, ran⟩ := announceInvite_run request fields
        (((world.mapCall (Call.rememberRequest request)).mapCall
          (Call.identify request.callId (sourcePeer request))).mapMetrics
            MetricsRegistry.recordCallStarted)
      rw [ran] at announced ⊢
      cases result with
      | error error => exact announced.recorded
      | ok value => exact ⟨announced.recorded, fun back _ => Told.Grows.refl back.told⟩

end Handlers

end AsPlatform
