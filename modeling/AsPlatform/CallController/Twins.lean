/-
Two calls whose applications take decisions that differ only in their vocabulary.

The two are twins as long as they differ at most in the decision they remember and in
what was traced and logged.  Every handler keeps twins twins, provided the splatted
mappings of both decisions are accepted where they are logged.
-/

import AsPlatform.CallController.Decisions
import AsPlatform.Library.Lockstep

namespace AsPlatform

open Reentrant

def App.taking (app : App) (decision : PolicyDecision) : App :=
  { app with decide := fun _ => .ok decision }

structure Agree (first second : PolicyDecision) : Prop where
  action : first.action = second.action
  outboundEvent : first.outboundEvent = second.outboundEvent
  nextHops : first.nextHops = second.nextHops
  disposition : first.disposition = second.disposition
  code : first.error.map AsError.code = second.error.map AsError.code

def Call.apart (call : Call) : Call :=
  { call with policy := none }

structure Call.Blind (change : Call → Call) : Prop where
  apart : ∀ call : Call, (change call).apart = (change call.apart).apart
  policy : ∀ call : Call, (change call).policy = call.policy

structure Twins (levels : LogLevel → Bool) (first second : PolicyDecision)
    (left right : World) : Prop where
  call : left.toCall.apart = right.toCall.apart
  policy : (left.policy = none ∧ right.policy = none) ∨
    (left.policy = some first ∧ right.policy = some second)
  metrics : left.metrics = right.metrics
  sipConf : left.sipConf = right.sipConf
  leftLevels : left.isEnabledFor = levels
  rightLevels : right.isEnabledFor = levels

namespace Call.Blind

theorem mapUa (ref : UaRef) (change : Ua → Ua) : Blind (Call.mapUa ref change) := by
  cases ref <;> exact ⟨fun _ => rfl, fun _ => rfl⟩

theorem give (ref : UaRef) (event : CCEvent) : Blind (Call.give ref event) :=
  mapUa ref (Ua.give event)

theorem raise (ref : UaRef) (event : CCEvent) : Blind (Call.raise ref event) :=
  mapUa ref (Ua.raise event)

theorem cancelNoAnswerTimer : Blind Call.cancelNoAnswerTimer := by
  constructor
  · intro call
    cases reference : call.noAnswerTimer with
    | none => simp [Call.cancelNoAnswerTimer, Call.apart, reference]
    | some timer => simp [Call.cancelNoAnswerTimer, Call.apart, reference]
  · intro call
    rw [toBaseCallController_cancelNoAnswerTimer]

theorem rememberRequest (request : Request) : Blind (Call.rememberRequest request) :=
  ⟨fun _ => rfl, fun _ => rfl⟩

theorem identify (callId trunkPeer : String) : Blind (Call.identify callId trunkPeer) :=
  ⟨fun _ => rfl, fun _ => rfl⟩

theorem createTrunk (ua : Ua) : Blind (Call.createTrunk ua) :=
  ⟨fun _ => rfl, fun _ => rfl⟩

theorem fireTimer (timer : Nat) : Blind (Call.fireTimer timer) :=
  ⟨fun _ => rfl, fun _ => rfl⟩

theorem dropHop (rest : List NextHop) : Blind (Call.dropHop rest) :=
  ⟨fun _ => rfl, fun _ => rfl⟩

theorem startAttempt (hop : NextHop) (leg : Ua) (seconds : Rat) :
    Blind (Call.startAttempt hop leg seconds) :=
  ⟨fun _ => rfl, fun _ => rfl⟩

end Call.Blind

namespace Twins

variable {levels : LogLevel → Bool} {first second : PolicyDecision} {left right : World}

theorem same {Part : Type} (twins : Twins levels first second left right) (part : Call → Part)
    (blind : ∀ call : Call, part call.apart = part call) :
    part left.toCall = part right.toCall := by
  rw [← blind left.toCall, ← blind right.toCall, twins.call]

theorem mapCall (twins : Twins levels first second left right) {change : Call → Call}
    (blind : Call.Blind change) :
    Twins levels first second (left.mapCall change) (right.mapCall change) where
  call := by
    change (change left.toCall).apart = (change right.toCall).apart
    rw [blind.apart, twins.call, ← blind.apart]
  policy := by
    have leftSame : (left.mapCall change).policy = left.policy := blind.policy left.toCall
    have rightSame : (right.mapCall change).policy = right.policy := blind.policy right.toCall
    rw [leftSame, rightSame]
    exact twins.policy
  metrics := twins.metrics
  sipConf := twins.sipConf
  leftLevels := twins.leftLevels
  rightLevels := twins.rightLevels

theorem decided (twins : Twins levels first second left right) :
    Twins levels first second (left.mapCall (Call.decided first))
      (right.mapCall (Call.decided second)) :=
  ⟨congrArg Call.askApplication twins.call, Or.inr ⟨rfl, rfl⟩, twins.metrics, twins.sipConf,
    twins.leftLevels, twins.rightLevels⟩

theorem mapMetrics (twins : Twins levels first second left right)
    (change : MetricsRegistry → MetricsRegistry) :
    Twins levels first second (left.mapMetrics change) (right.mapMetrics change) :=
  ⟨twins.call, twins.policy, congrArg change twins.metrics, twins.sipConf, twins.leftLevels,
    twins.rightLevels⟩

theorem mapSipConf (twins : Twins levels first second left right) (change : SipConf → SipConf) :
    Twins levels first second (left.mapSipConf change) (right.mapSipConf change) :=
  ⟨twins.call, twins.policy, twins.metrics, congrArg change twins.sipConf, twins.leftLevels,
    twins.rightLevels⟩

theorem mapTracer (twins : Twins levels first second left right)
    (leftChange rightChange : TraceRecorder → TraceRecorder) :
    Twins levels first second (left.mapTracer leftChange) (right.mapTracer rightChange) :=
  ⟨twins.call, twins.policy, twins.metrics, twins.sipConf, twins.leftLevels,
    twins.rightLevels⟩

theorem appendLog (twins : Twins levels first second left right)
    (leftEntry rightEntry : Option LogRecord) :
    Twins levels first second (left.appendLog leftEntry) (right.appendLog rightEntry) :=
  ⟨twins.call, twins.policy, twins.metrics, twins.sipConf, twins.leftLevels,
    twins.rightLevels⟩

theorem recorded (twins : Twins levels first second left right)
    (leftDirection leftLeg leftMethod leftSummary leftPeer : String) (leftAttributes : Fields)
    (rightDirection rightLeg rightMethod rightSummary rightPeer : String)
    (rightAttributes : Fields) :
    Twins levels first second
      (left.recorded leftDirection leftLeg leftMethod leftSummary leftPeer leftAttributes)
      (right.recorded rightDirection rightLeg rightMethod rightSummary rightPeer
        rightAttributes) :=
  ⟨twins.call, twins.policy, twins.metrics, twins.sipConf, twins.leftLevels,
    twins.rightLevels⟩

end Twins

/-! ### Log, trace and counters -/

section Handlers

variable {levels : LogLevel → Bool} {first second : PolicyDecision}

abbrev Alike (levels : LogLevel → Bool) (first second : PolicyDecision)
    (left right : Prog World UaCall PyError Unit) : Prop :=
  Prog.Alike (Twins levels first second) left right

variable {left right : World}

theorem modifyCall_alike {change : Call → Call} (blind : Call.Blind change) :
    (modifyCall change).Alike (Twins levels first second) (modifyCall change) :=
  Handler.alike_modify (fun _ _ twins => twins.mapCall blind)

theorem setPeerStatus_alike (peerName : String) (status : PeerStatus) :
    (setPeerStatus peerName status).Alike (Twins levels first second)
      (setPeerStatus peerName status) :=
  Handler.alike_modify (fun _ _ twins => twins.mapMetrics _)

theorem cancelNoAnswerTimer_alike :
    cancelNoAnswerTimer.Alike (Twins levels first second) cancelNoAnswerTimer :=
  modifyCall_alike Call.Blind.cancelNoAnswerTimer

theorem emitLog_alike (twins : Twins levels first second left right) (level : LogLevel)
    (leftEvent rightEvent : String) (leftNamed rightNamed : List (String × Value))
    (leftSplatted rightSplatted : List Fields)
    (leftAccepted : KeysAccepted (levels level) (keywordKeys leftNamed leftSplatted))
    (rightAccepted : KeysAccepted (levels level) (keywordKeys rightNamed rightSplatted)) :
    Alike levels first second (emitLog level leftEvent leftNamed leftSplatted left)
      (emitLog level rightEvent rightNamed rightSplatted right) := by
  rw [← twins.leftLevels] at leftAccepted
  rw [← twins.rightLevels] at rightAccepted
  rw [emitLog_accepted level leftEvent leftNamed leftSplatted left leftAccepted,
    emitLog_accepted level rightEvent rightNamed rightSplatted right rightAccepted]
  exact .ret (twins.appendLog _ _) (.ok ())

theorem record_alike (twins : Twins levels first second left right)
    (leftDirection leftLeg leftMethod leftSummary leftPeer : String) (leftAttributes : Fields)
    (rightDirection rightLeg rightMethod rightSummary rightPeer : String)
    (rightAttributes : Fields) :
    Alike levels first second
      (record leftDirection leftLeg leftMethod leftSummary leftPeer leftAttributes left)
      (record rightDirection rightLeg rightMethod rightSummary rightPeer rightAttributes
        right) := by
  rw [record_run, record_run]
  exact .ret (twins.recorded _ _ _ _ _ _ _ _ _ _ _ _) (.ok ())

theorem recordDisposition_alike (event : CCEvent) :
    (recordDisposition event).Alike (Twins levels first second) (recordDisposition event) := by
  have accepted : ∀ enabled, KeysAccepted enabled ["call_id", "direction", "disposition"] := by
    decide
  apply Handler.alike_get
  intro left right twins
  have outcome := twins.same (Call.outcome event) (fun _ => rfl)
  rw [outcome]
  refine Prog.Alike.bind ?_ (fun _ _ _ later => ?_)
  · exact .ret (twins.mapMetrics _) (.ok ())
  · exact emitLog_alike later .info _ _ _ _ [] [] (accepted _) (accepted _)

theorem callUa_alike (request : UaCall) :
    (callUa request).Alike (Twins levels first second) (callUa request) := by
  cases request with
  | recvEvent ref event =>
      exact Handler.alike_bind (modifyCall_alike (Call.Blind.give ref event))
        (fun _ => Handler.alike_callOut _)
  | recvRequest ref request => exact Handler.alike_callOut _
  | disconnect ref => exact Handler.alike_callOut _

theorem giveTrunk_alike (event : CCEvent) :
    (giveTrunk event).Alike (Twins levels first second) (giveTrunk event) := by
  apply Handler.alike_get
  intro left right twins
  rw [twins.same (fun call => call.uaA) (fun _ => rfl)]
  cases right.uaA with
  | none => exact Handler.alike_raise _ left right twins
  | some ref => exact callUa_alike _ left right twins

/-! ### Events of the originating leg -/

theorem reportRelayed_alike (event : CCEvent) :
    (reportRelayed event).Alike (Twins levels first second) (reportRelayed event) := by
  unfold reportRelayed
  dsimp only
  split
  · apply Handler.alike_get
    intro left right twins
    exact record_alike twins _ _ _ _ _ _ _ _ _ _ _ _
  · exact Handler.alike_pure ()

theorem reportFailover_alike (event : CCEvent) :
    (reportFailover event).Alike (Twins levels first second) (reportFailover event) := by
  apply Handler.alike_bind cancelNoAnswerTimer_alike
  intro _
  apply Handler.alike_get
  intro left right twins
  exact record_alike twins _ _ _ _ _ _ _ _ _ _ _ _

theorem giveAndReport_alike (event : CCEvent) (answering : Bool) :
    Handler.Alike (Twins levels first second)
      (do
        if answering then
          giveTrunk event
        reportRelayed event)
      (do
        if answering then
          giveTrunk event
        reportRelayed event) := by
  cases answering with
  | false => exact reportRelayed_alike event
  | true => exact Handler.alike_bind (giveTrunk_alike event) (fun _ => reportRelayed_alike event)

theorem relayToTrunk_alike (event : CCEvent) :
    (relayToTrunk event).Alike (Twins levels first second) (relayToTrunk event) := by
  apply Handler.alike_get
  intro left right twins
  rw [twins.same (fun call => call.uaA.isSome) (fun _ => rfl)]
  refine Prog.Alike.bind (record_alike twins _ _ _ _ _ _ _ _ _ _ _ _) ?_
  intro leftLater rightLater _ later
  cases event.terminates with
  | false => exact giveAndReport_alike event _ leftLater rightLater later
  | true =>
      exact Handler.alike_bind cancelNoAnswerTimer_alike
        (fun _ => Handler.alike_bind (recordDisposition_alike event)
          (fun _ => giveAndReport_alike event _)) leftLater rightLater later

/-! ### Rejections -/

theorem AsError.failEvent_of_code {left right : AsError} (same : left.code = right.code) :
    left.failEvent = right.failEvent := by
  simp only [AsError.failEvent, AsError.sipStatus, AsError.sipPhrase, same]

theorem announceReject_alike (agree : Agree first second) {leftError rightError : AsError}
    (leftAnswerable : Answerable levels first leftError)
    (rightAnswerable : Answerable levels second rightError) :
    (announceReject first leftError).Alike (Twins levels first second)
      (announceReject second rightError) := by
  apply Handler.alike_bind cancelNoAnswerTimer_alike
  intro _
  apply Handler.alike_bind
  · rw [agree.disposition]
    exact Handler.alike_modify (fun _ _ twins => twins.mapMetrics _)
  intro _
  apply Handler.alike_get
  intro left right twins
  refine Prog.Alike.bind (.ret (twins.mapTracer _ _) (.ok ())) ?_
  intro leftLater rightLater _ later
  apply emitLog_alike later
  · simpa [keywordKeys, Answerable] using leftAnswerable
  · simpa [keywordKeys, Answerable] using rightAnswerable

theorem rejectOnTrunk_alike (agree : Agree first second)
    (leftAnswers : ∀ error, first.error = some error → Answerable levels first error)
    (rightAnswers : ∀ error, second.error = some error → Answerable levels second error) :
    (rejectOnTrunk first).Alike (Twins levels first second) (rejectOnTrunk second) := by
  have code := agree.code
  unfold rejectOnTrunk
  cases leftCarried : first.error with
  | none =>
      rw [leftCarried, Option.map_none, eq_comm, Option.map_eq_none_iff] at code
      rw [code]
      exact Handler.alike_raise PyError.assertionError
  | some leftError =>
      rw [leftCarried, Option.map_some, eq_comm, Option.map_eq_some_iff] at code
      obtain ⟨rightError, rightCarried, same⟩ := code
      rw [rightCarried]
      apply Handler.alike_bind (announceReject_alike agree (leftAnswers leftError leftCarried)
        (rightAnswers rightError rightCarried))
      intro _
      apply Handler.alike_get
      intro left right twins
      rw [twins.same (fun call => call.uaA.isSome) (fun _ => rfl),
        AsError.failEvent_of_code same]
      cases right.uaA.isSome with
      | false => exact Handler.alike_pure () left right twins
      | true => exact giveTrunk_alike leftError.failEvent left right twins

/-! ### Attempts -/

abbrev CanAnnounce (levels : LogLevel → Bool) (decision : PolicyDecision) : Prop :=
  Attemptable levels (some decision) decision.outboundEvent

theorem Twins.attempted (twins : Twins levels first second left right) (app : App)
    (hop : NextHop) (calledNumber : String) (pending : CCEvent) :
    Twins levels first second (left.attempted app hop calledNumber pending)
      (right.attempted app hop calledNumber pending) := by
  have config := twins.same (fun call => call.globalConfig) (fun _ => rfl)
  have length := twins.same (fun call => call.legs.length) (fun _ => rfl)
  have leg : left.newLeg hop = right.newLeg hop := by
    unfold World.newLeg
    rw [config, twins.sipConf]
  have seconds : left.expireSeconds = right.expireSeconds := by
    unfold World.expireSeconds
    rw [config]
  have started := twins.mapCall (Call.Blind.startAttempt hop (right.newLeg hop)
    right.expireSeconds)
  have announced : Twins levels first second
      ((left.mapCall (Call.startAttempt hop (right.newLeg hop) right.expireSeconds)).announced
        app hop calledNumber)
      ((right.mapCall (Call.startAttempt hop (right.newLeg hop) right.expireSeconds)).announced
        app hop calledNumber) :=
    ((started.mapMetrics _).recorded _ _ _ _ _ _ _ _ _ _ _ _).appendLog _ _
  unfold World.attempted
  rw [leg, seconds, config, length]
  exact (announced.mapSipConf _).mapCall (Call.Blind.give _ _)

theorem originateTowards_alike (app : App) (hop : NextHop)
    (twins : Twins levels first second left right)
    (leftCan : CanAnnounce levels first) (rightCan : CanAnnounce levels second)
    (decided : left.policy = some first) (pends : left.pendingEvent = first.outboundEvent) :
    Alike levels first second (originateTowards app hop left) (originateTowards app hop right) := by
  obtain ⟨calledNumber, called⟩ := leftCan.called
  obtain ⟨pending, waiting⟩ := pending_isSome_of_called called
  have rightDecided : right.policy = some second := by
    rcases twins.policy with ⟨none, _⟩ | ⟨_, some⟩
    · rw [decided] at none
      cases none
    · exact some
  have rightPends : right.pendingEvent = first.outboundEvent := by
    rw [← twins.same (fun call => call.pendingEvent) (fun _ => rfl)]
    exact pends
  rw [originateTowards_run app hop calledNumber pending left (pends.trans waiting)
      (pends ▸ called) (by rw [decided, twins.leftLevels]; exact leftCan.accepted),
    originateTowards_run app hop calledNumber pending right (rightPends.trans waiting)
      (rightPends ▸ called) (by rw [rightDecided, twins.rightLevels]; exact rightCan.accepted),
    twins.same (fun call => call.legs.length) (fun _ => rfl), twins.sipConf]
  exact .call (twins.attempted app hop calledNumber pending) _
    (fun _ _ result back => .ret (back.mapSipConf _) result)

/-! ### Events -/

theorem Twins.relaying (twins : Twins levels first second left right) (agree : Agree first second)
    (hops : List NextHop) :
    Twins levels first second (left.mapCall (Call.relaying first hops))
      (right.mapCall (Call.relaying second hops)) where
  call := by
    have same := congrArg
      (fun call : Call => ((call.askApplication).setPending first.outboundEvent).setFailoverHops
        hops) twins.call
    change Call.apart (Call.relaying first hops left.toCall) =
      Call.apart (Call.relaying second hops right.toCall)
    rw [Call.relaying, Call.relaying, ← agree.outboundEvent]
    exact same
  policy := Or.inr ⟨rfl, rfl⟩
  metrics := twins.metrics
  sipConf := twins.sipConf
  leftLevels := twins.leftLevels
  rightLevels := twins.rightLevels

structure LinesAccepted (levels : LogLevel → Bool) (decision : PolicyDecision) : Prop where
  relayed : decision.action = .relay → decision.nextHops ≠ [] → CanAnnounce levels decision
  rejected : decision.action = .reject → ∀ error, decision.error = some error →
    Answerable levels decision error

theorem originateOutboundLeg_alike (app : App) (event : CCEvent)
    (twins : Twins levels first second left right) (agree : Agree first second)
    (leftLines : LinesAccepted levels first) (rightLines : LinesAccepted levels second) :
    Alike levels first second (originateOutboundLeg (app.taking first) event left)
      (originateOutboundLeg (app.taking second) event right) := by
  cases leftAction : first.action with
  | reject =>
      have rightAction : second.action = .reject := agree.action ▸ leftAction
      rw [originateOutboundLeg_reject (app.taking first) event left first rfl leftAction,
        originateOutboundLeg_reject (app.taking second) event right second rfl rightAction]
      exact rejectOnTrunk_alike agree (leftLines.rejected leftAction)
        (rightLines.rejected rightAction) _ _ twins.decided
  | relay =>
      have rightAction : second.action = .relay := agree.action ▸ leftAction
      cases leftHops : first.nextHops with
      | nil =>
          have rightHops : second.nextHops = [] := agree.nextHops ▸ leftHops
          rw [originateOutboundLeg_noHop (app.taking first) event left first rfl leftAction
              leftHops,
            originateOutboundLeg_noHop (app.taking second) event right second rfl rightAction
              rightHops]
          exact .ret (twins.relaying agree []) _
      | cons hop rest =>
          have rightHops : second.nextHops = hop :: rest := agree.nextHops ▸ leftHops
          rw [originateOutboundLeg_attempt (app.taking first) event left first hop rest rfl
              leftAction leftHops,
            originateOutboundLeg_attempt (app.taking second) event right second hop rest rfl
              rightAction rightHops]
          exact originateTowards_alike app hop (twins.relaying agree rest)
            (leftLines.relayed leftAction (by rw [leftHops]; exact List.cons_ne_nil hop rest))
            (rightLines.relayed rightAction (by rw [rightHops]; exact List.cons_ne_nil hop rest))
            rfl rfl

theorem Twins.failedOver (twins : Twins levels first second left right) (app : App)
    (hop : NextHop) (rest : List NextHop) :
    Twins levels first second (left.failedOver app hop rest)
      (right.failedOver app hop rest) := by
  unfold World.failedOver
  rw [twins.same (fun call => call.servingHop) (fun _ => rfl)]
  exact ((twins.mapMetrics _).mapCall (Call.Blind.dropHop rest)).appendLog _ _

theorem relayFromNextHop_alike (app : App) (event : CCEvent)
    (twins : Twins levels first second left right)
    (leftCan : FailsOver left.toCall event → CanAnnounce levels first)
    (rightCan : FailsOver left.toCall event → CanAnnounce levels second)
    (chosen : FailsOver left.toCall event →
      left.policy = some first ∧ left.pendingEvent = first.outboundEvent) :
    Alike levels first second (relayFromNextHop app event left)
      (relayFromNextHop app event right) := by
  have connected := twins.same Call.trunkConnected (fun _ => rfl)
  have hops := twins.same (fun call => call.failoverHops) (fun _ => rfl)
  by_cases failed : FailsOver left.toCall event
  · obtain ⟨decided, pends⟩ := chosen failed
    have can := And.intro (leftCan failed) (rightCan failed)
    obtain ⟨terminates, away, some⟩ := failed
    obtain ⟨hop, rest, remaining⟩ := List.exists_cons_of_ne_nil some
    rw [relayFromNextHop_failover app event left hop rest terminates away remaining,
      relayFromNextHop_failover app event right hop rest terminates (connected ▸ away)
        (hops ▸ remaining)]
    exact (originateTowards_alike app hop (twins.failedOver app hop rest) can.1 can.2
      decided pends).bind
        (fun _ _ _ later => reportFailover_alike event _ _ later)
  · have kept : event.terminates = true → left.trunkConnected = false →
        left.failoverHops = [] := by
      intro terminates away
      by_contra some
      exact failed ⟨terminates, away, some⟩
    rw [relayFromNextHop_kept app event left kept,
      relayFromNextHop_kept app event right (by rw [← connected, ← hops]; exact kept)]
    apply relayToTrunk_alike
    split
    · exact twins.mapCall Call.Blind.cancelNoAnswerTimer
    · exact twins

theorem relayFromTrunk_alike (app : App) (event : CCEvent)
    (twins : Twins levels first second left right) (agree : Agree first second)
    (leftLines : left.uaO = none → event.isTry = true → LinesAccepted levels first)
    (rightLines : left.uaO = none → event.isTry = true → LinesAccepted levels second) :
    Alike levels first second (relayFromTrunk (app.taking first) event left)
      (relayFromTrunk (app.taking second) event right) := by
  have current := twins.same (fun call => call.uaO) (fun _ => rfl)
  simp only [relayFromTrunk, Handler.run_bind, Handler.run_get, Prog.bind_ok]
  rw [← current]
  cases routed : left.uaO with
  | none =>
      cases asks : event.isTry with
      | false => exact giveTrunk_alike .disconnect left right twins
      | true =>
          exact originateOutboundLeg_alike app event twins agree (leftLines routed asks)
            (rightLines routed asks)
  | some leg =>
      exact (record_alike twins _ _ _ _ _ _ _ _ _ _ _ _).bind
        (fun _ _ _ later => callUa_alike _ _ _ later)

structure Accepts (levels : LogLevel → Bool) (app : App) (decision : PolicyDecision)
    (call : Call) (action : CallAction) : Prop where
  attempts : Originates (app.taking decision) call action → CanAnnounce levels decision
  answers : AsksNow call action → decision.action = .reject →
    ∀ error, decision.error = some error → Answerable levels decision error

theorem Accepts.lines {app : App} {decision : PolicyDecision} {call : Call} {ua : UaRef}
    {event : CCEvent} (accepts : Accepts levels app decision call (.enter (.raises ua event)))
    (asks : call.Asks ua event) : LinesAccepted levels decision where
  relayed := fun relays some => accepts.attempts
    (Or.inl ⟨asks.1, asks.2.1, asks.2.2, decision, rfl, relays, some⟩)
  rejected := accepts.answers asks

/-- Whether the lines are accepted does not depend on the decision remembered. -/
theorem Accepts.of_twins {app : App} {decision : PolicyDecision} {action : CallAction}
    (accepts : Accepts levels app decision left.toCall action)
    (twins : Twins levels first second left right) :
    Accepts levels app decision right.toCall action where
  attempts := by
    have same := twins.same (fun call => Originates (app.taking decision) call action) (by
      intro call
      cases action with
      | comeBack => rfl
      | enter label => cases label <;> rfl)
    rw [← same]
    exact accepts.attempts
  answers := by
    have same := twins.same (fun call => AsksNow call action) (by
      intro call
      cases action with
      | comeBack => rfl
      | enter label => cases label <;> rfl)
    rw [← same]
    exact accepts.answers

theorem Twins.symm (twins : Twins levels first second left right) :
    Twins levels second first right left where
  call := twins.call.symm
  policy := twins.policy.imp And.symm And.symm
  metrics := twins.metrics.symm
  sipConf := twins.sipConf.symm
  leftLevels := twins.rightLevels
  rightLevels := twins.leftLevels

theorem recvEvent_alike (app : App) (event : CCEvent) (ua : UaRef)
    (twins : Twins levels first second left right) (agree : Agree first second)
    (leftAccepts : Accepts levels app first left.toCall (.enter (.raises ua event)))
    (rightAccepts : Accepts levels app second left.toCall (.enter (.raises ua event)))
    (chosen : left.failoverHops ≠ [] →
      left.policy = some first ∧ left.pendingEvent = first.outboundEvent) :
    Alike levels first second
      (recvEvent (app.taking first) event ua (left.mapCall (Call.raise ua event)))
      (recvEvent (app.taking second) event ua (right.mapCall (Call.raise ua event))) := by
  have raised := twins.mapCall (Call.Blind.raise ua event)
  have kept := Call.toBaseCallController_raise ua event left.toCall
  have answering := raised.same (fun call => call.uaA) (fun _ => rfl)
  have current := raised.same (fun call => call.uaO) (fun _ => rfl)
  simp only [recvEvent, Handler.run_bind, Handler.run_get, Prog.bind_ok]
  rw [← answering, ← current]
  by_cases trunk : (left.mapCall (Call.raise ua event)).uaA = some ua
  · rw [if_pos trunk, if_pos trunk]
    rw [World.toCall_mapCall, kept] at trunk
    apply relayFromTrunk_alike app event raised agree
    · intro unrouted asks
      rw [World.toCall_mapCall, kept] at unrouted
      exact leftAccepts.lines ⟨trunk, unrouted, asks⟩
    · intro unrouted asks
      rw [World.toCall_mapCall, kept] at unrouted
      exact rightAccepts.lines ⟨trunk, unrouted, asks⟩
  · rw [if_neg trunk, if_neg trunk]
    by_cases stale : (left.mapCall (Call.raise ua event)).uaO = some ua
    · rw [if_neg (not_not_intro stale), if_neg (not_not_intro stale)]
      rw [World.toCall_mapCall, kept] at stale
      apply relayFromNextHop_alike app event raised
      · exact fun failed => leftAccepts.attempts (Or.inr ⟨stale, failsOver_raise.mp failed⟩)
      · exact fun failed => rightAccepts.attempts (Or.inr ⟨stale, failsOver_raise.mp failed⟩)
      · intro failed
        rw [World.toCall_mapCall, kept]
        exact chosen (failsOver_raise.mp failed).2.2
    · rw [if_pos stale, if_pos stale]
      exact Handler.alike_pure () _ _ raised

/-! ### The other labels -/

theorem onNextHopNoAnswer_alike (app : App) :
    (onNextHopNoAnswer app).Alike (Twins levels first second) (onNextHopNoAnswer app) := by
  have accepted : ∀ enabled, KeysAccepted enabled
      ["call_id", "direction", "next_hop", "error_code"] := by decide
  apply Handler.alike_get
  intro left right twins
  rw [twins.same (fun call => call.uaO) (fun _ => rfl),
    twins.same Call.trunkConnected (fun _ => rfl)]
  cases right.uaO with
  | none => exact Handler.alike_pure () left right twins
  | some leg =>
      cases right.trunkConnected with
      | true => exact Handler.alike_pure () left right twins
      | false =>
          exact (emitLog_alike twins .warning _ _ _ _ [] [] (accepted _) (accepted _)).bind
            (fun _ _ _ later => callUa_alike (.disconnect leg) _ _ later)

theorem emitLog_same (twins : Twins levels first second left right) (level : LogLevel)
    (event : String) (named : List (String × Value)) (splatted : List Fields) :
    Alike levels first second (emitLog level event named splatted left)
      (emitLog level event named splatted right) := by
  simp only [emitLog, Handler.run_bind, Handler.run_get, Prog.bind_ok, twins.leftLevels,
    twins.rightLevels]
  exact (Handler.alike_ofExcept _ left right twins).bind
    (fun _ _ entry later => .ret (later.appendLog entry entry) (.ok ()))

theorem sipIdentity_alike {body : Ctl Unit}
    (alike : body.Alike (Twins levels first second) body) :
    (sipIdentity body).Alike (Twins levels first second) (sipIdentity body) := by
  apply Handler.alike_get
  intro left right twins
  rw [twins.same (fun call => call.globalConfig) (fun _ => rfl), twins.sipConf]
  exact Prog.Alike.bind (.ret (twins.mapSipConf _) (.ok ()))
    (fun _ _ _ later => (alike _ _ later).ensure (fun _ _ back => back.mapSipConf _))

theorem admitInvite_alike (app : App) (request : Request) :
    (admitInvite app request).Alike (Twins levels first second) (admitInvite app request) := by
  apply Handler.alike_bind
    (modifyCall_alike (Call.Blind.identify request.callId (sourcePeer request)))
  intro _
  apply Handler.alike_bind (Handler.alike_ofExcept _)
  intro inboundFields
  apply Handler.alike_get
  intro left right twins
  rw [twins.same (fun call => call.trunkPeer) (fun _ => rfl),
    twins.same (fun call => call.callId) (fun _ => rfl)]
  refine Prog.Alike.bind (.ret (twins.mapMetrics _) (.ok ())) (fun _ _ _ counted => ?_)
  refine Prog.Alike.bind (setPeerStatus_alike _ _ _ _ counted) (fun _ _ _ known => ?_)
  refine Prog.Alike.bind (record_alike known _ _ _ _ _ _ _ _ _ _ _ _) (fun _ _ _ later => ?_)
  exact emitLog_same later .info _ _ _

theorem receiveInvite_alike (app : App) (request : Request) :
    (receiveInvite app request).Alike (Twins levels first second)
      (receiveInvite app request) := by
  apply Handler.alike_bind (modifyCall_alike (Call.Blind.rememberRequest request))
  intro _
  apply Handler.alike_bind (admitInvite_alike app request)
  intro _
  apply Handler.alike_get
  intro left right twins
  rw [twins.same (fun call => call.globalConfig) (fun _ => rfl), twins.sipConf]
  refine Prog.Alike.bind (.ret (twins.mapCall (Call.Blind.createTrunk _)) (.ok ()))
    (fun _ _ _ later => ?_)
  exact sipIdentity_alike (callUa_alike _) _ _ later

end Handlers

end AsPlatform
