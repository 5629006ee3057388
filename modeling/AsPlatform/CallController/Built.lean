/-
What the handlers of a controller are built from.

Apart from the state of the call the handlers touch counters, trace, log and identity
only in a few ways, and they read none of the first three.  That is shown of each handler
once.  What follows from it holds of all of them: the identity is put back, the error
counters are left alone, and two calls that differ in error counters, trace and log alone
go on doing the same.
-/

import AsPlatform.CallController.Machine
import AsPlatform.Library.Keeping
import AsPlatform.Library.Lockstep

namespace AsPlatform

open Reentrant

def MetricsRegistry.apartErrors (registry : MetricsRegistry) : MetricsRegistry :=
  { registry with errorsByCode := ∅ }

/-- `asFound` allows a call into a `UA` under the identity that is found, `pins` one under
the controller's own. -/
inductive Built : (asFound pins : Prop) → {Result : Type} → Ctl Result → Prop where
  | pure {asFound pins : Prop} {Result : Type} (value : Result) :
      Built asFound pins (pure value)
  | raise {asFound pins : Prop} {Result : Type} (error : PyError) :
      Built asFound pins (Handler.raise error : Ctl Result)
  | ofExcept {asFound pins : Prop} {Result : Type} (result : Except PyError Result) :
      Built asFound pins (Handler.ofExcept result)
  | bind {asFound pins : Prop} {First Result : Type} {first : Ctl First}
      {next : First → Ctl Result} (built : Built asFound pins first)
      (onward : ∀ value, Built asFound pins (next value)) :
      Built asFound pins (first >>= next)
  | read {asFound pins : Prop} {Result : Type} {body : World → Ctl Result}
      (blind : ∀ world metrics tracer log,
        body { world with metrics := metrics, tracer := tracer, log := log } = body world)
      (built : ∀ world, Built asFound pins (body world)) :
      Built asFound pins (Handler.get >>= body)
  | modifyCall {asFound pins : Prop} (change : Call → Call)
      (config : ∀ call : Call, (change call).globalConfig = call.globalConfig) :
      Built asFound pins (modifyCall change)
  | count {asFound pins : Prop} (change : MetricsRegistry → MetricsRegistry)
      (apart : ∀ registry : MetricsRegistry,
        (change registry).apartErrors = change registry.apartErrors)
      (errors : ∀ registry : MetricsRegistry,
        (change registry).errorsByCode = registry.errorsByCode) :
      Built asFound pins (Handler.modify (World.mapMetrics change))
  | trace {asFound pins : Prop} (event : TraceEvent) :
      Built asFound pins (Handler.modify (World.mapTracer fun tracer => tracer.record event))
  | log {asFound pins : Prop} (entry : Option LogRecord) :
      Built asFound pins (Handler.modify (World.appendLog entry))
  | call {asFound pins : Prop} (allowed : asFound) (request : UaCall) :
      Built asFound pins (Handler.callOut request)
  | identity {asFound pins : Prop} (allowed : pins) {body : Ctl Unit}
      (built : Built True False body) : Built asFound pins (sipIdentity body)

theorem Built.mono {asFound pins found own : Prop} {Result : Type} {handler : Ctl Result}
    (built : Built asFound pins handler) (asFoundToo : asFound → found) (pinsToo : pins → own) :
    Built found own handler := by
  induction built with
  | pure value => exact .pure value
  | raise error => exact .raise error
  | ofExcept result => exact .ofExcept result
  | bind _ _ first onward =>
      exact .bind (first asFoundToo pinsToo) (fun value => onward value asFoundToo pinsToo)
  | read blind _ ih => exact .read blind (fun world => ih world asFoundToo pinsToo)
  | modifyCall change config => exact .modifyCall change config
  | count change apart errors => exact .count change apart errors
  | trace event => exact .trace event
  | log entry => exact .log entry
  | call allowed request => exact .call (asFoundToo allowed) request
  | identity allowed built => exact .identity (pinsToo allowed) built

/-! ### The handlers -/

section Handlers

variable {asFound pins : Prop}

theorem emitLog_built (level : LogLevel) (event : String) (named : List (String × Value))
    (splatted : List Fields) : Built asFound pins (emitLog level event named splatted) :=
  .read (fun _ _ _ _ => rfl) (fun _ => .bind (.ofExcept _) (fun entry => .log entry))

theorem record_built (direction leg method summary peer : String) (attributes : Fields) :
    Built asFound pins (record direction leg method summary peer attributes) :=
  .read (fun _ _ _ _ => rfl) (fun _ => .bind (.trace _) (fun _ => emitLog_built _ _ _ _))

theorem setPeerStatus_built (peerName : String) (status : PeerStatus) :
    Built asFound pins (setPeerStatus peerName status) :=
  .count _ (fun _ => rfl) (fun _ => rfl)

theorem recordCallDisposition_built (disposition : CallDisposition) :
    Built asFound pins (recordCallDisposition disposition) :=
  .count _ (fun _ => rfl) (fun _ => rfl)

theorem cancelNoAnswerTimer_built : Built asFound pins cancelNoAnswerTimer :=
  .modifyCall _ (fun call => by rw [Call.toBaseCallController_cancelNoAnswerTimer])

theorem recordDisposition_built (event : CCEvent) :
    Built asFound pins (recordDisposition event) :=
  .read (fun _ _ _ _ => rfl) (fun _ =>
    .bind (recordCallDisposition_built _) (fun _ => emitLog_built _ _ _ _))

theorem callUa_built (allowed : asFound) (request : UaCall) :
    Built asFound pins (callUa request) := by
  cases request with
  | recvEvent ref event =>
      exact .bind (.modifyCall _ (fun call => congrArg BaseCallController.globalConfig
        (Call.toBaseCallController_mapUa ref _ call))) (fun _ => .call allowed _)
  | recvRequest ref request => exact .call allowed _
  | disconnect ref => exact .call allowed _

theorem giveTrunk_built (allowed : asFound) (event : CCEvent) :
    Built asFound pins (giveTrunk event) := by
  refine .read (fun _ _ _ _ => rfl) (fun world => ?_)
  cases world.uaA with
  | none => exact .raise _
  | some ref => exact callUa_built allowed _

theorem announceReject_built (decision : PolicyDecision) (error : AsError) :
    Built asFound pins (announceReject decision error) := by
  refine .bind cancelNoAnswerTimer_built (fun _ => .bind (recordCallDisposition_built _) ?_)
  intro _
  exact .read (fun _ _ _ _ => rfl) (fun world =>
    .bind (.trace _) (fun _ => emitLog_built _ _ _ _))

theorem rejectOnTrunk_built (allowed : asFound) (decision : PolicyDecision) :
    Built asFound pins (rejectOnTrunk decision) := by
  unfold rejectOnTrunk
  cases decision.error with
  | none => exact .raise _
  | some error =>
      refine .bind (announceReject_built decision error) ?_
      intro _
      refine .read (fun _ _ _ _ => rfl) (fun world => ?_)
      split
      · exact giveTrunk_built allowed _
      · exact .pure ()

theorem applyCallPolicy_built (app : App) (event : CCEvent) :
    Built asFound pins (applyCallPolicy app event) := by
  refine .bind (.modifyCall _ (fun _ => rfl)) (fun _ => .bind (.ofExcept _) ?_)
  exact fun decision => .bind (.modifyCall _ (fun _ => rfl)) (fun _ => .pure decision)

theorem startAttempt_built (hop : NextHop) : Built asFound pins (startAttempt hop) := by
  refine .bind (.modifyCall _ (fun _ => rfl)) (fun _ => ?_)
  refine .read (fun _ _ _ _ => rfl) (fun world => ?_)
  exact .bind (.modifyCall _ (fun _ => rfl)) (fun _ => .modifyCall _ (fun _ => rfl))

theorem announceAttempt_built (app : App) (hop : NextHop) :
    Built asFound pins (announceAttempt app hop) := by
  refine .read (fun _ _ _ _ => rfl) (fun world => .bind (.ofExcept _) ?_)
  intro calledNumber
  refine .bind (setPeerStatus_built _ _) (fun _ => ?_)
  exact .bind (record_built _ _ _ _ _ _) (fun _ => emitLog_built _ _ _ _)

theorem giveInvite_built (allowed : asFound) : Built asFound pins giveInvite := by
  refine .read (fun _ _ _ _ => rfl) (fun world => ?_)
  split
  · exact callUa_built allowed _
  · exact .raise _

theorem originateTowards_built (allowed : pins) (app : App) (hop : NextHop) :
    Built asFound pins (originateTowards app hop) := by
  refine .bind (startAttempt_built hop) (fun _ => .bind (announceAttempt_built app hop) ?_)
  exact fun _ => .identity allowed (giveInvite_built trivial)

theorem originateOutboundLeg_built (found : asFound) (own : pins) (app : App)
    (event : CCEvent) : Built asFound pins (originateOutboundLeg app event) := by
  refine .bind (applyCallPolicy_built app event) (fun decision => ?_)
  split
  · exact rejectOnTrunk_built found decision
  · refine .bind (.modifyCall _ (fun _ => rfl)) (fun _ => .bind (.modifyCall _ (fun _ => rfl)) ?_)
    intro _
    cases decision.nextHops with
    | nil => exact .raise _
    | cons hop rest =>
        exact .bind (.modifyCall _ (fun _ => rfl)) (fun _ => originateTowards_built own app hop)

theorem tryFailover_built (allowed : pins) (app : App) :
    Built asFound pins (tryFailover app) := by
  refine .read (fun _ _ _ _ => rfl) (fun world => ?_)
  split
  · exact .pure false
  · refine .bind (setPeerStatus_built _ _) (fun _ => .bind (.modifyCall _ (fun _ => rfl)) ?_)
    intro _
    refine .bind (.modifyCall _ (fun _ => rfl)) (fun _ => .bind (emitLog_built _ _ _ _) ?_)
    exact fun _ => .bind (originateTowards_built allowed app _) (fun _ => .pure true)

theorem relayFromTrunk_built (found : asFound) (own : pins) (app : App) (event : CCEvent) :
    Built asFound pins (relayFromTrunk app event) := by
  unfold relayFromTrunk
  dsimp only
  refine .read (fun _ _ _ _ => rfl) (fun world => ?_)
  split
  · split
    · exact giveTrunk_built found _
    · exact originateOutboundLeg_built found own app event
  · exact .bind (record_built _ _ _ _ _ _) (fun _ => callUa_built found _)

theorem reportFailover_built (event : CCEvent) :
    Built asFound pins (reportFailover event) := by
  refine .bind cancelNoAnswerTimer_built (fun _ => ?_)
  exact .read (fun _ _ _ _ => rfl) (fun _ => record_built _ _ _ _ _ _)

theorem reportRelayed_built (event : CCEvent) :
    Built asFound pins (reportRelayed event) := by
  unfold reportRelayed
  dsimp only
  split
  · exact .read (fun _ _ _ _ => rfl) (fun _ => record_built _ _ _ _ _ _)
  · exact .pure ()

theorem relayToTrunk_built (allowed : asFound) (event : CCEvent) :
    Built asFound pins (relayToTrunk event) := by
  unfold relayToTrunk
  dsimp only
  refine .read (fun _ _ _ _ => rfl) (fun world => .bind (record_built _ _ _ _ _ _) ?_)
  have given : ∀ later : World, Built asFound pins
      (do
        if later.uaA.isSome then
          giveTrunk event
        reportRelayed event) := by
    intro later
    split
    · exact .bind (giveTrunk_built allowed event) (fun _ => reportRelayed_built event)
    · exact reportRelayed_built event
  intro _
  split
  · refine .bind cancelNoAnswerTimer_built (fun _ => .bind (recordDisposition_built event) ?_)
    exact fun _ => given world
  · exact given world

theorem relayFromNextHop_built (found : asFound) (own : pins) (app : App) (event : CCEvent) :
    Built asFound pins (relayFromNextHop app event) := by
  have rest : Built asFound pins
      (do
        let world ← Handler.get
        let failedOver ←
          if event.terminates && !world.trunkConnected then tryFailover app else pure false
        if failedOver then
          reportFailover event
        else
          relayToTrunk event) := by
    have last : ∀ failedOver : Bool, Built asFound pins
        (if failedOver = true then reportFailover event else relayToTrunk event) := by
      intro failedOver
      split
      · exact reportFailover_built event
      · exact relayToTrunk_built found event
    refine .read (fun _ _ _ _ => rfl) (fun world => ?_)
    dsimp only
    split
    · exact .bind (tryFailover_built own app) last
    · exact .bind (.pure false) last
  unfold relayFromNextHop
  split
  · exact .bind cancelNoAnswerTimer_built (fun _ => rest)
  · exact rest

theorem recvEvent_built (found : asFound) (own : pins) (app : App) (event : CCEvent)
    (ua : UaRef) : Built asFound pins (recvEvent app event ua) := by
  refine .read (fun _ _ _ _ => rfl) (fun world => ?_)
  split
  · exact relayFromTrunk_built found own app event
  · split
    · exact .pure ()
    · exact relayFromNextHop_built found own app event

theorem onNextHopNoAnswer_built (allowed : asFound) (app : App) :
    Built asFound pins (onNextHopNoAnswer app) := by
  refine .read (fun _ _ _ _ => rfl) (fun world => ?_)
  split
  · exact .pure ()
  · split
    · exact .pure ()
    · exact .bind (emitLog_built _ _ _ _) (fun _ => callUa_built allowed _)

theorem admitInvite_built (app : App) (request : Request) :
    Built asFound pins (admitInvite app request) := by
  refine .bind (.modifyCall _ (fun _ => rfl)) (fun _ => .bind (.ofExcept _) ?_)
  intro inboundFields
  refine .read (fun _ _ _ _ => rfl) (fun world => ?_)
  refine .bind (.count _ (fun _ => rfl) (fun _ => rfl)) (fun _ => ?_)
  refine .bind (setPeerStatus_built _ _) (fun _ => ?_)
  exact .bind (record_built _ _ _ _ _ _) (fun _ => emitLog_built _ _ _ _)

theorem recvRequest_built (allowed : pins) (app : App) (request : Request) :
    Built asFound pins (recvRequest app request) := by
  refine .bind (admitInvite_built app request) (fun _ => ?_)
  refine .read (fun _ _ _ _ => rfl) (fun world => ?_)
  refine .bind (.modifyCall _ (fun _ => rfl)) (fun _ => ?_)
  exact .identity allowed (callUa_built trivial _)

theorem receiveInvite_built (allowed : pins) (app : App) (request : Request) :
    Built asFound pins (receiveInvite app request) :=
  .bind (.modifyCall _ (fun _ => rfl)) (fun _ => recvRequest_built allowed app request)

theorem handler_built (found : asFound) (own : pins) (app : App) (label : Label) :
    Built asFound pins (label.handler app) := by
  cases label with
  | invite request => exact receiveInvite_built own app request
  | raises ua event => exact recvEvent_built found own app event ua
  | connected value =>
      exact .modifyCall _ (fun call => congrArg BaseCallController.globalConfig
        (Call.toBaseCallController_mapUa .trunk _ call))
  | fires timer => exact onNextHopNoAnswer_built found app
  | noAnswer => exact onNextHopNoAnswer_built found app
  | dispose => exact cancelNoAnswerTimer_built

end Handlers

/-! ### The identity -/

structure SipConf.Shows (config : GlobalConfig) (conf : SipConf) : Prop where
  address : ∀ address, address ∈ config.sipAddress → conf.myAddress = address
  port : ∀ port, port ∈ config.sipPort → conf.myPort = port
  uaname : ∀ uaname, uaname ∈ config.sipUaname → conf.myUaname = uaname

instance (config : GlobalConfig) (conf : SipConf) : Decidable (conf.Shows config) :=
  decidable_of_iff
    ((∀ address, address ∈ config.sipAddress → conf.myAddress = address) ∧
      (∀ port, port ∈ config.sipPort → conf.myPort = port) ∧
      ∀ uaname, uaname ∈ config.sipUaname → conf.myUaname = uaname)
    ⟨fun parts => ⟨parts.1, parts.2.1, parts.2.2⟩,
      fun shows => ⟨shows.address, shows.port, shows.uaname⟩⟩

theorem SipConf.shows_pin (config : GlobalConfig) (conf : SipConf) :
    (conf.pin config).Shows config where
  address address configured := by
    change config.sipAddress.getD conf.myAddress = address
    rw [Option.mem_def.mp configured, Option.getD_some]
  port port configured := by
    change config.sipPort.getD conf.myPort = port
    rw [Option.mem_def.mp configured, Option.getD_some]
  uaname uaname configured := by
    change config.sipUaname.getD conf.myUaname = uaname
    rw [Option.mem_def.mp configured, Option.getD_some]

/-- The identity a controller finds, and its own. -/
def World.standing (world : World) : SipConf × GlobalConfig :=
  (world.sipConf, world.globalConfig)

/-- The handlers put back the identity they find.  Where they call into a `UA` without
pinning their own, it is the one they were entered with. -/
theorem Built.keeps {asFound pins : Prop} {Result : Type} {handler : Ctl Result}
    (built : Built asFound pins handler) {may : World → UaCall → Prop}
    (own : pins → ∀ world request, world.sipConf.Shows world.globalConfig → may world request)
    {entry : SipConf × GlobalConfig}
    (found : asFound → ∀ world request, world.standing = entry → may world request)
    {world : World} (standing : world.standing = entry) :
    (handler world).Keeps World.standing may entry := by
  induction built generalizing entry world with
  | pure value => exact standing
  | raise error => exact standing
  | ofExcept result => exact standing
  | bind _ _ first onward =>
      exact (first own found standing).bind
        (fun later value still => onward value own found still)
  | read _ _ ih => exact ih world own found standing
  | modifyCall change config =>
      change (world.sipConf, (change world.toCall).globalConfig) = entry
      rw [config]
      exact standing
  | count change apart errors => exact standing
  | trace event => exact standing
  | log entry => exact standing
  | call allowed request =>
      refine ⟨found allowed world request standing, fun back error => ⟨back, rfl⟩, ?_⟩
      exact fun back result same => same.trans standing
  | identity allowed built ih =>
      have inside : (world.mapSipConf (SipConf.pin world.globalConfig)).standing =
          (world.sipConf.pin world.globalConfig, world.globalConfig) := rfl
      have body := ih (fun impossible => impossible.elim)
        (fun _ later request same => own allowed later request (by
          obtain ⟨conf, config⟩ := Prod.mk.inj same
          rw [conf, config]
          exact SipConf.shows_pin _ _)) inside
      refine Prog.Keeps.ensure body ?_
      intro later same
      obtain ⟨conf, config⟩ := Prod.mk.inj same
      rw [← standing]
      change (world.sipConf.putBack later.sipConf, later.globalConfig) = _
      rw [conf, config]
      rfl

/-! ### The error counters -/

/-- The handlers count no errors of their own. -/
theorem Built.spares {asFound pins : Prop} {Result : Type} {handler : Ctl Result}
    (built : Built asFound pins handler) (world : World) :
    (handler world).Spares (fun world => world.metrics.errorsByCode)
      world.metrics.errorsByCode := by
  induction built generalizing world with
  | pure value => exact rfl
  | raise error => exact rfl
  | ofExcept result => exact rfl
  | bind _ _ first onward => exact (first world).bind (fun later value => onward value later)
  | read _ _ ih => exact ih world world
  | modifyCall change config => exact rfl
  | count change apart errors => exact errors world.metrics
  | trace event => exact rfl
  | log entry => exact rfl
  | call allowed request => exact ⟨rfl, fun back result => rfl⟩
  | identity allowed built ih =>
      exact Prog.Spares.ensure (ih (world.mapSipConf (SipConf.pin world.globalConfig)))
        (fun later => rfl)

/-! ### Two calls side by side -/

/-- The two differ at most in the error counters, the log and, as `traces` allows, in
what was traced. -/
structure Process.Beside (traces : TraceRecorder → TraceRecorder → Prop)
    (left right : Process) : Prop where
  sipConf : left.sipConf = right.sipConf
  levels : left.isEnabledFor = right.isEnabledFor
  metrics : left.metrics.apartErrors = right.metrics.apartErrors
  tracer : traces left.tracer right.tracer

structure World.Beside (traces : TraceRecorder → TraceRecorder → Prop)
    (left right : World) : Prop where
  call : left.toCall = right.toCall
  process : left.toProcess.Beside traces right.toProcess

theorem World.Beside.same {traces : TraceRecorder → TraceRecorder → Prop} {left right : World}
    (beside : left.Beside traces right) : right =
      { left with metrics := right.metrics, tracer := right.tracer, log := right.log } := by
  obtain ⟨call, process⟩ := right
  obtain ⟨metrics, tracer, log, sipConf, isEnabledFor⟩ := process
  obtain ⟨sameCall, sameConf, sameLevels, _, _⟩ := beside
  cases sameCall
  cases sameConf
  cases sameLevels
  rfl

/-- Side by side, a handler does the same, whatever the traces are, as long as they may
go on differing when both record the same event. -/
theorem Built.alike {asFound pins : Prop} {Result : Type} {handler : Ctl Result}
    (built : Built asFound pins handler) {traces : TraceRecorder → TraceRecorder → Prop}
    (records : ∀ left right event, traces left right →
      traces (left.record event) (right.record event)) :
    handler.Alike (World.Beside traces) handler := by
  induction built with
  | pure value => exact Handler.alike_pure value
  | raise error => exact Handler.alike_raise error
  | ofExcept result => exact Handler.alike_ofExcept result
  | bind _ _ first onward => exact Handler.alike_bind first onward
  | read blind _ ih =>
      apply Handler.alike_get
      intro left right beside
      have same := beside.same
      have body := blind left right.metrics right.tracer right.log
      rw [← same] at body
      rw [body]
      exact ih left left right beside
  | modifyCall change config =>
      exact Handler.alike_modify (fun left right beside =>
        ⟨congrArg change beside.call, beside.process⟩)
  | count change apart errors =>
      refine Handler.alike_modify (fun left right beside => ⟨beside.call, ?_⟩)
      refine ⟨beside.process.sipConf, beside.process.levels, ?_, beside.process.tracer⟩
      change (change left.metrics).apartErrors = (change right.metrics).apartErrors
      rw [apart, beside.process.metrics, ← apart]
  | trace event =>
      exact Handler.alike_modify (fun left right beside => ⟨beside.call,
        beside.process.sipConf, beside.process.levels, beside.process.metrics,
        records _ _ event beside.process.tracer⟩)
  | log entry =>
      exact Handler.alike_modify (fun left right beside => ⟨beside.call,
        beside.process.sipConf, beside.process.levels, beside.process.metrics,
        beside.process.tracer⟩)
  | call allowed request => exact Handler.alike_callOut request
  | identity allowed built ih =>
      -- both pin the same values over the same ones
      have pinned : ∀ (change : SipConf → SipConf) (left right : World),
          left.Beside traces right →
            (left.mapSipConf change).Beside traces (right.mapSipConf change) :=
        fun change left right beside => ⟨beside.call, congrArg change beside.process.sipConf,
          beside.process.levels, beside.process.metrics, beside.process.tracer⟩
      apply Handler.alike_get
      intro left right beside
      have config : left.globalConfig = right.globalConfig :=
        congrArg (fun call : Call => call.globalConfig) beside.call
      rw [config, beside.process.sipConf]
      exact Prog.Alike.ensure (ih _ _ (pinned _ left right beside)) (pinned _)

end AsPlatform
