/-
The state of one call, and of the process it shares.

`BaseCallController` has the attributes of the source.  A `Call` adds the objects
the controller has created; a `World` is a call in its `Process`.
-/

import AsPlatform.CallController.Policy
import AsPlatform.Library.Reentrant
import AsPlatform.Observability.Logging
import AsPlatform.Observability.Tracing

namespace AsPlatform

open Reentrant

structure BaseCallController where
  globalConfig : GlobalConfig
  nextHop : Option (String × Nat)
  callId : String := "-"
  trunkPeer : String := "-"
  uaA : Option UaRef := none
  uaO : Option UaRef := none
  trunkRequest : Option Request := none
  policy : Option PolicyDecision := none
  pendingEvent : Option CCEvent := none
  failoverHops : List NextHop := []
  servingHop : Option NextHop := none
  noAnswerTimer : Option Nat := none

/-- `trunk` is the answering `UA`, `legs` the originating ones in the order of
their creation; `decideCalls` counts how often the application was asked. -/
structure Call extends BaseCallController where
  trunk : Option Ua := none
  legs : List Ua := []
  timers : List Timeout := []
  decideCalls : Nat := 0

structure Process where
  metrics : MetricsRegistry
  tracer : TraceRecorder
  log : List LogRecord
  sipConf : SipConf
  isEnabledFor : LogLevel → Bool

structure World extends Call, Process

def Process.newCall (process : Process) (globalConfig : GlobalConfig)
    (nextHop : Option (String × Nat)) : World :=
  { toCall := { toBaseCallController := { globalConfig := globalConfig, nextHop := nextHop } }
    toProcess := process }

inductive UaCall where
  | recvRequest (ua : UaRef) (request : Request)
  | recvEvent (ua : UaRef) (event : CCEvent)
  | disconnect (ua : UaRef)
  deriving DecidableEq

abbrev Ctl (Result : Type) : Type :=
  Handler World UaCall PyError Result

namespace Call

def ua? (call : Call) : UaRef → Option Ua
  | .trunk => call.trunk
  | .leg index => call.legs[index]?

def mapUa (ref : UaRef) (change : Ua → Ua) (call : Call) : Call :=
  match ref with
  | .trunk => { call with trunk := call.trunk.map change }
  | .leg index => { call with legs := call.legs.modify index change }

/-- The stack takes in an event that the controller gives to a `UA`. -/
def give (ref : UaRef) (event : CCEvent) (call : Call) : Call :=
  call.mapUa ref (Ua.give event)

def raise (ref : UaRef) (event : CCEvent) (call : Call) : Call :=
  call.mapUa ref (Ua.raise event)

/-- `self.uaA is not None and bool(self.uaA.isConnected())`. -/
def trunkConnected (call : Call) : Bool :=
  match call.uaA with
  | none => false
  | some ref => ((call.ua? ref).map Ua.connected).getD false

def outcome (event : CCEvent) (call : Call) : CallDisposition :=
  if event.isFail then .failed
  else if call.trunkConnected then .completed
  else .abandoned

def rememberRequest (request : Request) (call : Call) : Call :=
  { call with trunkRequest := some request }

def identify (callId trunkPeer : String) (call : Call) : Call :=
  { call with
    callId := callId
    trunkPeer := trunkPeer }

/-- `self.uaA = UA(self.global_config, self.recv_event)`. -/
def createTrunk (ua : Ua) (call : Call) : Call :=
  { call with
    trunk := some ua
    uaA := some .trunk }

def askApplication (call : Call) : Call :=
  { call with decideCalls := call.decideCalls + 1 }

def adopt (decision : PolicyDecision) (call : Call) : Call :=
  { call with policy := some decision }

def setPending (event : Option CCEvent) (call : Call) : Call :=
  { call with pendingEvent := event }

def setFailoverHops (hops : List NextHop) (call : Call) : Call :=
  { call with failoverHops := hops }

def forgetLeg (call : Call) : Call :=
  { call with uaO := none }

def aimAt (hop : NextHop) (call : Call) : Call :=
  { call with
    servingHop := some hop
    nextHop := some hop.target }

/-- `self.uaO = UA(self.global_config, event_cb=self.recv_event, nh_address=…)`. -/
def createLeg (leg : Ua) (call : Call) : Call :=
  { call with
    legs := call.legs ++ [leg]
    uaO := some (.leg call.legs.length) }

/-- `self._no_answer_timer = Timeout(self._on_next_hop_no_answer, …, 1)`. -/
def armNoAnswerTimer (seconds : Rat) (call : Call) : Call :=
  { call with
    timers := call.timers ++ [{ seconds := seconds, attempt := call.legs.length }]
    noAnswerTimer := some call.timers.length }

def cancelNoAnswerTimer (call : Call) : Call :=
  match call.noAnswerTimer with
  | none => call
  | some timer =>
      { call with
        timers := call.timers.modify timer Timeout.cancel
        noAnswerTimer := none }

end Call

namespace Call

/-! What is given to a `UA` or raised by it is no business of the controller. -/

@[simp] theorem toBaseCallController_mapUa (ref : UaRef) (change : Ua → Ua) (call : Call) :
    (call.mapUa ref change).toBaseCallController = call.toBaseCallController := by
  cases ref <;> rfl

@[simp] theorem timers_mapUa (ref : UaRef) (change : Ua → Ua) (call : Call) :
    (call.mapUa ref change).timers = call.timers := by
  cases ref <;> rfl

@[simp] theorem decideCalls_mapUa (ref : UaRef) (change : Ua → Ua) (call : Call) :
    (call.mapUa ref change).decideCalls = call.decideCalls := by
  cases ref <;> rfl

@[simp] theorem length_legs_mapUa (ref : UaRef) (change : Ua → Ua) (call : Call) :
    (call.mapUa ref change).legs.length = call.legs.length := by
  cases ref with
  | trunk => rfl
  | leg index => exact List.length_modify change call.legs index

@[simp] theorem isSome_trunk_mapUa (ref : UaRef) (change : Ua → Ua) (call : Call) :
    (call.mapUa ref change).trunk.isSome = call.trunk.isSome := by
  cases ref with
  | trunk => exact Option.isSome_map
  | leg index => rfl

theorem ua?_mapUa (ref other : UaRef) (change : Ua → Ua) (call : Call) :
    (call.mapUa ref change).ua? other =
      if other = ref then (call.ua? other).map change else call.ua? other := by
  cases ref with
  | trunk => cases other <;> simp [mapUa, ua?]
  | leg index =>
      cases other with
      | trunk => simp [mapUa, ua?]
      | leg position =>
          rw [mapUa, ua?, ua?, List.getElem?_modify]
          by_cases same : index = position <;> simp [same, eq_comm]

@[simp] theorem toBaseCallController_cancelNoAnswerTimer (call : Call) :
    call.cancelNoAnswerTimer.toBaseCallController =
      { call.toBaseCallController with noAnswerTimer := none } := by
  unfold cancelNoAnswerTimer
  split
  · rename_i reference
    rw [← reference]
  · rfl

@[simp] theorem trunk_cancelNoAnswerTimer (call : Call) :
    call.cancelNoAnswerTimer.trunk = call.trunk := by
  unfold cancelNoAnswerTimer
  split <;> rfl

@[simp] theorem legs_cancelNoAnswerTimer (call : Call) :
    call.cancelNoAnswerTimer.legs = call.legs := by
  unfold cancelNoAnswerTimer
  split <;> rfl

@[simp] theorem decideCalls_cancelNoAnswerTimer (call : Call) :
    call.cancelNoAnswerTimer.decideCalls = call.decideCalls := by
  unfold cancelNoAnswerTimer
  split <;> rfl

@[simp] theorem trunkConnected_cancelNoAnswerTimer (call : Call) :
    call.cancelNoAnswerTimer.trunkConnected = call.trunkConnected := by
  unfold cancelNoAnswerTimer
  split <;> rfl

@[simp] theorem outcome_cancelNoAnswerTimer (event : CCEvent) (call : Call) :
    call.cancelNoAnswerTimer.outcome event = call.outcome event := by
  rw [outcome, outcome, trunkConnected_cancelNoAnswerTimer]

theorem getElem?_timers_cancelNoAnswerTimer (call : Call) (timer : Nat) :
    call.cancelNoAnswerTimer.timers[timer]? =
      if call.noAnswerTimer = some timer then call.timers[timer]?.map Timeout.cancel
      else call.timers[timer]? := by
  unfold cancelNoAnswerTimer
  split
  · rename_i reference
    rw [reference]
    rfl
  · rename_i current reference
    rw [reference, List.getElem?_modify]
    by_cases same : current = timer <;> simp [same]

@[simp] theorem length_timers_cancelNoAnswerTimer (call : Call) :
    call.cancelNoAnswerTimer.timers.length = call.timers.length := by
  unfold cancelNoAnswerTimer
  split
  · rfl
  · exact List.length_modify Timeout.cancel call.timers _

end Call

namespace World

def mapCall (change : Call → Call) (world : World) : World :=
  { world with toCall := change world.toCall }

def mapMetrics (change : MetricsRegistry → MetricsRegistry) (world : World) : World :=
  { world with metrics := change world.metrics }

def appendLog (entry : Option LogRecord) (world : World) : World :=
  { world with log := world.log ++ entry.toList }

def mapTracer (change : TraceRecorder → TraceRecorder) (world : World) : World :=
  { world with tracer := change world.tracer }

def mapSipConf (change : SipConf → SipConf) (world : World) : World :=
  { world with sipConf := change world.sipConf }

end World

/-- What the control flow depends on and what it changes: everything but the trace,
the lines already logged, the peer states and the process-wide identity. -/
structure Control where
  call : Call
  started : Nat
  dispositions : OrderedDict String Nat
  isEnabledFor : LogLevel → Bool

namespace Control

def mapCall (change : Call → Call) (control : Control) : Control :=
  { control with call := change control.call }

def count (disposition : CallDisposition) (control : Control) : Control :=
  { control with dispositions := control.dispositions.increment disposition.value }

def disposed (control : Control) : Nat :=
  control.dispositions.total

def start (control : Control) : Control :=
  { control with started := control.started + 1 }

@[simp] theorem call_mapCall (change : Call → Call) (control : Control) :
    (control.mapCall change).call = change control.call := rfl

@[simp] theorem started_mapCall (change : Call → Call) (control : Control) :
    (control.mapCall change).started = control.started := rfl

@[simp] theorem disposed_mapCall (change : Call → Call) (control : Control) :
    (control.mapCall change).disposed = control.disposed := rfl

@[simp] theorem isEnabledFor_mapCall (change : Call → Call) (control : Control) :
    (control.mapCall change).isEnabledFor = control.isEnabledFor := rfl

@[simp] theorem dispositions_mapCall (change : Call → Call) (control : Control) :
    (control.mapCall change).dispositions = control.dispositions := rfl

@[simp] theorem call_count (disposition : CallDisposition) (control : Control) :
    (control.count disposition).call = control.call := rfl

@[simp] theorem disposed_count (disposition : CallDisposition) (control : Control) :
    (control.count disposition).disposed = control.disposed + 1 :=
  OrderedDict.total_increment control.dispositions disposition.value

@[simp] theorem started_count (disposition : CallDisposition) (control : Control) :
    (control.count disposition).started = control.started := rfl

@[simp] theorem call_start (control : Control) : control.start.call = control.call := rfl

@[simp] theorem disposed_start (control : Control) :
    control.start.disposed = control.disposed := rfl

@[simp] theorem started_start (control : Control) :
    control.start.started = control.started + 1 := rfl

end Control

namespace World

def control (world : World) : Control :=
  { call := world.toCall
    started := world.metrics.callsTotal
    dispositions := world.metrics.callsByDisposition
    isEnabledFor := world.isEnabledFor }

@[simp] theorem control_call (world : World) : world.control.call = world.toCall := rfl

@[simp] theorem control_disposed (world : World) :
    world.control.disposed = world.metrics.disposed := rfl

@[simp] theorem control_dispositions (world : World) :
    world.control.dispositions = world.metrics.callsByDisposition := rfl

@[simp] theorem control_started (world : World) :
    world.control.started = world.metrics.callsTotal := rfl

@[simp] theorem control_isEnabledFor (world : World) :
    world.control.isEnabledFor = world.isEnabledFor := rfl

@[simp] theorem toCall_mapCall (change : Call → Call) (world : World) :
    (world.mapCall change).toCall = change world.toCall := rfl

theorem mapCall_mapCall (second first : Call → Call) (world : World) :
    (world.mapCall first).mapCall second = world.mapCall fun call => second (first call) := rfl

@[simp] theorem sipConf_mapCall (change : Call → Call) (world : World) :
    (world.mapCall change).sipConf = world.sipConf := rfl

@[simp] theorem isEnabledFor_mapCall (change : Call → Call) (world : World) :
    (world.mapCall change).isEnabledFor = world.isEnabledFor := rfl

@[simp] theorem isEnabledFor_mapMetrics (change : MetricsRegistry → MetricsRegistry)
    (world : World) : (world.mapMetrics change).isEnabledFor = world.isEnabledFor := rfl

@[simp] theorem isEnabledFor_mapTracer (change : TraceRecorder → TraceRecorder)
    (world : World) : (world.mapTracer change).isEnabledFor = world.isEnabledFor := rfl

@[simp] theorem toCall_mapMetrics (change : MetricsRegistry → MetricsRegistry)
    (world : World) : (world.mapMetrics change).toCall = world.toCall := rfl

@[simp] theorem control_mapCall (change : Call → Call) (world : World) :
    (world.mapCall change).control = world.control.mapCall change := rfl

@[simp] theorem control_mapTracer (change : TraceRecorder → TraceRecorder) (world : World) :
    (world.mapTracer change).control = world.control := rfl

@[simp] theorem control_appendLog (entry : Option LogRecord) (world : World) :
    (world.appendLog entry).control = world.control := rfl

@[simp] theorem control_mapSipConf (change : SipConf → SipConf) (world : World) :
    (world.mapSipConf change).control = world.control := rfl

@[simp] theorem control_setPeerStatus (peerName : String) (status : PeerStatus)
    (world : World) :
    (world.mapMetrics fun metrics => metrics.setPeerStatus peerName status).control =
      world.control := rfl

@[simp] theorem control_recordCallStarted (world : World) :
    (world.mapMetrics MetricsRegistry.recordCallStarted).control = world.control.start := rfl

@[simp] theorem control_recordCallDisposition (disposition : CallDisposition)
    (world : World) :
    (world.mapMetrics fun metrics => metrics.recordCallDisposition disposition).control =
      world.control.count disposition := rfl

end World

/-! ### The operations from which the handlers are built -/

def modifyCall (change : Call → Call) : Ctl Unit :=
  Handler.modify (World.mapCall change)

def callUa (request : UaCall) : Ctl Unit := do
  match request with
  | .recvEvent ref event => modifyCall (Call.give ref event)
  | _ => pure ()
  Handler.callOut request

def emitLog (level : LogLevel) (event : String) (named : List (String × Value))
    (splatted : List Fields) : Ctl Unit := do
  let world ← Handler.get
  let entry ← Handler.ofExcept (logEvent world.isEnabledFor level event named splatted)
  Handler.modify (World.appendLog entry)

def SipConf.pin (config : GlobalConfig) (conf : SipConf) : SipConf :=
  { conf with
    myAddress := config.sipAddress.getD conf.myAddress
    myPort := config.sipPort.getD conf.myPort
    myUaname := config.sipUaname.getD conf.myUaname }

def SipConf.putBack (saved conf : SipConf) : SipConf :=
  { conf with
    myAddress := saved.myAddress
    myPort := saved.myPort
    myUaname := saved.myUaname }

/-- The `with _sip_identity(self.global_config)` block around `body`. -/
def sipIdentity (body : Ctl Unit) : Ctl Unit := do
  let world ← Handler.get
  Handler.modify (World.mapSipConf (SipConf.pin world.globalConfig))
  Handler.ensure body (World.mapSipConf (SipConf.putBack world.sipConf))

def localContact (config : GlobalConfig) (conf : SipConf) : SipContact :=
  { host := config.sipAddress.getD conf.myAddress
    port := config.sipPort.getD conf.myPort
    transport := conf.myTransport }

end AsPlatform
