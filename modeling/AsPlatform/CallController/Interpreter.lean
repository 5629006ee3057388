/-
The AS instances of one interpreter, and the requests on their trunks.

Each instance has its configuration, its allowlist and its application.  What they share
is the process: the metrics registry, the trace recorder, the log and the identity of the
signalling stack.  All of it belongs to one event loop, so requests arrive and timers fire
only when no handler is at work; the `UA`s of any call may raise events inside a handler.
-/

import AsPlatform.CallController.Machine
import AsPlatform.Library.Embedding

namespace AsPlatform

open Reentrant

structure AsInstance where
  globalConfig : GlobalConfig
  nhAddr : Option (String × Nat)
  allowedPeers : List String
  app : App

/-- A parsed request: the INVITEs among them are what a controller reads. -/
structure TrunkRequest extends Request where
  method : String
  toTag : Option String := none
  deriving DecidableEq

/-- A controller in the map of the instance `owner`; `invite` is history. -/
structure Controller where
  owner : Nat
  invite : TrunkRequest
  call : Call

structure Response where
  owner : Nat
  request : TrunkRequest
  status : Nat
  phrase : String
  deriving DecidableEq

/-- `controllers` are those of all instances, in creation order; `answers` is history. -/
structure Interpreter extends Process where
  controllers : List Controller
  answers : List Response

structure Outgoing where
  controller : Nat
  config : GlobalConfig
  call : UaCall
  deriving DecidableEq

abbrev Shell (Result : Type) : Type :=
  Handler Interpreter Outgoing PyError Result

namespace Interpreter

def mapMetrics (change : MetricsRegistry → MetricsRegistry) (interpreter : Interpreter) :
    Interpreter :=
  { interpreter with metrics := change interpreter.metrics }

def mapTracer (change : TraceRecorder → TraceRecorder) (interpreter : Interpreter) :
    Interpreter :=
  { interpreter with tracer := change interpreter.tracer }

def appendLog (entry : Option LogRecord) (interpreter : Interpreter) : Interpreter :=
  { interpreter with log := interpreter.log ++ entry.toList }

def appendResponse (answer : Response) (interpreter : Interpreter) : Interpreter :=
  { interpreter with answers := interpreter.answers ++ [answer] }

def appendController (controller : Controller) (interpreter : Interpreter) : Interpreter :=
  { interpreter with controllers := interpreter.controllers ++ [controller] }

/-- The call of a controller; where there is none, that of one nobody refers to. -/
def callOf (index : Nat) (interpreter : Interpreter) : Call :=
  ((interpreter.controllers[index]?).map Controller.call).getD
    { globalConfig := {}
      nextHop := none }

def world (index : Nat) (interpreter : Interpreter) : World :=
  { toCall := interpreter.callOf index
    toProcess := interpreter.toProcess }

def setWorld (index : Nat) (interpreter : Interpreter) (world : World) : Interpreter :=
  { toProcess := world.toProcess
    controllers := interpreter.controllers.modify index fun controller =>
      { controller with call := world.toCall }
    answers := interpreter.answers }

end Interpreter

def place (index : Nat) : Place Interpreter World UaCall Outgoing where
  get := Interpreter.world index
  put := Interpreter.setWorld index
  tag world request :=
    { controller := index
      config := world.globalConfig
      call := request }

def sourceAddress (request : Request) : String :=
  match request.source with
  | none => "-"
  | some source => source.1

def isAllowedPeer (sourceAddress : String) (allowedPeers : List String) : Bool :=
  decide (sourceAddress ∈ allowedPeers)

namespace AsInstance

def peerError (request : TrunkRequest) (source : String) : AsError :=
  AsError.create SkeletonErrorCode.peerNotAllowed
    (some ("source address " ++ source ++ " is not an allowed trunk peer")) none
    ((OrderedDict.singleton "source" source).insert "sip_method" request.method)

/-- The trace event of a refused request, under the Call-ID that the request carries. -/
def refusal (request : TrunkRequest) (peer : String) : TraceEvent :=
  { callId := request.callId
    direction := LogDirection.inbound
    method := request.method
    summary := "403 forbidden: source is not an allowed trunk peer"
    peer := peer
    attributes := OrderedDict.singleton "leg" (.str legTrunk) }

def genResponse (owner : Nat) (request : TrunkRequest) (status : Nat) (phrase : String) :
    Shell Unit :=
  Handler.modify (Interpreter.appendResponse
    { owner := owner
      request := request
      status := status
      phrase := phrase })

def rejectPeer (owner : Nat) (request : TrunkRequest) (source peer : String) : Shell Unit := do
  Handler.modify (Interpreter.mapMetrics fun metrics =>
    metrics.recordError SkeletonErrorCode.peerNotAllowed.code)
  Handler.modify (Interpreter.mapTracer fun tracer => tracer.record (refusal request peer))
  let interpreter ← Handler.get
  let entry ← Handler.ofExcept (logEvent interpreter.isEnabledFor .warning
    "request rejected: source address is not an allowed trunk peer"
    [("call_id", .str request.callId), ("direction", .str LogDirection.inbound),
      ("peer", .str peer), ("method", .str request.method)]
    [(peerError request source).asLogFields])
  Handler.modify (Interpreter.appendLog entry)
  genResponse owner request 403 "Forbidden"

/-- `_new_controller`: a fresh controller with the configured next hop, remembered under
the index that is returned. -/
def newController (server : AsInstance) (owner : Nat) (request : TrunkRequest) :
    Shell Nat := do
  let interpreter ← Handler.get
  Handler.modify (Interpreter.appendController
    { owner := owner
      invite := request
      call :=
        { globalConfig := server.globalConfig
          nextHop := server.nhAddr } })
  pure interpreter.controllers.length

def recvRequest (server : AsInstance) (owner : Nat) (request : TrunkRequest) :
    Shell Unit := do
  let source := sourceAddress request.toRequest
  if !isAllowedPeer source server.allowedPeers then
    rejectPeer owner request source (sourcePeer request.toRequest)
  else if request.toTag.isSome then
    genResponse owner request 481 "Call Leg/Transaction Does Not Exist"
  else if request.method ≠ "INVITE" then
    genResponse owner request 501 "Not Implemented"
  else
    let controller ← newController server owner request
    Handler.within (place controller) (receiveInvite server.app request.toRequest)

end AsInstance

/-- `ruleHit` and `appError` are what the hooks of an application count on their own. -/
inductive AsLabel where
  | request (owner : Nat) (request : TrunkRequest)
  | call (controller : Nat) (label : Label)
  | ruleHit (ruleId : String)
  | appError (code : String)
  deriving DecidableEq

def Label.isInvite : Label → Bool
  | .invite _ => true
  | _ => false

def asSystem (servers : Nat → AsInstance) :
    System Interpreter Outgoing PyError AsLabel where
  enter label interpreter idle :=
    match label with
    | .request owner request =>
        if idle then some ((servers owner).recvRequest owner request interpreter) else none
    | .call index label =>
        match interpreter.controllers[index]? with
        | none => none
        | some controller =>
            if label.isInvite then none
            else
              ((callSystem (servers controller.owner).app).enter label
                (interpreter.world index) idle).map (Prog.embed (place index) interpreter)
    | .ruleHit ruleId =>
        some (.ret (interpreter.mapMetrics fun metrics => metrics.recordRuleHit ruleId) (.ok ()))
    | .appError code =>
        some (.ret (interpreter.mapMetrics fun metrics => metrics.recordError code) (.ok ()))

abbrev AsConfig : Type := Config Interpreter Outgoing PyError

abbrev AsAction : Type := Action AsLabel

namespace Interpreter

theorem callOf_of_getElem? {index : Nat} {interpreter : Interpreter} {controller : Controller}
    (found : interpreter.controllers[index]? = some controller) :
    interpreter.callOf index = controller.call := by
  rw [callOf, found]
  rfl

theorem map_controllers_setWorld {Part : Type} (part : Controller → Part)
    (blind : ∀ controller : Controller, ∀ call, part { controller with call := call } =
      part controller) (index : Nat) (interpreter : Interpreter) (world : World) :
    (interpreter.setWorld index world).controllers.map part =
      interpreter.controllers.map part := by
  apply List.ext_getElem?
  intro position
  rw [List.getElem?_map, List.getElem?_map, setWorld, List.getElem?_modify]
  cases interpreter.controllers[position]? with
  | none => rfl
  | some controller =>
      by_cases same : index = position
      · simp [same, blind controller world.toCall]
      · simp [same]

end Interpreter

/-! ### The guards of a call map -/

namespace AsInstance

def refuses (server : AsInstance) (request : TrunkRequest) : Bool :=
  !isAllowedPeer (sourceAddress request.toRequest) server.allowedPeers

def admits (server : AsInstance) (request : TrunkRequest) : Bool :=
  !server.refuses request && request.toTag.isNone && decide (request.method = "INVITE")

/-- The response of the map itself to a request that creates no call. -/
def answerTo (server : AsInstance) (request : TrunkRequest) : Option (Nat × String) :=
  if server.refuses request then some (403, "Forbidden")
  else if request.toTag.isSome then some (481, "Call Leg/Transaction Does Not Exist")
  else if request.method ≠ "INVITE" then some (501, "Not Implemented")
  else none

theorem not_refuses_of_admits {server : AsInstance} {request : TrunkRequest}
    (admitted : server.admits request = true) : server.refuses request = false := by
  unfold admits at admitted
  cases refused : server.refuses request with
  | true => simp [refused] at admitted
  | false => rfl

theorem answerTo_of_refuses {server : AsInstance} {request : TrunkRequest}
    (refused : server.refuses request = true) :
    server.answerTo request = some (403, "Forbidden") :=
  if_pos refused

theorem answerTo_eq_none_iff (server : AsInstance) (request : TrunkRequest) :
    server.answerTo request = none ↔ server.admits request = true := by
  unfold answerTo admits
  cases server.refuses request with
  | true => simp
  | false => cases request.toTag <;> simp

end AsInstance

namespace Interpreter

def refused (request : TrunkRequest) (interpreter : Interpreter) : Interpreter :=
  let peer := sourcePeer request.toRequest
  ((interpreter.mapMetrics fun metrics =>
    metrics.recordError SkeletonErrorCode.peerNotAllowed.code).mapTracer fun tracer =>
      tracer.record (AsInstance.refusal request peer)).appendLog
        ((logEvent interpreter.isEnabledFor .warning
          "request rejected: source address is not an allowed trunk peer"
          [("call_id", .str request.callId), ("direction", .str LogDirection.inbound),
            ("peer", .str peer), ("method", .str request.method)]
          [(AsInstance.peerError request
            (sourceAddress request.toRequest)).asLogFields]).toOption.getD none)

def withController (server : AsInstance) (owner : Nat) (request : TrunkRequest)
    (interpreter : Interpreter) : Interpreter :=
  interpreter.appendController
    { owner := owner
      invite := request
      call :=
        { globalConfig := server.globalConfig
          nextHop := server.nhAddr } }

end Interpreter

namespace AsInstance

variable {server : AsInstance} {owner : Nat} {request : TrunkRequest} {interpreter : Interpreter}

/-- The line of a refused request is always accepted. -/
theorem refusal_logged (source peer : String) (request : TrunkRequest)
    (isEnabledFor : LogLevel → Bool) :
    ∃ entry, logEvent isEnabledFor .warning
      "request rejected: source address is not an allowed trunk peer"
      [("call_id", .str request.callId), ("direction", .str LogDirection.inbound),
        ("peer", .str peer), ("method", .str request.method)]
      [(peerError request source).asLogFields] = .ok entry := by
  rw [logEvent_accepted_iff]
  have keys : keywordKeys
      [("call_id", Value.str request.callId), ("direction", .str LogDirection.inbound),
        ("peer", .str peer), ("method", .str request.method)]
      [(peerError request source).asLogFields] =
      ["call_id", "direction", "peer", "method", "error_code", "sip_status", "error_detail",
        "source", "sip_method"] := rfl
  rw [keys]
  have accepted : ∀ enabled, KeysAccepted enabled
      ["call_id", "direction", "peer", "method", "error_code", "sip_status", "error_detail",
        "source", "sip_method"] := by decide
  exact accepted _

theorem recvRequest_refused (refused : server.refuses request = true) :
    server.recvRequest owner request interpreter =
      .ret ((interpreter.refused request).appendResponse
        { owner := owner
          request := request
          status := 403
          phrase := "Forbidden" }) (.ok ()) := by
  obtain ⟨entry, logged⟩ := refusal_logged (sourceAddress request.toRequest)
    (sourcePeer request.toRequest) request interpreter.isEnabledFor
  have guarded : server.recvRequest owner request =
      rejectPeer owner request (sourceAddress request.toRequest)
        (sourcePeer request.toRequest) := if_pos refused
  rw [guarded, Interpreter.refused, logged]
  simp only [rejectPeer, genResponse, Handler.run_bind, Handler.run_modify, Handler.run_get,
    Prog.bind_ok, Handler.run_ofExcept]
  rw [show ((interpreter.mapMetrics fun metrics =>
    metrics.recordError SkeletonErrorCode.peerNotAllowed.code).mapTracer fun tracer =>
      tracer.record (refusal request (sourcePeer request.toRequest))).isEnabledFor =
        interpreter.isEnabledFor from rfl, logged]
  rfl

theorem recvRequest_admitted (admitted : server.admits request = true) :
    server.recvRequest owner request interpreter =
      (receiveInvite server.app request.toRequest
        ((interpreter.withController server owner request).world
          interpreter.controllers.length)).embed (place interpreter.controllers.length)
            (interpreter.withController server owner request) := by
  simp only [admits, Bool.and_eq_true, Bool.not_eq_true', decide_eq_true_eq,
    Option.isNone_iff_eq_none] at admitted
  obtain ⟨⟨allowed, fresh⟩, invite⟩ := admitted
  unfold refuses at allowed
  simp only [recvRequest, allowed, fresh, invite, Option.isSome_none, Bool.false_eq_true,
    if_false, ne_eq, not_true_eq_false]
  rfl

/-- A request that is neither refused nor admitted only gets its answer. -/
theorem recvRequest_declined (allowed : server.refuses request = false) {status : Nat}
    {phrase : String} (answered : server.answerTo request = some (status, phrase)) :
    server.recvRequest owner request interpreter =
      .ret (interpreter.appendResponse
        { owner := owner
          request := request
          status := status
          phrase := phrase }) (.ok ()) := by
  simp only [answerTo, allowed, Bool.false_eq_true, if_false] at answered
  unfold refuses at allowed
  simp only [recvRequest, allowed, Bool.false_eq_true, if_false]
  split at answered
  · rename_i tagged
    cases answered
    rw [if_pos tagged]
    rfl
  · rename_i untagged
    rw [if_neg untagged]
    split at answered
    · rename_i other
      cases answered
      rw [if_pos other]
      rfl
    · cases answered

end AsInstance

/-- A controller is entered by any label but the INVITE, which it is given only once. -/
theorem asSystem_enter_call {servers : Nat → AsInstance} {index : Nat} {label : Label}
    {interpreter : Interpreter} {idle : Bool} {program : Prog Interpreter Outgoing PyError Unit} :
    (asSystem servers).enter (.call index label) interpreter idle = some program ↔
      ∃ controller, interpreter.controllers[index]? = some controller ∧ label.isInvite = false ∧
        label.enabled (interpreter.world index).toCall idle = true ∧
          (label.handler (servers controller.owner).app
            ((interpreter.world index).mapCall label.opening)).embed (place index) interpreter =
              program := by
  simp only [asSystem]
  cases interpreter.controllers[index]? with
  | none => simp
  | some controller =>
      simp only [Option.ite_none_left_eq_some, Option.map_eq_some_iff, callSystem_enter,
        Option.ite_none_right_eq_some, Option.some.injEq, Bool.not_eq_true]
      constructor
      · rintro ⟨noInvite, _, ⟨enabled, rfl⟩, rfl⟩
        exact ⟨controller, rfl, noInvite, enabled, rfl⟩
      · rintro ⟨_, rfl, noInvite, enabled, rfl⟩
        exact ⟨noInvite, _, ⟨enabled, rfl⟩, rfl⟩

/-! ### Two instances, to run by hand -/

/-- Both relay whatever they are asked, and differ in the identity they are configured
with. -/
def sampleServer (owner : Nat) : AsInstance where
  globalConfig :=
    { sipAddress := some (if owner = 0 then "192.0.2.1" else "192.0.2.2")
      sipPort := some 5060
      sipUaname := some (if owner = 0 then "first" else "second") }
  nhAddr := none
  allowedPeers := ["192.0.2.9"]
  app := App.deciding (sampleRelay [sampleHop "1"])

def sampleInterpreter (maxCalls : Nat) : Interpreter where
  metrics := {}
  tracer := { maxCalls := maxCalls }
  log := []
  sipConf := ⟨"192.0.2.2", 5060, "second", "udp"⟩
  isEnabledFor := fun level => level ≠ .debug
  controllers := []
  answers := []

def sampleInvite (callId : String) : TrunkRequest :=
  { callId := callId
    source := some ("192.0.2.9", 5060)
    method := "INVITE" }

def sampleIntruder (callId : String) : TrunkRequest :=
  { sampleInvite callId with source := some ("198.51.100.66", 5060) }

/-- The first instance admits a call and originates its outbound leg. -/
def sampleAdmission : List AsAction :=
  [.enter (.request 0 (sampleInvite "a1@trunk")), .comeBack,
    .enter (.call 0 (.raises .trunk (sampleTry "200"))), .comeBack]

end AsPlatform
