/-
The shell of an AS process: what it starts, what it runs and what it stops.

The stack refers to what it has taken from the process: the two timers of the loop, the
transaction manager and the internal API server.  The main thread is inside an operation
until it returns, raises or, in `run`, is in the loop; which of the calls that leave the
library raise is up to the environment.  Handlers of signals may run at any moment, but
only write to a `ShutdownController`, which nothing but the poll of the loop reads.

Assumed of the loop of the library, `ED2`: `loop()` clears the flag that `breakLoop()` sets when
it is entered, returns once that flag is set, and lets a timer fire only as long as it is not
cancelled.
-/

import AsPlatform.CallController.Disposal
import AsPlatform.Library.Ownership
import AsPlatform.Library.Transition
import AsPlatform.Stack.Transport
import AsPlatform.TransactionTimers

namespace AsPlatform

open Reentrant Ownership

structure ShutdownController where
  requested : Bool := false
  reason : Option String := none
  deriving DecidableEq

def ShutdownController.request (reason : String) (_controller : ShutdownController) :
    ShutdownController :=
  { requested := true
    reason := some reason }

structure SippyTypes where
  Key : Type
  Transaction : Type
  Object : Type
  Callback : Type
  Loop : Type

abbrev SippyTypes.Objects (sippy : SippyTypes) : Type :=
  AsPlatform.Objects sippy.Key sippy.Transaction sippy.Object sippy.Callback sippy.Loop

inductive StackPlace where
  | shutdownTimer
  | reloadTimer
  | transactionManager
  | internalApi
  deriving DecidableEq

/-- A timer that polls a `ShutdownController`, the one that polls the data file, a
transaction manager that gives its requests to a call map, and an API server. -/
inductive StackThing where
  | shutdownTimer (controller : Nat)
  | reloadTimer
  | transactionManager (callMap : Nat)
  | internalApi
  deriving DecidableEq

inductive StackCall (LinkCall : Type) where
  | transport (call : LinkCall)
  | createCallMap
  | sipTransactionManager
  | createInternalApiServer
  | importUvicorn
  | createApp
  | startThread
  | reloadLogFields
  | shutdown (manager : Nat)
  | joinThread (server : Nat)
  deriving DecidableEq

structure BaseAsStack (Link LinkCall : Type) where
  sipUserAgentName : String
  boundLogMessage : String := "signalling stack bound"
  transport : StackTransport Link LinkCall
  peerAddress : String
  peerPort : Nat
  allowedPeers : List String
  apiAddress : String
  apiPort : Nat
  reloadPollSeconds : String := "1.0"
  reloadLogFields : Fields

/-- The stack in its process.  `maps` counts the call maps the application has created,
`calls` are the calls of all of them, `objects` those of each transaction manager, and
`exiting` the servers whose `should_exit` is set.  The thread of a server may have `ended` by
itself; where it `outlasts` the join of `stop` the server is among those that are `lingering`. -/
structure Platform (Link : Type) (sippy : SippyTypes) where
  link : Link
  holdings : Holdings StackPlace StackThing
  objects : Nat → sippy.Objects
  globalConfig : GlobalConfig := {}
  nhAddr : Option (String × Nat) := none
  callMap : Option Nat := none
  maps : Nat := 0
  calls : AsConfig
  controllers : List ShutdownController
  exiting : List Nat := []
  outlasts : Nat → Bool := fun _ => false
  lingering : List Nat := []
  ended : List Nat := []
  looping : Bool := false
  loopBroken : Bool := false

namespace Platform

variable {Link LinkCall : Type} {sippy : SippyTypes}

/-- The stack has not released the thing, or its thread outlasted the join; and no thread of it
has ended by itself. -/
def Holds (platform : Platform Link sippy) (thing : Nat) : Prop :=
  (platform.holdings.Held thing ∨ thing ∈ platform.lingering) ∧ thing ∉ platform.ended

abbrev Program (Link LinkCall : Type) (sippy : SippyTypes) (Result : Type) : Type :=
  Handler (Platform Link sippy) (StackCall LinkCall) StackError Result

def mapHoldings (change : Holdings StackPlace StackThing → Holdings StackPlace StackThing)
    (platform : Platform Link sippy) :
    Platform Link sippy :=
  { platform with holdings := change platform.holdings }

def mapInterpreter (change : Interpreter → Interpreter)
    (platform : Platform Link sippy) :
    Platform Link sippy :=
  { platform with calls := { platform.calls with state := change platform.calls.state } }

def identify (uaname address : String) (port : Nat) (interpreter : Interpreter) : Interpreter :=
  { interpreter with
    sipConf := { interpreter.sipConf with
      myUaname := uaname
      myAddress := address
      myPort := port } }

def configure (nhAddr : String × Nat) (sipAddress : String) (sipPort : Nat) (sipUaname : String)
    (platform : Platform Link sippy) :
    Platform Link sippy :=
  { platform with
    globalConfig :=
      { sipAddress := some sipAddress
        sipPort := some sipPort
        sipUaname := some sipUaname }
    nhAddr := some nhAddr }

def createCallMap (owner : Nat) (platform : Platform Link sippy) :
    Platform Link sippy :=
  { platform with
    callMap := some owner
    maps := owner + 1 }

def disposeCallMap (platform : Platform Link sippy) : Platform Link sippy :=
  match platform.callMap with
  | none => platform
  | some owner => platform.mapInterpreter (Interpreter.disposeCallMap owner)

def cancelTimers [DecidableEq sippy.Transaction]
    (cancel : sippy.Object → sippy.Objects →
      sippy.Objects) (manager : Nat)
    (platform : Platform Link sippy) :
    Platform Link sippy :=
  { platform with
    objects := Function.update platform.objects manager
      (cancelTransactionTimers cancel (platform.objects manager)).objects }

def tellToExit (server : Nat) (platform : Platform Link sippy) :
    Platform Link sippy :=
  { platform with exiting := platform.exiting ++ [server] }

/-- `join(timeout=3.0)` returns, be it that the thread has ended or not. -/
def letGo (server : Nat) (platform : Platform Link sippy) : Platform Link sippy :=
  if platform.outlasts server then
    { platform with lingering := platform.lingering ++ [server] }
  else platform

def enterLoop (platform : Platform Link sippy) :
    Platform Link sippy :=
  { platform with
    looping := true
    loopBroken := false }

def pollShutdown (controller : Nat)
    (platform : Platform Link sippy) :
    Platform Link sippy :=
  match platform.controllers[controller]? with
  | none => platform
  | some shutdown => if shutdown.requested then { platform with loopBroken := true } else platform

def setLink (link : Link) (platform : Platform Link sippy) : Platform Link sippy :=
  { platform with link := link }

def linkPlace : Place (Platform Link sippy) Link LinkCall
    (StackCall LinkCall) where
  get platform := platform.link
  put platform link := platform.setLink link
  tag _ call := .transport call

def logInfo (event : String) (named : List (String × Value)) (splatted : List Fields) :
    Program Link LinkCall sippy Unit := do
  let platform ← Handler.get
  match logEvent platform.calls.state.isEnabledFor .info event named splatted with
  | .error error => Handler.raise (.python error)
  | .ok entry => Handler.modify (mapInterpreter (Interpreter.appendLog entry))

end Platform

/-! ### The operations -/

namespace BaseAsStack

open Platform

variable {Link LinkCall : Type} {sippy : SippyTypes}
  (stack : BaseAsStack Link LinkCall)

def start : Program Link LinkCall sippy Unit := do
  Handler.modify (mapInterpreter
    (identify stack.sipUserAgentName stack.transport.address stack.transport.port))
  Handler.within linkPlace stack.transport.start
  let platform ← Handler.get
  let (sipAddress, sipPort) ← Handler.ofExcept (stack.transport.sipConfig platform.link)
  Handler.modify (configure (stack.peerAddress, stack.peerPort) sipAddress sipPort
    stack.sipUserAgentName)
  Handler.callOut .createCallMap
  Handler.modify (createCallMap platform.maps)
  Handler.callOut .sipTransactionManager
  Handler.modify (mapHoldings
    (Holdings.take .transactionManager (.transactionManager platform.maps)))
  logInfo stack.boundLogMessage
    [("direction", .str LogDirection.internal),
      ("listen", .str (renderPeer stack.transport.address stack.transport.port)),
      ("next_hop", .str (renderPeer stack.peerAddress stack.peerPort)),
      ("allowed_peers", .str (String.intercalate "," stack.allowedPeers))] []

/-- `InternalApiServer.start`: the attributes of the server are set on the way, but the stack
refers to the server only once its thread runs. -/
def startServer : Program Link LinkCall sippy Unit := do
  Handler.callOut .importUvicorn
  Handler.callOut .createApp
  Handler.callOut .startThread

def startInternalApi : Program Link LinkCall sippy Unit := do
  Handler.callOut .createInternalApiServer
  startServer
  Handler.modify (mapHoldings (Holdings.take .internalApi .internalApi))
  logInfo "internal api listening"
    [("direction", .str LogDirection.internal),
      ("address", .str (renderPeer stack.apiAddress stack.apiPort))] []

/-- `run`, until it is in the loop. -/
def run (controller : Nat) : Program Link LinkCall sippy Unit := do
  Handler.modify (mapHoldings (Holdings.take .shutdownTimer (.shutdownTimer controller)))
  Handler.modify (mapHoldings (Holdings.take .reloadTimer .reloadTimer))
  Handler.callOut .reloadLogFields
  logInfo "sippy event loop running" [("direction", .str LogDirection.internal)]
    [stack.reloadLogFields,
      OrderedDict.singleton "reload_poll_seconds" (.str stack.reloadPollSeconds)]
  Handler.modify enterLoop

variable [DecidableEq sippy.Transaction]
  (cancel : sippy.Object → sippy.Objects →
    sippy.Objects)

def stopTransactionManager : Program Link LinkCall sippy Unit := do
  let platform ← Handler.get
  match platform.holdings.place .transactionManager with
  | none => pure ()
  | some manager =>
      Handler.modify (cancelTimers cancel manager)
      Handler.callOut (.shutdown manager)
      Handler.modify (mapHoldings (Holdings.release .transactionManager))

/-- `InternalApiServer.stop`: the server is told to exit, and its thread is joined.  Nothing
asks whether it has ended by then. -/
def stopInternalApi : Program Link LinkCall sippy Unit := do
  let platform ← Handler.get
  match platform.holdings.place .internalApi with
  | none => pure ()
  | some server =>
      Handler.modify (tellToExit server)
      Handler.callOut (.joinThread server)
      Handler.modify (letGo server)
      Handler.modify (mapHoldings (Holdings.release .internalApi))

def stop : Program Link LinkCall sippy Unit := do
  Handler.modify (mapHoldings (Holdings.release .shutdownTimer))
  Handler.modify (mapHoldings (Holdings.release .reloadTimer))
  Handler.modify disposeCallMap
  stopTransactionManager cancel
  stopInternalApi
  Handler.within linkPlace stack.transport.stop

end BaseAsStack

/-! ### What happens in the process -/

abbrev Replies (LinkCall : Type) : Type := StackCall LinkCall → Except StackError Unit

/-- `request` is what a handler of a signal does, `poll` the firing of a shutdown timer, `calls`
what happens to the calls, and `transactions` what the stack does to its transactions.  With
`endThread` the thread of a server ends by itself, as where it cannot have its port. -/
inductive PlatformAction (LinkCall : Type) (sippy : SippyTypes) where
  | start (answer : Replies LinkCall)
  | startInternalApi (answer : Replies LinkCall)
  | run (controller : Nat) (answer : Replies LinkCall)
  | stop (answer : Replies LinkCall)
  | request (controller : Nat) (reason : String)
  | poll (timer : Nat)
  | leaveLoop
  | calls (action : AsAction)
  | transactions (manager : Nat) (objects : sippy.Objects)
  | endThread (server : Nat)

namespace BaseAsStack

variable {Link LinkCall : Type} {sippy : SippyTypes} [DecidableEq sippy.Transaction]

/-- The operations are called by the main thread: while a handler of a call is at work it can
at most stop the stack, and while it is in the loop it does not enter it again. -/
def step (stack : BaseAsStack Link LinkCall)
    (cancel : sippy.Object → sippy.Objects →
      sippy.Objects) (servers : Nat → AsInstance)
    (platform : Platform Link sippy) :
    PlatformAction LinkCall sippy →
      Option (Platform Link sippy)
  | .start answer =>
      if platform.calls.idle then some ((stack.start platform).play answer).state else none
  | .startInternalApi answer => some ((stack.startInternalApi platform).play answer).state
  | .run controller answer =>
      if platform.calls.idle && !platform.looping then
        some ((stack.run controller platform).play answer).state
      else none
  | .stop answer => some ((stack.stop cancel platform).play answer).state
  | .request controller reason =>
      some { platform with
        controllers := platform.controllers.modify controller (ShutdownController.request reason) }
  | .poll timer =>
      if platform.looping && decide (platform.holdings.Held timer) then
        match platform.holdings.things[timer]? with
        | some (.shutdownTimer controller) => some (platform.pollShutdown controller)
        | _ => none
      else none
  | .leaveLoop =>
      if platform.looping && platform.loopBroken then some { platform with looping := false }
      else none
  | .calls action =>
      ((asSystem servers).step platform.calls action).map fun calls =>
        { platform with calls := calls }
  | .transactions manager objects =>
      some { platform with objects := Function.update platform.objects manager objects }
  | .endThread server =>
      if platform.holdings.things[server]? = some .internalApi then
        some { platform with ended := platform.ended ++ [server] }
      else none

end BaseAsStack

/-! ### What a step comes to -/

section Steps

variable {Link LinkCall : Type} {sippy : SippyTypes}

def Platform.Requested (platform : Platform Link sippy) (controller : Nat) : Prop :=
  ∃ shutdown, platform.controllers[controller]? = some shutdown ∧ shutdown.requested = true

theorem Platform.pollShutdown_eq (controller : Nat) (platform : Platform Link sippy) :
    ∃ broken, platform.pollShutdown controller = { platform with loopBroken := broken } ∧
      (broken = true ↔ platform.loopBroken = true ∨ platform.Requested controller) := by
  unfold pollShutdown Requested
  cases platform.controllers[controller]? with
  | none => exact ⟨platform.loopBroken, rfl, by simp⟩
  | some shutdown =>
      cases requested : shutdown.requested with
      | true => exact ⟨true, if_pos requested, by simp [requested]⟩
      | false => exact ⟨platform.loopBroken, if_neg (by simp [requested]), by simp [requested]⟩

namespace BaseAsStack

variable [DecidableEq sippy.Transaction]

/-- An operation is played to its end; whatever else happens changes one part of the platform. -/
inductive Step (stack : BaseAsStack Link LinkCall)
    (cancel : sippy.Object → sippy.Objects → sippy.Objects) (servers : Nat → AsInstance)
    (platform : Platform Link sippy) :
    PlatformAction LinkCall sippy → Platform Link sippy → Prop where
  | start (answer : Replies LinkCall) (idle : platform.calls.idle = true) :
      Step stack cancel servers platform (.start answer)
        ((stack.start platform).play answer).state
  | startInternalApi (answer : Replies LinkCall) :
      Step stack cancel servers platform (.startInternalApi answer)
        ((stack.startInternalApi platform).play answer).state
  | run (controller : Nat) (answer : Replies LinkCall) (idle : platform.calls.idle = true)
      (outside : platform.looping = false) :
      Step stack cancel servers platform (.run controller answer)
        ((stack.run controller platform).play answer).state
  | stop (answer : Replies LinkCall) :
      Step stack cancel servers platform (.stop answer)
        ((stack.stop cancel platform).play answer).state
  | request (controller : Nat) (reason : String) :
      Step stack cancel servers platform (.request controller reason)
        { platform with
          controllers := platform.controllers.modify controller
            (ShutdownController.request reason) }
  | poll (timer controller : Nat) (broken : Bool) (looping : platform.looping = true)
      (held : platform.holdings.Held timer)
      (isTimer : platform.holdings.things[timer]? = some (.shutdownTimer controller))
      (breaks : broken = true ↔ platform.loopBroken = true ∨ platform.Requested controller) :
      Step stack cancel servers platform (.poll timer) { platform with loopBroken := broken }
  | leaveLoop (looping : platform.looping = true) (broken : platform.loopBroken = true) :
      Step stack cancel servers platform .leaveLoop { platform with looping := false }
  | calls (action : AsAction) (calls : AsConfig)
      (onward : (asSystem servers).step platform.calls action = some calls) :
      Step stack cancel servers platform (.calls action) { platform with calls := calls }
  | transactions (manager : Nat) (objects : sippy.Objects) :
      Step stack cancel servers platform (.transactions manager objects)
        { platform with objects := Function.update platform.objects manager objects }
  | endThread (server : Nat) :
      Step stack cancel servers platform (.endThread server)
        { platform with ended := platform.ended ++ [server] }

variable {stack : BaseAsStack Link LinkCall}
  {cancel : sippy.Object → sippy.Objects → sippy.Objects} {servers : Nat → AsInstance}
  {platform next : Platform Link sippy} {action : PlatformAction LinkCall sippy}

theorem step_cases (taken : stack.step cancel servers platform action = some next) :
    stack.Step cancel servers platform action next := by
  cases action with
  | start answer =>
      obtain ⟨idle, isNext⟩ := Option.ite_none_right_eq_some.mp taken
      cases isNext
      exact .start answer idle
  | startInternalApi answer =>
      cases taken
      exact .startInternalApi answer
  | run controller answer =>
      obtain ⟨enabled, isNext⟩ := Option.ite_none_right_eq_some.mp taken
      rw [Bool.and_eq_true, Bool.not_eq_true'] at enabled
      cases isNext
      exact .run controller answer enabled.1 enabled.2
  | stop answer =>
      cases taken
      exact .stop answer
  | request controller reason =>
      cases taken
      exact .request controller reason
  | poll timer =>
      obtain ⟨enabled, isNext⟩ := Option.ite_none_right_eq_some.mp taken
      rw [Bool.and_eq_true, decide_eq_true_iff] at enabled
      split at isNext
      · rename_i controller isTimer
        obtain ⟨broken, polled, breaks⟩ := platform.pollShutdown_eq controller
        rw [polled] at isNext
        cases isNext
        exact .poll timer controller broken enabled.1 enabled.2 isTimer breaks
      · cases isNext
  | leaveLoop =>
      obtain ⟨enabled, isNext⟩ := Option.ite_none_right_eq_some.mp taken
      rw [Bool.and_eq_true] at enabled
      cases isNext
      exact .leaveLoop enabled.1 enabled.2
  | calls action =>
      obtain ⟨calls, onward, rfl⟩ := Option.map_eq_some_iff.mp taken
      exact .calls action calls onward
  | transactions manager objects =>
      cases taken
      exact .transactions manager objects
  | endThread server =>
      obtain ⟨_, isNext⟩ := Option.ite_none_right_eq_some.mp taken
      cases isNext
      exact .endThread server

end BaseAsStack

end Steps

end AsPlatform
