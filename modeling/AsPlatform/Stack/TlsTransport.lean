/-
The transport that terminates TLS.

It owns sockets: the listener, and the two ends of the bridge to the stack.  `start` may raise
at any of its calls, and leaves the sockets that its attributes refer to by then for `stop` to
close.  Python closes a socket that nothing refers to any more: one that no attribute refers to
yet goes with the exception, and one that an attribute refers to goes when that comes to refer
to another one.
-/

import AsPlatform.Library.Straight
import AsPlatform.Stack.Graceful

namespace AsPlatform

open Reentrant Reentrant.Handler Ownership Platform

inductive TlsSocket where
  | tlsSocket
  | localSocketIn
  | localSocketOut
  deriving DecidableEq

/-- `running` is the flag of `_running`, and `allotted` counts the ports that the system has
given. -/
structure TlsLink where
  localUdpPort : Option Nat := none
  sockets : Holdings TlsSocket TlsSocket := Holdings.empty
  running : Bool := false
  allotted : Nat := 0

inductive SocketCall where
  | create
  | reuseAddress
  | bind (address : String) (port : Nat)
  | listen (backlog : Nat)
  | wrap
  | getsockname
  | setTimeout
  | close
  deriving DecidableEq

/-- The calls that `start` makes; `probe` is the socket that finds the local port. -/
inductive TlsCall where
  | sslContext
  | loadCertChain (certfile keyfile : String)
  | loadVerifyLocations (cafile : String)
  | listener (call : SocketCall)
  | probe (call : SocketCall)
  | localIn (call : SocketCall)
  | localOut (call : SocketCall)
  deriving DecidableEq

inductive TlsStep where
  | run
  | take (socket : TlsSocket)
  | allot (port : Nat)
  deriving DecidableEq

namespace TlsStep

def apply (link : TlsLink) : TlsStep → TlsLink
  | run => { link with running := true }
  | take socket => { link with sockets := link.sockets.replace socket socket }
  | allot port =>
      { link with
        localUdpPort := some port
        allotted := link.allotted + 1 }

theorem owned_foldl (steps : List TlsStep) {link : TlsLink} (owned : link.sockets.Owned) :
    (steps.foldl apply link).sockets.Owned := by
  induction steps generalizing link with
  | nil => exact owned
  | cons step rest ih =>
      refine ih ?_
      cases step with
      | run => exact owned
      | take socket => exact owned.replace socket socket
      | allot port => exact owned

end TlsStep

/-- `TlsTransport`, as it is configured; the system gives `ports` one after the other. -/
structure TlsTransport where
  address : String
  port : Nat
  certfile : String
  keyfile : String
  cafile : Option String := none
  ports : Nat → Nat

namespace TlsTransport

variable (transport : TlsTransport)

/-- The body of `start`, to which the system gives `udpPort`. -/
def lines (udpPort : Nat) : List (Line TlsStep TlsCall) :=
  [.act .run, .ask .sslContext, .ask (.loadCertChain transport.certfile transport.keyfile)] ++
    (match transport.cafile with
    | none => []
    | some cafile => [.ask (.loadVerifyLocations cafile)]) ++
    [.ask (.listener .create), .ask (.listener .reuseAddress),
      .ask (.listener (.bind transport.address transport.port)), .ask (.listener (.listen 16)),
      .ask (.listener .wrap), .act (.take .tlsSocket),
      .ask (.probe .create), .ask (.probe (.bind "127.0.0.1" 0)), .ask (.probe .getsockname),
      .act (.allot udpPort), .ask (.probe .close),
      .ask (.localIn .create), .act (.take .localSocketIn), .ask (.localIn .reuseAddress),
      .ask (.localIn (.bind "127.0.0.1" udpPort)), .ask (.localIn .setTimeout),
      .ask (.localOut .create), .act (.take .localSocketOut), .ask (.localOut .setTimeout)]

def start : Handler TlsLink TlsCall StackError Unit := do
  let link ← Handler.get
  Line.program TlsStep.apply (transport.lines (transport.ports link.allotted))

def closeSocket (socket : TlsSocket) (link : TlsLink) : TlsLink :=
  { link with sockets := link.sockets.release socket }

/-- A `close` raises nothing but an `OSError`, which is suppressed; no thread is ever added to
those of the bridge. -/
def stop : Handler TlsLink TlsCall StackError Unit := do
  Handler.modify fun link => { link with running := false }
  Handler.modify (closeSocket .tlsSocket)
  Handler.modify (closeSocket .localSocketIn)
  Handler.modify (closeSocket .localSocketOut)
  Handler.modify fun link => { link with localUdpPort := none }

def sipConfig (link : TlsLink) : Except StackError (String × Nat) :=
  match link.localUdpPort with
  | none => .error (.runtimeError
      "TlsTransport.sip_config() called before start() — no UDP port allocated")
  | some port => .ok ("127.0.0.1", port)

def toStack : StackTransport TlsLink TlsCall where
  address := transport.address
  port := transport.port
  start := transport.start
  stop := stop
  sipConfig := sipConfig

/-! ### What the operations come to -/

def taken (answer : TlsCall → Except StackError Unit) (link : TlsLink) : List TlsStep :=
  Line.taken answer (transport.lines (transport.ports link.allotted))

theorem steps_lines (udpPort : Nat) : Line.steps (transport.lines udpPort) =
    [.run, .take .tlsSocket, .allot udpPort, .take .localSocketIn, .take .localSocketOut] := by
  unfold lines
  cases transport.cafile <;> rfl

theorem start_state (answer : TlsCall → Except StackError Unit) (link : TlsLink) :
    ((transport.start link).play answer).state =
      (transport.taken answer link).foldl TlsStep.apply link :=
  Line.program_state TlsStep.apply answer (transport.lines (transport.ports link.allotted)) link

theorem taken_of_returned {answer : TlsCall → Except StackError Unit} {link : TlsLink}
    (returned : ((transport.start link).play answer).result = .ok ()) :
    transport.taken answer link = [.run, .take .tlsSocket, .allot (transport.ports link.allotted),
      .take .localSocketIn, .take .localSocketOut] := by
  rw [← steps_lines]
  exact Line.taken_of_returned TlsStep.apply answer
    (transport.lines (transport.ports link.allotted)) link returned

theorem sipConfig_started {answer : TlsCall → Except StackError Unit} {link : TlsLink}
    (returned : ((transport.start link).play answer).result = .ok ()) :
    sipConfig ((transport.start link).play answer).state =
      .ok ("127.0.0.1", transport.ports link.allotted) := by
  rw [start_state, transport.taken_of_returned returned]
  rfl

theorem start_owned (answer : TlsCall → Except StackError Unit) {link : TlsLink}
    (owned : link.sockets.Owned) :
    ((transport.start link).play answer).state.sockets.Owned := by
  rw [start_state]
  exact TlsStep.owned_foldl _ owned

def stopped (link : TlsLink) : TlsLink :=
  { link with
    running := false
    localUdpPort := none
    sockets := ((link.sockets.release .tlsSocket).release .localSocketIn).release .localSocketOut }

theorem stopped_released (link : TlsLink) :
    Holdings.Released link.sockets (stopped link).sockets :=
  (((Holdings.Released.refl link.sockets).release _).release _).release _

theorem stopped_vacant (link : TlsLink) (socket : TlsSocket) :
    (stopped link).sockets.place socket = none := by
  cases socket <;> rfl

end TlsTransport

/-! ### In the stack -/

namespace BaseAsStack

section Links

variable {Link LinkCall : Type} {sippy : SippyTypes} (stack : BaseAsStack Link LinkCall)
  (answer : Replies LinkCall) (platform : Platform Link sippy)

theorem start_link : ((stack.start platform).play answer).state.link =
    (stack.connected answer platform.link).state := by
  have meets := stack.start_meets answer
    (fun found : Platform Link sippy => found.link = (stack.connected answer platform.link).state)
    (meets_linked stack.transport.start platform.link) (fun _ _ _ _ _ same => same)
    (fun _ _ same => same) (fun _ _ same => same) fun _ _ same => same
  exact meets.left rfl

theorem startInternalApi_link :
    ((stack.startInternalApi platform).play answer).state.link = platform.link := by
  have meets := stack.startInternalApi_keeps answer
    (fun found : Platform Link sippy => found.link = platform.link) (fun _ same => same)
    fun _ _ same => same
  exact meets.left rfl

theorem run_link (controller : Nat) :
    ((stack.run controller platform).play answer).state.link = platform.link := by
  refine (stack.run_keeps answer (fun found : Platform Link sippy => found.link = platform.link)
    controller fun _ _ same => same).leaves ?_ (fun _ _ => id) rfl
  rintro _ _ ⟨earlier, same, rfl⟩
  exact same

/-- What `stop` does to the link, unless it raises before it comes to the transport. -/
theorem stop_link [DecidableEq sippy.Transaction]
    (cancel : sippy.Object → sippy.Objects → sippy.Objects) :
    Meets answer (fun found : Platform Link sippy => found.link = platform.link)
      (stack.stop cancel)
      ⟨fun _ _ => True,
        fun _ found => found.link = ((stack.transport.stop platform.link).play
          fun call => answer (.transport call)).state,
        fun _ found => found.link = platform.link ∨ found.link =
          ((stack.transport.stop platform.link).play
            fun call => answer (.transport call)).state⟩ := by
  refine stack.stop_meets answer (fun found : Platform Link sippy => found.link = platform.link)
    cancel (fun _ _ same => same) (fun _ _ same => same) (fun _ _ same => same)
    (fun _ _ same => same) (fun _ _ same => same) (fun _ same => Or.inl same) ?_
  exact (meets_linked stack.transport.stop platform.link).mono (fun _ _ => id) (fun _ _ => id)
    fun _ _ => Or.inr

end Links

variable {sippy : SippyTypes} [DecidableEq sippy.Transaction]
  {stack : BaseAsStack TlsLink TlsCall} {transport : TlsTransport}
  {cancel : sippy.Object → sippy.Objects → sippy.Objects} {servers : Nat → AsInstance}
  {platform next : Platform TlsLink sippy}

theorem step_sockets (isTls : stack.transport = transport.toStack)
    {action : PlatformAction TlsCall sippy} (owned : platform.link.sockets.Owned)
    (taken : stack.step cancel servers platform action = some next) :
    next.link.sockets.Owned := by
  cases step_cases taken with
  | start answer idle =>
      rw [stack.start_link, connected, isTls]
      exact transport.start_owned _ owned
  | startInternalApi answer =>
      rw [stack.startInternalApi_link]
      exact owned
  | run controller answer idle outside =>
      rw [stack.run_link]
      exact owned
  | stop answer =>
      have left : ((stack.stop cancel platform).play answer).state.link = platform.link ∨
          ((stack.stop cancel platform).play answer).state.link =
            TlsTransport.stopped platform.link := by
        have meets := stack.stop_link answer platform cancel
        rw [isTls] at meets
        exact meets.leaves (fun _ _ => Or.inr) (fun _ _ => id) rfl
      rcases left with same | stopped
      · rw [same]
        exact owned
      · rw [stopped]
        exact (TlsTransport.stopped_released platform.link).owned.mpr owned
  | request | poll | leaveLoop | calls | transactions | endThread => exact owned

end BaseAsStack

/-! ### A transport to run by hand -/

def sampleTls : TlsTransport where
  address := "192.0.2.1"
  port := 5061
  certfile := "server.pem"
  keyfile := "server.key"
  ports := fun given => 40000 + given

def sampleTlsStack : BaseAsStack TlsLink TlsCall :=
  { transport := sampleTls.toStack
    sipUserAgentName := "as"
    peerAddress := "192.0.2.9"
    peerPort := 5060
    allowedPeers := ["192.0.2.9"]
    apiAddress := "127.0.0.1"
    apiPort := 8080
    reloadLogFields := OrderedDict.singleton "rules_file" (.str "rules.yaml") }

def sampleTlsPlatform : Platform TlsLink sampleSippy where
  link := {}
  holdings := Holdings.empty
  objects := samplePlatform.objects
  calls := Config.initial (sampleInterpreter 4)
  controllers := [{}]

/-- Somebody else takes the local port in between; the stack is started again. -/
def sampleTlsLife : List (PlatformAction TlsCall sampleSippy) :=
  [.start fun
      | .transport (.localIn (.bind _ _)) => .error (.foreign "refused")
      | _ => .ok (),
    .start fun _ => .ok ()]

end AsPlatform
