/-
The signalling stack as the call controller sees it.

The stack is not part of the repository.  A `UA` is known by what it was given,
by what it has raised and by what `isConnected()` answers; a timer is known by
whether it is armed.  When a `UA` raises an event, when it connects and when an
armed timer fires is up to the environment.
-/

import AsPlatform.Python

namespace AsPlatform

/-- The data of a response event: `(code, reason, body)`. -/
structure Scode where
  code : Nat
  reason : String
  body : Option String := none
  deriving DecidableEq

structure TryData where
  callId : String
  callingNumber : String
  calledNumber : String
  deriving DecidableEq

inductive CCEvent where
  | tryEvent (data : Option TryData)
  | ring (data : Option Scode)
  | connect (data : Option Scode)
  | fail (data : Option Scode)
  | disconnect
  | update
  | other (typeName : String)
  deriving DecidableEq

namespace CCEvent

def isTry : CCEvent → Bool
  | tryEvent _ => true
  | _ => false

/-- `isinstance(event, (CCEventRing, CCEventConnect))`. -/
def isAnswer : CCEvent → Bool
  | ring _ => true
  | connect _ => true
  | _ => false

def isFail : CCEvent → Bool
  | fail _ => true
  | _ => false

/-- `isinstance(event, (CCEventFail, CCEventDisconnect))`. -/
def terminates : CCEvent → Bool
  | fail _ => true
  | disconnect => true
  | _ => false

theorem not_isAnswer_of_terminates (event : CCEvent) (terminates : event.terminates = true) :
    event.isAnswer = false := by
  cases event <;> first | rfl | cases terminates

/-- `str(event.getData()[2])`, where the event itself may be missing. -/
def calledNumber : Option CCEvent → Except PyError String
  | some (tryEvent (some data)) => .ok data.calledNumber
  | some (ring (some data)) => .ok (data.body.getD "None")
  | some (connect (some data)) => .ok (data.body.getD "None")
  | some (fail (some data)) => .ok (data.body.getD "None")
  | some _ => .error (.typeError "object is not subscriptable")
  | none => .error (.attributeError "'NoneType' object has no attribute 'getData'")

end CCEvent

inductive UaRef where
  | trunk
  | leg (index : Nat)
  deriving DecidableEq

structure SipContact where
  host : String
  port : Nat
  transport : String
  deriving DecidableEq

/-- `received`, `raised` and `wasConnected` are the history of the object. -/
structure Ua where
  nhAddress : Option (String × Nat)
  localUa : String
  lContact : SipContact
  received : List CCEvent := []
  raised : List CCEvent := []
  connected : Bool := false
  wasConnected : Bool := false
  deriving DecidableEq

namespace Ua

def give (event : CCEvent) (ua : Ua) : Ua :=
  { ua with received := ua.received ++ [event] }

def raise (event : CCEvent) (ua : Ua) : Ua :=
  { ua with raised := ua.raised ++ [event] }

def setConnected (value : Bool) (ua : Ua) : Ua :=
  { ua with
    connected := value
    wasConnected := ua.wasConnected || value }

def ended (ua : Ua) : Bool :=
  ua.raised.any CCEvent.terminates

end Ua

inductive TimerState where
  | armed
  | fired
  | cancelled
  deriving DecidableEq

/-- A one-shot `Timeout`.  `attempt` is history: how many outbound legs the
controller had created when it armed the timer. -/
structure Timeout where
  seconds : Rat
  attempt : Nat
  state : TimerState := .armed
  deriving DecidableEq

namespace Timeout

/-- `cancel()` does nothing to a timer that has already run. -/
def cancel (timer : Timeout) : Timeout :=
  { timer with state := if timer.state = .armed then .cancelled else timer.state }

def fire (timer : Timeout) : Timeout :=
  { timer with state := .fired }

end Timeout

/-- The process-wide identity from which the stack builds its messages. -/
structure SipConf where
  myAddress : String
  myPort : Nat
  myUaname : String
  myTransport : String
  deriving DecidableEq

structure GlobalConfig where
  sipAddress : Option String := none
  sipPort : Option Nat := none
  sipUaname : Option String := none
  nextHopExpireSeconds : Option Rat := none
  deriving DecidableEq

end AsPlatform
