/-
The transport seam: the local socket that the stack binds and sends on.

A transport has a state of its own, the link, and makes calls of its own into the system,
each of which may raise.
-/

import AsPlatform.Library.Playing
import AsPlatform.Python

namespace AsPlatform

open Reentrant

inductive StackError where
  | python (error : PyError)
  | runtimeError (message : String)
  | foreign (text : String)
  deriving DecidableEq

/-- `Transport`; `sipConfig` is the pair of `_sip_address` and `_sip_port`. -/
structure StackTransport (Link LinkCall : Type) where
  address : String
  port : Nat
  start : Handler Link LinkCall StackError Unit
  stop : Handler Link LinkCall StackError Unit
  sipConfig : Link → Except StackError (String × Nat)

/-- `UdpTransport`: the stack binds the socket itself. -/
def udpTransport (address : String) (port : Nat) : StackTransport Unit Empty where
  address := address
  port := port
  start := pure ()
  stop := pure ()
  sipConfig _ := .ok (address, port)

end AsPlatform
