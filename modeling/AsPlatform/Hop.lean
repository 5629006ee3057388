/-
The next-hop value object.

Validation is part of the type: a hop whose port lies outside the accepted range
cannot be built.  The selection priority and the console description are left
out, since no modelled function reads them.
-/

import AsPlatform.Python

namespace AsPlatform

inductive Transport where
  | udp
  | tls
  deriving DecidableEq

structure NextHop where
  name : String
  address : String
  port : Nat := 5060
  transport : Transport := .udp
  portRange : 1 ≤ port ∧ port ≤ 65535 := by decide
  deriving DecidableEq

/-- The `(address, port)` tuple a `UA` receives. -/
def NextHop.target (hop : NextHop) : String × Nat :=
  (hop.address, hop.port)

end AsPlatform
