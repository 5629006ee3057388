/-
The parts of Python that the modelled functions rest on: values that travel in
trace attributes and log fields, exceptions, and the text operations they use.
-/

import AsPlatform.Library.OrderedDict

namespace AsPlatform

/-- A value in a mapping of type `dict[str, Any]`.  Of an object that is none of
the listed kinds only its text and its truth value can be observed. -/
inductive Value where
  | none
  | bool (value : Bool)
  | int (value : Int)
  | str (value : String)
  | object (text : String) (truth : Bool)
  deriving DecidableEq

def Value.truth : Value → Bool
  | .none => false
  | .bool value => value
  | .int value => decide (value ≠ 0)
  | .str value => decide (value ≠ "")
  | .object _ truth => truth

/-- `value or default`. -/
def Value.orElse (value fallback : Value) : Value :=
  if value.truth then value else fallback

abbrev Fields : Type := OrderedDict String Value

inductive PyError where
  | typeError (message : String)
  | keyError (message : String)
  | indexError (message : String)
  | attributeError (message : String)
  | assertionError
  | raisedByHook (name : String)
  deriving DecidableEq

/-- The code points that `str.strip()` removes from both ends. -/
def isSpace (character : Char) : Bool :=
  let code := character.toNat
  (9 ≤ code && code ≤ 13) || (28 ≤ code && code ≤ 32) || code == 0x85 || code == 0xA0 ||
    code == 0x1680 || (0x2000 ≤ code && code ≤ 0x200A) || code == 0x2028 || code == 0x2029 ||
    code == 0x202F || code == 0x205F || code == 0x3000

def strip (text : String) : String :=
  String.ofList
    ((text.toList.dropWhile isSpace).reverse.dropWhile isSpace).reverse

/-- `items[:limit]`, which counts from the end if the limit is negative. -/
def sliceTo {Item : Type} (limit : Int) (items : List Item) : List Item :=
  if 0 ≤ limit then items.take limit.toNat
  else items.take (items.length - limit.natAbs)

@[simp] theorem sliceTo_natCast {Item : Type} (limit : Nat) (items : List Item) :
    sliceTo (limit : Int) items = items.take limit := by
  rw [sliceTo, if_pos (Int.natCast_nonneg limit), Int.toNat_natCast]

/-- `f"{address}:{port}"`. -/
def renderPeer (address : String) (port : Nat) : String :=
  address ++ ":" ++ toString port

end AsPlatform
