/-
`json.dumps(value, default=str)` and `json.loads`.

The text between the two is taken as what its tokens denote.  Non-ASCII text is escaped,
so the characters of a JSON string are UTF-16 code units, and a pair of surrogates is
read back as one character.

Assumed of the interpreter: its limits on the digits of an integer (4300) and on the depth of
recursion are switched off, and `str` of an object does not raise.
-/

import AsPlatform.Python
import Mathlib.Data.Rat.Defs

namespace AsPlatform

/-! ### Text -/

/-- A Python string holds any code points, surrogates too. -/
abbrev CodePoint : Type := Fin 0x110000

abbrev PyStr : Type := List CodePoint

/-- What one `\uXXXX` escape denotes. -/
abbrev CodeUnit : Type := Fin 0x10000

def isHighSurrogate (code : Nat) : Prop := 0xD800 ≤ code ∧ code < 0xDC00

def isLowSurrogate (code : Nat) : Prop := 0xDC00 ≤ code ∧ code < 0xE000

instance (code : Nat) : Decidable (isHighSurrogate code) :=
  inferInstanceAs (Decidable (0xD800 ≤ code ∧ code < 0xDC00))

instance (code : Nat) : Decidable (isLowSurrogate code) :=
  inferInstanceAs (Decidable (0xDC00 ≤ code ∧ code < 0xE000))

def escape (point : CodePoint) : List CodeUnit :=
  if small : point.val < 0x10000 then [⟨point.val, small⟩]
  else
    [⟨0xD800 + (point.val - 0x10000) / 0x400, by omega⟩,
      ⟨0xDC00 + (point.val - 0x10000) % 0x400, by omega⟩]

def CodeUnit.alone (unit : CodeUnit) : CodePoint := ⟨unit.val, by omega⟩

def CodeUnit.joined (high low : CodeUnit)
    (pair : isHighSurrogate high.val ∧ isLowSurrogate low.val) : CodePoint :=
  ⟨0x10000 + (high.val - 0xD800) * 0x400 + (low.val - 0xDC00), by
    obtain ⟨highRange, lowRange⟩ := pair
    unfold isHighSurrogate at highRange
    unfold isLowSurrogate at lowRange
    omega⟩

def unescape : List CodeUnit → PyStr
  | [] => []
  | [unit] => [unit.alone]
  | high :: low :: rest =>
      if pair : isHighSurrogate high.val ∧ isLowSurrogate low.val then
        CodeUnit.joined high low pair :: unescape rest
      else
        high.alone :: unescape (low :: rest)

def reread (text : PyStr) : PyStr :=
  unescape (text.flatMap escape)

def pyStr (text : String) : PyStr :=
  text.toList.map fun character =>
    ⟨character.toNat, by
      have valid := character.valid
      simp only [UInt32.isValidChar, Nat.isValidChar] at valid
      change character.val.toNat < 0x110000
      omega⟩

/-! ### Values -/

/-- A float other than the special ones has a number and its `repr`, which tells floats
of one number and different signs apart. -/
inductive PyFloat where
  | nan
  | infinite (negative : Bool)
  | finite (number : Rat) (repr : PyStr)
  deriving DecidableEq

inductive PyNumber where
  | bool (value : Bool)
  | int (value : Int)
  | float (value : PyFloat)
  deriving DecidableEq

/-- The key of a dictionary; of a key of another class only the class is told. -/
inductive PyKey where
  | none
  | number (value : PyNumber)
  | str (text : PyStr)
  | other (className : String) (identity : Nat)
  deriving DecidableEq

/-- A Python value.  An object of another class has a text, and is equal to itself only;
a value of a subclass counts as one of the class itself. -/
inductive PyValue where
  | none
  | number (value : PyNumber)
  | str (text : PyStr)
  | list (items : List PyValue)
  | tuple (items : List PyValue)
  | dict (entries : List (PyKey × PyValue))
  | object (identity : Nat) (text : PyStr)

inductive Json where
  | null
  | bool (value : Bool)
  | int (value : Int)
  | float (value : PyFloat)
  | string (units : List CodeUnit)
  | array (items : List Json)
  | object (entries : List (List CodeUnit × Json))

/-! ### Equality -/

/-- `True` is 1 and `1.0` is 1; infinite floats and NaN have no number here. -/
def PyNumber.finite? : PyNumber → Option Rat
  | .bool value => some (if value then 1 else 0)
  | .int value => some value
  | .float (.finite number _) => some number
  | .float _ => none

/-- `==` on numbers: NaN is not equal to itself. -/
def PyNumber.equals (left right : PyNumber) : Bool :=
  match left.finite?, right.finite? with
  | some first, some second => decide (first = second)
  | none, none => decide (left = right) && decide (left ≠ .float .nan)
  | _, _ => false

def PyKey.equals : PyKey → PyKey → Bool
  | .none, .none => true
  | .number left, .number right => left.equals right
  | .str left, .str right => decide (left = right)
  | .other _ left, .other _ right => decide (left = right)
  | _, _ => false

def lookup (key : PyKey) (entries : List (PyKey × PyValue)) : Option PyValue :=
  (entries.find? fun entry => entry.1.equals key).map Prod.snd

namespace PyValue

mutual

def equals : PyValue → PyValue → Bool
  | .none, .none => true
  | .number left, .number right => left.equals right
  | .str left, .str right => decide (left = right)
  | .list left, .list right => equalsItems left right
  | .tuple left, .tuple right => equalsItems left right
  | .dict left, .dict right => decide (left.length = right.length) && equalsEntries left right
  | .object left _, .object right _ => decide (left = right)
  | _, _ => false

def equalsItems : List PyValue → List PyValue → Bool
  | [], [] => true
  | left :: lefts, right :: rights => equals left right && equalsItems lefts rights
  | _, _ => false

def equalsEntries : List (PyKey × PyValue) → List (PyKey × PyValue) → Bool
  | [], _ => true
  | (key, value) :: rest, others =>
      (match lookup key others with
        | some other => equals value other
        | .none => false) && equalsEntries rest others

end

end PyValue

/-! ### Writing and reading -/

def keyText : PyKey → Except PyError PyStr
  | .str text => .ok text
  | .number (.float .nan) => .ok (pyStr "NaN")
  | .number (.float (.infinite true)) => .ok (pyStr "-Infinity")
  | .number (.float (.infinite false)) => .ok (pyStr "Infinity")
  | .number (.float (.finite _ repr)) => .ok repr
  | .number (.bool true) => .ok (pyStr "true")
  | .number (.bool false) => .ok (pyStr "false")
  | .number (.int value) => .ok (pyStr (toString value))
  | .none => .ok (pyStr "null")
  | .other className _ =>
      .error (.typeError ("keys must be str, int, float, bool or None, not " ++ className))

mutual

/-- `json.dumps(value, default=str)`. -/
def dumps : PyValue → Except PyError Json
  | .none => .ok .null
  | .number (.bool value) => .ok (.bool value)
  | .number (.int value) => .ok (.int value)
  | .number (.float value) => .ok (.float value)
  | .str text => .ok (.string (text.flatMap escape))
  | .list items => (dumpsItems items).map .array
  | .tuple items => (dumpsItems items).map .array
  | .dict entries => (dumpsEntries entries).map .object
  | .object _ text => .ok (.string (text.flatMap escape))

def dumpsItems : List PyValue → Except PyError (List Json)
  | [] => .ok []
  | item :: rest => do
      let first ← dumps item
      let others ← dumpsItems rest
      pure (first :: others)

def dumpsEntries : List (PyKey × PyValue) → Except PyError (List (List CodeUnit × Json))
  | [] => .ok []
  | (key, value) :: rest => do
      let text ← keyText key
      let first ← dumps value
      let others ← dumpsEntries rest
      pure ((text.flatMap escape, first) :: others)

end

mutual

/-- `json.loads`: of the entries of an object under one key the last one counts. -/
def loads : Json → PyValue
  | .null => .none
  | .bool value => .number (.bool value)
  | .int value => .number (.int value)
  | .float value => .number (.float value)
  | .string units => .str (unescape units)
  | .array items => .list (loadsItems items)
  | .object entries => .dict (OrderedDict.ofList (loadsEntries entries)).entries

def loadsItems : List Json → List PyValue
  | [] => []
  | item :: rest => loads item :: loadsItems rest

def loadsEntries : List (List CodeUnit × Json) → List (PyKey × PyValue)
  | [] => []
  | (units, value) :: rest => (.str (unescape units), loads value) :: loadsEntries rest

end

/-! ### What survives -/

def Unpaired (text : PyStr) : Prop :=
  text.IsChain fun left right => ¬(isHighSurrogate left.val ∧ isLowSurrogate right.val)

mutual

/-- The value has only what JSON has: no NaN, no tuples and no objects of other classes,
and dictionaries only with distinct string keys. -/
def Faithful : PyValue → Prop
  | .none => True
  | .number value => value ≠ .float .nan
  | .str text => Unpaired text
  | .list items => FaithfulItems items
  | .tuple _ => False
  | .dict entries => (entries.map Prod.fst).Nodup ∧ FaithfulEntries entries
  | .object _ _ => False

def FaithfulItems : List PyValue → Prop
  | [] => True
  | item :: rest => Faithful item ∧ FaithfulItems rest

def FaithfulEntries : List (PyKey × PyValue) → Prop
  | [] => True
  | (key, value) :: rest =>
      (∃ text, key = .str text ∧ Unpaired text) ∧ Faithful value ∧ FaithfulEntries rest

end

mutual

def HasOtherKey : PyValue → Prop
  | .list items => HasOtherKeyItems items
  | .tuple items => HasOtherKeyItems items
  | .dict entries => HasOtherKeyEntries entries
  | .none => False
  | .number _ => False
  | .str _ => False
  | .object _ _ => False

def HasOtherKeyItems : List PyValue → Prop
  | [] => False
  | item :: rest => HasOtherKey item ∨ HasOtherKeyItems rest

def HasOtherKeyEntries : List (PyKey × PyValue) → Prop
  | [] => False
  | (key, value) :: rest =>
      (∃ className identity, key = .other className identity) ∨ HasOtherKey value ∨
        HasOtherKeyEntries rest

end

end AsPlatform
