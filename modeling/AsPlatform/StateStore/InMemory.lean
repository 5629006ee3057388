/-
The in-memory state store, and the order of access it keeps.

Its lock makes each operation atomic, so a store is used by a sequence of operations.
The history of a store has the operations that were carried out and what came of them,
the latest first: what a read returned, and which keys a trim dropped.
-/

import AsPlatform.Python
import AsPlatform.Library.Recency

namespace AsPlatform

variable {Record : Type}

def startsWith (family key : String) : Bool :=
  family.toList.isPrefixOf key.toList

structure InMemoryStateStore (Record : Type) where
  entries : OrderedDict String Record := ∅

namespace InMemoryStateStore

/-- `read`: the record, whose key becomes the most recently used. -/
def read (store : InMemoryStateStore Record) (key : String) :
    InMemoryStateStore Record × Option Record :=
  if key ∉ store.entries.keys then
    (store, none)
  else
    let entries := store.entries.moveToEnd key
    ({ entries := entries }, entries.get? key)

theorem read_absent (store : InMemoryStateStore Record) {key : String}
    (absent : store.entries.get? key = none) : store.read key = (store, none) :=
  if_pos ((OrderedDict.get?_eq_none_iff _ _).mp absent)

theorem read_present (store : InMemoryStateStore Record) {key : String} {value : Record}
    (stored : store.entries.get? key = some value) :
    store.read key = ({ entries := store.entries.moveToEnd key }, some value) := by
  have present : key ∈ store.entries.keys :=
    (OrderedDict.mem_keys_iff _ _).mpr ⟨value, stored⟩
  have found : (store.entries.moveToEnd key).get? key = some value :=
    (OrderedDict.get?_moveToEnd store.entries key key).trans stored
  rw [read, if_neg (not_not.mpr present)]
  exact congrArg (Prod.mk _) found

def write (store : InMemoryStateStore Record) (key : String) (value : Record) :
    InMemoryStateStore Record :=
  { entries := (store.entries.insert key value).moveToEnd key }

/-- `while len(family) > limit: del self._entries[family.pop(0)]`. -/
def evict (limit : Int) : List String → OrderedDict String Record →
    OrderedDict String Record × Except PyError Unit
  | [], entries =>
      if (0 : Int) > limit then (entries, .error (.indexError "pop from empty list"))
      else (entries, .ok ())
  | key :: family, entries =>
      if ((key :: family).length : Int) > limit then evict limit family (entries.erase key)
      else (entries, .ok ())

def family (store : InMemoryStateStore Record) (pre : String) : List String :=
  store.entries.keys.filter (startsWith pre)

/-- `trim`: drop the least recently used keys of a family above the limit. -/
def trim (store : InMemoryStateStore Record) (pre : String) (limit : Int) :
    InMemoryStateStore Record × Except PyError Unit :=
  let evicted := evict limit (store.family pre) store.entries
  ({ entries := evicted.1 }, evicted.2)

end InMemoryStateStore

inductive StoreOp (Record : Type) where
  | read (key : String)
  | write (key : String) (value : Record)
  | trim (pre : String) (limit : Int)

inductive StoreEvent (Record : Type) where
  | read (key : String) (found : Option Record)
  | wrote (key : String) (value : Record)
  | trimmed (pre : String) (limit : Int) (dropped : List String)

namespace InMemoryStateStore

def perform (store : InMemoryStateStore Record) :
    StoreOp Record → InMemoryStateStore Record × StoreEvent Record
  | .read key => ((store.read key).1, .read key (store.read key).2)
  | .write key value => (store.write key value, .wrote key value)
  | .trim pre limit =>
      let trimmed := (store.trim pre limit).1
      (trimmed, .trimmed pre limit
        (store.entries.keys.filter fun key => key ∉ trimmed.entries.keys))

def run (operations : List (StoreOp Record)) :
    InMemoryStateStore Record × List (StoreEvent Record) :=
  operations.foldl
    (fun reached operation =>
      let performed := reached.1.perform operation
      (performed.1, performed.2 :: reached.2))
    ({}, [])

end InMemoryStateStore

/-! ### What the history says -/

namespace StoreEvent

/-- A write accesses its key, and so does a read that finds it. -/
def accesses (key : String) : StoreEvent Record → Bool
  | .read other found => decide (other = key) && found.isSome
  | .wrote other _ => decide (other = key)
  | .trimmed _ _ _ => false

end StoreEvent

/-- How many operations lie between the latest access to a key and the present. -/
def age (key : String) (history : List (StoreEvent Record)) : Nat :=
  history.findIdx (StoreEvent.accesses key)

/-- The value of the latest write to a key, unless a later trim dropped the key. -/
def latest (key : String) : List (StoreEvent Record) → Option Record
  | [] => none
  | .read _ _ :: earlier => latest key earlier
  | .wrote other value :: earlier => if other = key then some value else latest key earlier
  | .trimmed _ _ dropped :: earlier => if key ∈ dropped then none else latest key earlier

end AsPlatform
