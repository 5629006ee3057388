/-
The Redis-backed state store: its work items, and what its worker does for each.

Redis is known by the commands the worker sends.  What the worker does is a program that
asks for replies, so it can be run against a server of its own as well as among the
commands of others.
-/

import AsPlatform.Library.OrderedDict
import AsPlatform.Library.Asking
import AsPlatform.Library.Ranking
import AsPlatform.Python

namespace AsPlatform

inductive RedisCommand (Text : Type) where
  | get (key : String)
  | set (key : String) (value : Text)
  | scanIter (pattern : String)
  | objectIdletime (key : String)
  | delete (key : String)

def RedisCommand.Reply {Text : Type} : RedisCommand Text → Type
  | .get _ => Option Text
  | .set _ _ => Unit
  | .scanIter _ => List String
  | .objectIdletime _ => Option Nat
  | .delete _ => Unit

/-- How records are written as text: `json.dumps(value, default=str)` and `json.loads`. -/
structure Codec (Record Text Error : Type) where
  none : Record
  dumps : Record → Except Error Text
  loads : Text → Except Error Record

inductive WorkItem (Text : Type) where
  | read (key : String)
  | write (key : String) (value : Text)
  | trim (pre : String) (limit : Int)
  deriving DecidableEq

variable {Record Text Error : Type}

abbrev RedisProgram (Text Error Value : Type) : Type :=
  Asking (RedisCommand Text) RedisCommand.Reply Error Value

namespace RedisClient

def get (key : String) : RedisProgram Text Error (Option Text) :=
  Asking.request (RedisCommand.get key)

def set (key : String) (value : Text) : RedisProgram Text Error Unit :=
  Asking.request (RedisCommand.set key value)

def scanIter (pattern : String) : RedisProgram Text Error (List String) :=
  Asking.request (RedisCommand.scanIter pattern)

def objectIdletime (key : String) : RedisProgram Text Error (Option Nat) :=
  Asking.request (RedisCommand.objectIdletime key)

def delete (key : String) : RedisProgram Text Error Unit :=
  Asking.request (RedisCommand.delete key)

end RedisClient

/-- `idle_times`: the idle time of each key, in the order of the scan. -/
def idleTimes : List String → OrderedDict String Nat →
    RedisProgram Text Error (OrderedDict String Nat)
  | [], idle => pure idle
  | key :: keys, idle => do
      let ttl ← RedisClient.objectIdletime key
      idleTimes keys (idle.insert key (ttl.getD 0))

def deleteAll : List String → RedisProgram Text Error Unit
  | [] => pure ()
  | key :: keys => do
      RedisClient.delete key
      deleteAll keys

/-- `sorted(idle_times.items(), key=lambda kv: kv[1], reverse=True)[:evict_count]`. -/
def evicted (idle : OrderedDict String Nat) (evictCount : Int) : List String :=
  (sliceTo evictCount (Ranking.byWeight Prod.snd idle.entries)).map Prod.fst

/-- What `_run` does for an item, up to the handling of exceptions: the result it stores. -/
def work (codec : Codec Record Text Error) : WorkItem Text → RedisProgram Text Error Record
  | .read key => do
      let raw ← RedisClient.get key
      match raw with
      | some text => Asking.ofExcept (codec.loads text)
      | none => pure codec.none
  | .write key value => do
      RedisClient.set key value
      pure codec.none
  | .trim pre limit => do
      let keys ← RedisClient.scanIter (pre ++ "*")
      if (keys.length : Int) > limit then do
        let idle ← idleTimes keys ∅
        deleteAll (evicted idle ((keys.length : Int) - limit))
        pure codec.none
      else pure codec.none

/-! ### A Redis without other clients -/

/-- What Redis stores, and for how long each key has not been accessed. -/
structure Redis (Text : Type) where
  values : OrderedDict String Text := ∅
  idle : String → Nat := fun _ => 0

namespace Redis

def touch (redis : Redis Text) (key : String) : Redis Text :=
  { redis with idle := fun other => if other = key then 0 else redis.idle other }

def serve (scanned : List String) : (command : RedisCommand Text) → Redis Text →
    Redis Text × Except Error command.Reply
  | .get key, redis => (redis.touch key, .ok (redis.values.get? key))
  | .set key value, redis =>
      ({ redis.touch key with values := redis.values.insert key value }, .ok ())
  | .scanIter _, redis => (redis, .ok scanned)
  | .objectIdletime key, redis =>
      (redis, .ok (if key ∈ redis.values.keys then some (redis.idle key) else none))
  | .delete key, redis => ({ redis with values := redis.values.erase key }, .ok ())

@[simp] theorem values_touch (redis : Redis Text) (key : String) :
    (redis.touch key).values = redis.values := rfl

variable (scanned : List String) (redis : Redis Text) (key : String)

theorem run_get :
    (RedisClient.get key : RedisProgram Text Error _).run (serve scanned) redis =
      (redis.touch key, .ok (redis.values.get? key)) := rfl

theorem run_scanIter (pattern : String) :
    (RedisClient.scanIter pattern : RedisProgram Text Error _).run (serve scanned) redis =
      (redis, .ok scanned) := rfl

theorem run_objectIdletime :
    (RedisClient.objectIdletime key : RedisProgram Text Error _).run (serve scanned) redis =
      (redis, .ok (if key ∈ redis.values.keys then some (redis.idle key) else none)) := rfl

theorem run_delete :
    (RedisClient.delete key : RedisProgram Text Error _).run (serve scanned) redis =
      ({ redis with values := redis.values.erase key }, .ok ()) := rfl

end Redis

end AsPlatform
