/-
The two state stores with the same records.

Reads and writes are carried out on an in-memory store and on a Redis store whose worker
is not delayed.  The in-memory store keeps the object itself; the Redis store keeps its
JSON text, or refuses it before anything is enqueued.
-/

import AsPlatform.StateStore.RoundTrip
import AsPlatform.StateStore.Redis
import AsPlatform.StateStore.InMemory

namespace AsPlatform

def jsonCodec : Codec PyValue Json PyError :=
  { none := .none
    dumps := dumps
    loads := fun json => .ok (loads json) }

namespace RedisStateStore

def read (redis : Redis Json) (key : String) : Redis Json × Except PyError PyValue :=
  (work jsonCodec (.read key)).run (Redis.serve []) redis

/-- `write`, with the worker at once: the text is made before the item is enqueued. -/
def write (redis : Redis Json) (key : String) (value : PyValue) :
    Redis Json × Except PyError Unit :=
  match jsonCodec.dumps value with
  | .error error => (redis, .error error)
  | .ok text =>
      let done := (work jsonCodec (.write key text)).run (Redis.serve []) redis
      (done.1, done.2.map fun _ => ())

end RedisStateStore

inductive RecordOp where
  | read (key : String)
  | write (key : String) (value : PyValue)

structure BothStores where
  memory : InMemoryStateStore PyValue := {}
  redis : Redis Json := {}

structure WriteEvent where
  key : String
  value : PyValue
  outcome : Except PyError Unit

def WriteEvent.returned (event : WriteEvent) : Bool :=
  match event.outcome with
  | .ok _ => true
  | .error _ => false

namespace BothStores

/-- One operation on both stores; the writes are recorded, the latest first. -/
def perform (reached : BothStores × List WriteEvent) : RecordOp → BothStores × List WriteEvent
  | .read key =>
      ({ memory := (reached.1.memory.read key).1
         redis := (RedisStateStore.read reached.1.redis key).1 }, reached.2)
  | .write key value =>
      let written := RedisStateStore.write reached.1.redis key value
      ({ memory := reached.1.memory.write key value
         redis := written.1 },
        { key := key, value := value, outcome := written.2 } :: reached.2)

def run (stores : BothStores) (operations : List RecordOp) : BothStores × List WriteEvent :=
  operations.foldl perform (stores, [])

end BothStores

def lastWritten (key : String) (history : List WriteEvent) : Option PyValue :=
  (history.find? fun event => event.key = key).map WriteEvent.value

def lastReturned (key : String) (history : List WriteEvent) : Option PyValue :=
  (history.find? fun event => decide (event.key = key) && event.returned).map WriteEvent.value

/-- Wherever the operations have come, each store reads back what was written to it: the
in-memory store the object, the Redis store an equal value.  A write that raises raises
`TypeError` and changes nothing. -/
structure Interchangeable (stores : BothStores) (operations : List RecordOp) : Prop where
  memory : ∀ earlier later key value, operations = earlier ++ later →
    lastWritten key (stores.run earlier).2 = some value →
      ((stores.run earlier).1.memory.read key).2 = some value
  redis : ∀ earlier later key value, operations = earlier ++ later →
    lastReturned key (stores.run earlier).2 = some value →
      ∃ back, (RedisStateStore.read (stores.run earlier).1.redis key).2 = .ok back ∧
        value.equals back = true
  refused : ∀ earlier later key value, operations = earlier ++ .write key value :: later →
    (RedisStateStore.write (stores.run earlier).1.redis key value).2 = .ok () ∨
      Refused (RedisStateStore.write (stores.run earlier).1.redis key value).2 ∧
        (RedisStateStore.write (stores.run earlier).1.redis key value).1 =
          (stores.run earlier).1.redis

/-! ### One operation -/

namespace RedisStateStore

theorem read_values (redis : Redis Json) (key : String) :
    (read redis key).1.values = redis.values := by
  rw [read, work, Asking.run_bind_ok _ (Redis.run_get [] redis key)]
  cases redis.values.get? key <;> rfl

theorem read_stored {redis : Redis Json} {key : String} {json : Json}
    (stored : redis.values.get? key = some json) : (read redis key).2 = .ok (loads json) := by
  rw [read, work, Asking.run_bind_ok _ (Redis.run_get [] redis key), stored]
  rfl

theorem write_refused {redis : Redis Json} {key : String} {value : PyValue} {error : PyError}
    (refused : dumps value = .error error) : write redis key value = (redis, .error error) := by
  unfold write
  rw [show jsonCodec.dumps value = .error error from refused]

theorem write_stored {redis : Redis Json} {key : String} {value : PyValue} {json : Json}
    (written : dumps value = .ok json) :
    write redis key value =
      ({ redis.touch key with values := redis.values.insert key json }, .ok ()) := by
  unfold write
  rw [show jsonCodec.dumps value = .ok json from written]
  rfl

end RedisStateStore

structure Holds (stores : BothStores) (history : List WriteEvent) : Prop where
  memory : ∀ key value, lastWritten key history = some value →
    stores.memory.entries.get? key = some value
  redis : ∀ key value, lastReturned key history = some value →
    ∃ json, dumps value = .ok json ∧ stores.redis.values.get? key = some json

theorem Holds.perform {reached : BothStores × List WriteEvent}
    (holds : Holds reached.1 reached.2) (operation : RecordOp) :
    Holds (BothStores.perform reached operation).1 (BothStores.perform reached operation).2 := by
  obtain ⟨stores, history⟩ := reached
  cases operation with
  | read key =>
      constructor
      · intro other value latest
        have stored := holds.memory other value latest
        change (stores.memory.read key).1.entries.get? other = some value
        cases found : stores.memory.entries.get? key with
        | none =>
            rw [InMemoryStateStore.read_absent stores.memory found]
            exact stored
        | some present =>
            rw [InMemoryStateStore.read_present stores.memory found]
            exact (OrderedDict.get?_moveToEnd _ _ _).trans stored
      · intro other value latest
        obtain ⟨json, written, stored⟩ := holds.redis other value latest
        refine ⟨json, written, ?_⟩
        change (RedisStateStore.read stores.redis key).1.values.get? other = some json
        rw [RedisStateStore.read_values]
        exact stored
  | write key value =>
      constructor
      · intro other found latest
        change ((stores.memory.entries.insert key value).moveToEnd key).get? other = some found
        rw [OrderedDict.get?_insert_moveToEnd]
        unfold BothStores.perform lastWritten at latest
        rw [List.find?_cons] at latest
        by_cases same : key = other
        · simpa [same] using latest
        · rw [if_neg same]
          apply holds.memory
          simpa [same, lastWritten] using latest
      · intro other found latest
        change ∃ json, dumps found = .ok json ∧
          (RedisStateStore.write stores.redis key value).1.values.get? other = some json
        unfold BothStores.perform lastReturned at latest
        rw [List.find?_cons] at latest
        cases written : dumps value with
        | error error =>
            rw [RedisStateStore.write_refused written]
            apply holds.redis
            simpa [RedisStateStore.write_refused written, WriteEvent.returned, lastReturned]
              using latest
        | ok json =>
            rw [RedisStateStore.write_stored written]
            change ∃ json', dumps found = .ok json' ∧
              (stores.redis.values.insert key json).get? other = some json'
            rw [OrderedDict.get?_insert]
            by_cases same : key = other
            · have isValue : value = found := by
                simpa [same, RedisStateStore.write_stored written, WriteEvent.returned]
                  using latest
              exact ⟨json, by rw [← isValue]; exact written, if_pos same⟩
            · rw [if_neg same]
              apply holds.redis
              simpa [same, lastReturned] using latest

theorem BothStores.run_append_singleton (stores : BothStores) (operations : List RecordOp)
    (last : RecordOp) :
    stores.run (operations ++ [last]) = BothStores.perform (stores.run operations) last := by
  rw [BothStores.run, List.foldl_append]
  rfl

theorem holds_run (stores : BothStores) (operations : List RecordOp) :
    Holds (stores.run operations).1 (stores.run operations).2 := by
  induction operations using List.reverseRecOn with
  | nil =>
      constructor
      · intro key value none
        cases none
      · intro key value none
        cases none
  | append_singleton operations last ih =>
      rw [BothStores.run_append_singleton]
      exact ih.perform last

theorem write_of_recorded (stores : BothStores) (operations : List RecordOp)
    (event : WriteEvent) (recorded : event ∈ (stores.run operations).2) :
    .write event.key event.value ∈ operations := by
  induction operations using List.reverseRecOn with
  | nil => cases recorded
  | append_singleton operations last ih =>
      rw [BothStores.run_append_singleton] at recorded
      rw [List.mem_append, List.mem_singleton]
      cases last with
      | read key => exact Or.inl (ih recorded)
      | write key value =>
          rcases List.mem_cons.mp recorded with latest | older
          · rw [latest]
            exact Or.inr rfl
          · exact Or.inl (ih older)

theorem write_of_lastReturned {stores : BothStores} {operations : List RecordOp} {key : String}
    {value : PyValue} (latest : lastReturned key (stores.run operations).2 = some value) :
    ∃ other, .write other value ∈ operations := by
  obtain ⟨event, found, rfl⟩ := Option.map_eq_some_iff.mp latest
  exact ⟨event.key,
    write_of_recorded stores operations event (List.mem_of_find?_eq_some found)⟩

/-- What the encoder accepts is stored, and is the latest write that returned. -/
theorem stored_after_write (stores : BothStores) (operations : List RecordOp) (key : String)
    {value : PyValue} {json : Json} (written : dumps value = .ok json) :
    (stores.run (operations ++ [.write key value])).1.redis.values.get? key = some json ∧
      lastReturned key (stores.run (operations ++ [.write key value])).2 = some value := by
  rw [BothStores.run_append_singleton]
  constructor
  · change (RedisStateStore.write _ key value).1.values.get? key = some json
    rw [RedisStateStore.write_stored written]
    exact (OrderedDict.get?_insert _ _ _ _).trans (if_pos rfl)
  · change lastReturned key
      ({ key := key, value := value, outcome := (RedisStateStore.write _ key value).2 } :: _) =
        some value
    rw [RedisStateStore.write_stored written, lastReturned,
      List.find?_cons_of_pos (by simp [WriteEvent.returned])]
    rfl

/-- The stores are interchangeable exactly if every value that is written is one that
JSON can represent, or one that the encoder refuses. -/
theorem interchangeable_iff (stores : BothStores) (operations : List RecordOp) :
    Interchangeable stores operations ↔
      ∀ key value, .write key value ∈ operations → Faithful value ∨ HasOtherKey value := by
  constructor
  · intro interchangeable key value member
    obtain ⟨earlier, later, split⟩ := List.append_of_mem member
    by_cases other : HasOtherKey value
    · exact Or.inr other
    · -- what was stored is read back right after the write
      obtain ⟨json, written⟩ := (dumps_outcome value).2 other
      obtain ⟨stored, latest⟩ := stored_after_write stores earlier key written
      have whole : operations = (earlier ++ [.write key value]) ++ later := by
        rw [split, List.append_assoc, List.singleton_append]
      obtain ⟨back, read, equal⟩ := interchangeable.redis _ _ key value whole latest
      rw [RedisStateStore.read_stored stored] at read
      cases read
      exact Or.inl ((equals_loads_iff value json written).mp equal)
  · intro allowed
    refine ⟨?_, ?_, ?_⟩
    · intro earlier later key value _ latest
      rw [InMemoryStateStore.read_present _ ((holds_run stores earlier).memory key value latest)]
    · intro earlier later key value split latest
      obtain ⟨json, written, stored⟩ := (holds_run stores earlier).redis key value latest
      refine ⟨loads json, RedisStateStore.read_stored stored, ?_⟩
      rw [equals_loads_iff value json written]
      have among : ∃ other, .write other value ∈ operations := by
        obtain ⟨other, member⟩ := write_of_lastReturned latest
        exact ⟨other, by rw [split]; exact List.mem_append_left _ member⟩
      obtain ⟨other, member⟩ := among
      refine (allowed other value member).resolve_right ?_
      intro refused
      obtain ⟨message, error⟩ := (dumps_outcome value).1 refused
      rw [error] at written
      cases written
    · intro earlier later key value _
      by_cases other : HasOtherKey value
      · obtain ⟨message, error⟩ := (dumps_outcome value).1 other
        rw [RedisStateStore.write_refused error]
        exact Or.inr ⟨⟨message, rfl⟩, rfl⟩
      · obtain ⟨json, written⟩ := (dumps_outcome value).2 other
        rw [RedisStateStore.write_stored written]
        exact Or.inl rfl

/-- A tuple is stored, and read back as a list. -/
theorem not_interchangeable :
    ¬Interchangeable {} [.write "k" (.tuple [.number (.int 1), .number (.int 2)])] := by
  intro interchangeable
  obtain ⟨back, read, equal⟩ := interchangeable.redis
    [.write "k" (.tuple [.number (.int 1), .number (.int 2)])] [] "k" _ rfl rfl
  cases read
  cases equal

end AsPlatform
