/-
The Redis store with its callers and its worker.

Any number of threads call the store; each call is one of `read`, `write` and `trim`
from the making of its item on, since a write whose value has no JSON text raises before
that.  The steps of `start` and `stop` may be taken at any time, and `start` may spawn
several workers.  Other clients may change what Redis holds.  Each command of a client is
atomic, and may fail, before or after it has taken effect.
-/

import AsPlatform.StateStore.Redis
import AsPlatform.Library.Transition
import Mathlib.Logic.Function.Basic

namespace AsPlatform

variable {Record Text Error : Type}

abbrev Held (Text : Type) : Type := String → Option Text

abbrev RedisExchange (Text Error : Type) : Type :=
  Asking.Exchange (RedisCommand Text) RedisCommand.Reply Error

/-- `_RedisWorkItem`, with the fields through which its caller learns of the outcome. -/
structure Item (Record Text Error : Type) where
  work : WorkItem Text
  event : Bool := false
  result : Record
  error : Option Error := none

/-- Where a call is: its item is made, enqueued and waited for; then the error is looked
at, and the result. -/
inductive CallPhase where
  | created
  | waiting
  | woken
  | checked
  | returned
  | raised
  deriving DecidableEq

structure StoreCall (Record Text Error : Type) where
  item : Item Record Text Error
  phase : CallPhase

/-- Where a worker is in `_run`: at its assertion, at the two tests of its loop, in
`queue.get`, at work for an item, or in front of `item.done()`. -/
inductive WorkerPhase (Record Text Error : Type) where
  | absent
  | starting
  | testing
  | draining
  | getting
  | working (id : Nat) (program : RedisProgram Text Error Record)
  | finishing (id : Nat)
  | exited

inductive Moment (Record Text Error : Type) where
  | called (id : Nat) (work : WorkItem Text)
  | asked (id : Nat) (exchange : RedisExchange Text Error) (before after : Held Text)
  | returned (id : Nat) (value : Record)
  | raised (id : Nat)

structure StoreSystem (Record Text Error : Type) where
  held : Held Text
  client : Bool := false
  running : Bool := false
  queue : List Nat := []
  calls : Nat → Option (StoreCall Record Text Error) := fun _ => none
  workers : Nat → WorkerPhase Record Text Error := fun _ => .absent
  log : List (Moment Record Text Error) := []

/-- How a command of the client ends: with its reply, where a scan and an idle time are
what Redis says, or with an exception, with or without its effect. -/
inductive Answer (Error : Type) where
  | normal (scanned : List String) (idle : Option Nat)
  | failed (error : Error) (applied : Bool)

inductive StoreAction (Text Error : Type) where
  | call (id : Nat) (work : WorkItem Text)
  | put (id : Nat)
  | wake (id : Nat)
  | timeOut (id : Nat)
  | checkError (id : Nat)
  | takeResult (id : Nat)
  | connect
  | setRunning
  | spawn (worker : Nat)
  | clearRunning
  | dropClient
  | begin (worker : Nat)
  | testRunning (worker : Nat)
  | testEmpty (worker : Nat)
  | take (worker : Nat)
  | takeNothing (worker : Nat)
  | command (worker : Nat) (answer : Answer Error)
  | conclude (worker : Nat)
  | done (worker : Nat)
  | others (held : Held Text)

namespace RedisCommand

def effect (held : Held Text) : RedisCommand Text → Held Text
  | .get _ => held
  | .set key value => Function.update held key (some value)
  | .scanIter _ => held
  | .objectIdletime _ => held
  | .delete key => Function.update held key none

def reply (held : Held Text) (scanned : List String) (idle : Option Nat) :
    (command : RedisCommand Text) → command.Reply
  | .get key => held key
  | .set _ _ => ()
  | .scanIter _ => scanned
  | .objectIdletime _ => idle
  | .delete _ => ()

/-- A command is sent, if there is a client, and answered. -/
def answered (clientGone : Error) (client : Bool) (held : Held Text)
    (command : RedisCommand Text) (answer : Answer Error) :
    Except Error command.Reply × Held Text :=
  if client then
    match answer with
    | .normal scanned idle => (.ok (command.reply held scanned idle), command.effect held)
    | .failed error applied => (.error error, if applied then command.effect held else held)
  else (.error clientGone, held)

end RedisCommand

namespace StoreSystem

def setCall (system : StoreSystem Record Text Error) (id : Nat)
    (call : StoreCall Record Text Error) : StoreSystem Record Text Error :=
  { system with calls := Function.update system.calls id (some call) }

def setWorker (system : StoreSystem Record Text Error) (worker : Nat)
    (phase : WorkerPhase Record Text Error) : StoreSystem Record Text Error :=
  { system with workers := Function.update system.workers worker phase }

def note (system : StoreSystem Record Text Error) (moment : Moment Record Text Error) :
    StoreSystem Record Text Error :=
  { system with log := moment :: system.log }

def settle (item : Item Record Text Error) : Except Error Record → Item Record Text Error
  | .ok value => { item with result := value }
  | .error error => { item with error := some error }

@[simp] theorem workers_setWorker_self (system : StoreSystem Record Text Error) (worker : Nat)
    (phase : WorkerPhase Record Text Error) :
    (system.setWorker worker phase).workers worker = phase :=
  Function.update_self _ _ _

theorem workers_setWorker_other (system : StoreSystem Record Text Error) {worker other : Nat}
    (different : other ≠ worker) (phase : WorkerPhase Record Text Error) :
    (system.setWorker worker phase).workers other = system.workers other :=
  Function.update_of_ne different _ _

variable (codec : Codec Record Text Error) (clientGone : Error)

def callStep (system : StoreSystem Record Text Error) (id : Nat)
    (call : StoreCall Record Text Error) :
    StoreAction Text Error → Option (StoreSystem Record Text Error)
  | .put _ =>
      if call.phase = .created then
        some { system.setCall id { call with phase := .waiting } with
          queue := system.queue ++ [id] }
      else none
  | .wake _ =>
      if call.phase = .waiting ∧ call.item.event = true then
        some (system.setCall id { call with phase := .woken })
      else none
  | .timeOut _ =>
      if call.phase = .waiting then
        some (system.setCall id { call with phase := .woken })
      else none
  | .checkError _ =>
      if call.phase = .woken then
        match call.item.error with
        | some _ => some ((system.setCall id { call with phase := .raised }).note (.raised id))
        | none => some (system.setCall id { call with phase := .checked })
      else none
  | .takeResult _ =>
      if call.phase = .checked then
        some ((system.setCall id { call with phase := .returned }).note
          (.returned id call.item.result))
      else none
  | _ => none

def workerStep (system : StoreSystem Record Text Error) (worker : Nat) :
    WorkerPhase Record Text Error → StoreAction Text Error →
      Option (StoreSystem Record Text Error)
  | .absent, .spawn _ => some (system.setWorker worker .starting)
  | .starting, .begin _ =>
      some (system.setWorker worker (if system.client then .testing else .exited))
  | .testing, .testRunning _ =>
      some (system.setWorker worker (if system.running then .getting else .draining))
  | .draining, .testEmpty _ =>
      some (system.setWorker worker (if system.queue.isEmpty then .exited else .getting))
  | .getting, .takeNothing _ =>
      if system.queue.isEmpty then some (system.setWorker worker .testing) else none
  | .getting, .take _ =>
      match system.queue with
      | [] => none
      | id :: queue =>
          (system.calls id).map fun call =>
            { system.setWorker worker (.working id (work codec call.item.work)) with
              queue := queue }
  | .working id (.ask command resume), .command _ answer =>
      let sent := command.answered clientGone system.client system.held answer
      some ({ system.setWorker worker (.working id (resume sent.1)) with held := sent.2 }.note
        (.asked id ⟨command, sent.1⟩ system.held sent.2))
  | .working id (.done outcome), .conclude _ =>
      (system.calls id).map fun call =>
        (system.setCall id { call with item := settle call.item outcome }).setWorker worker
          (.finishing id)
  | .finishing id, .done _ =>
      (system.calls id).map fun call =>
        (system.setCall id { call with item := { call.item with event := true } }).setWorker
          worker .testing
  | _, _ => none

def step (system : StoreSystem Record Text Error) (action : StoreAction Text Error) :
    Option (StoreSystem Record Text Error) :=
  match action with
  | .call id work =>
      if (system.calls id).isNone then
        some ((system.setCall id
          { item := { work := work, result := codec.none }, phase := .created }).note
            (.called id work))
      else none
  | .put id | .wake id | .timeOut id | .checkError id | .takeResult id =>
      (system.calls id).bind fun call => system.callStep id call action
  | .connect => some { system with client := true }
  | .setRunning => some { system with running := true }
  | .clearRunning => some { system with running := false }
  | .dropClient => some { system with client := false }
  | .spawn worker | .begin worker | .testRunning worker | .testEmpty worker | .take worker
  | .takeNothing worker | .command worker _ | .conclude worker | .done worker =>
      system.workerStep codec clientGone worker (system.workers worker) action
  | .others held => some { system with held := held }

end StoreSystem

end AsPlatform
