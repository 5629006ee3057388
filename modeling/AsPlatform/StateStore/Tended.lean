/-
What goes through the queue of the Redis store.

It is a history: an item is put, a worker takes it, and is done with it.  A worker is done
with what it took, in the order in which it took it, except for the item it still holds;
and the items are taken in the order in which they were put.
-/

import AsPlatform.StateStore.Happened

namespace AsPlatform

variable {Record Text Error : Type}

/-! ### The history -/

inductive QueueEvent where
  | put (id : Nat)
  | took (worker id : Nat)
  | did (worker id : Nat)
  deriving DecidableEq

/-- What the queue and the items are seen to go through in a step. -/
def StoreSystem.observe (system : StoreSystem Record Text Error) :
    StoreAction Text Error → Option QueueEvent
  | .put id => some (.put id)
  | .take worker => system.queue.head?.map (QueueEvent.took worker)
  | .done worker =>
      match system.workers worker with
      | .finishing id => some (.did worker id)
      | _ => none
  | _ => none

def puts (seen : List QueueEvent) : List Nat :=
  seen.filterMap fun event =>
    match event with
    | .put id => some id
    | _ => none

def takes (seen : List QueueEvent) : List (Nat × Nat) :=
  seen.filterMap fun event =>
    match event with
    | .took worker id => some (worker, id)
    | _ => none

def dones (seen : List QueueEvent) : List (Nat × Nat) :=
  seen.filterMap fun event =>
    match event with
    | .did worker id => some (worker, id)
    | _ => none

def ofWorker (worker : Nat) (items : List (Nat × Nat)) : List Nat :=
  (items.filter fun item => item.1 = worker).map Prod.snd

def WorkerPhase.held : WorkerPhase Record Text Error → Option Nat
  | .working id _ => some id
  | .finishing id => some id
  | _ => none

def Item.Own (codec : Codec Record Text Error) (item : Item Record Text Error)
    (exchanges : List (RedisExchange Text Error)) : Prop :=
  ∃ outcome, (AsPlatform.work codec item.work).Follows exchanges (.done outcome) ∧
    match outcome with
    | .ok value => item.result = value ∧ item.error = none
    | .error error => item.error = some error ∧ item.result = codec.none

def known (calls : Nat → Option (StoreCall Record Text Error)) (id : Nat) :
    Option (Item Record Text Error × Bool) :=
  (calls id).map fun call => (call.item, decide (call.phase ≠ .created))

/-! ### The invariant -/

structure Tended (codec : Codec Record Text Error) (seen : List QueueEvent)
    (system : StoreSystem Record Text Error) : Prop where
  fifo : puts seen = (takes seen).map Prod.snd ++ system.queue
  distinct : (puts seen).Nodup
  sent : ∀ id, id ∈ puts seen ↔ ∃ item, known system.calls id = some (item, true)
  turns : ∀ worker, ofWorker worker (takes seen) =
    ofWorker worker (dones seen) ++ (system.workers worker).held.toList
  unknown : ∀ id, known system.calls id = none → exchangesOf id system.log = []
  fresh : ∀ id item isSent, known system.calls id = some (item, isSent) →
    id ∉ (takes seen).map Prod.snd → item.Fresh codec ∧ exchangesOf id system.log = []
  working : ∀ worker id rest, system.workers worker = .working id rest →
    ∃ item, known system.calls id = some (item, true) ∧ item.Fresh codec ∧
      (work codec item.work).Follows (exchangesOf id system.log) rest
  finishing : ∀ worker id, system.workers worker = .finishing id →
    ∃ item, known system.calls id = some (item, true) ∧ item.event = false ∧
      item.Own codec (exchangesOf id system.log)
  done : ∀ worker id, (worker, id) ∈ dones seen →
    ∃ item, known system.calls id = some (item, true) ∧ item.event = true ∧
      item.Own codec (exchangesOf id system.log)

/-! ### Histories -/

theorem puts_append (seen more : List QueueEvent) : puts (seen ++ more) = puts seen ++ puts more :=
  List.filterMap_append

theorem takes_append (seen more : List QueueEvent) :
    takes (seen ++ more) = takes seen ++ takes more :=
  List.filterMap_append

theorem dones_append (seen more : List QueueEvent) :
    dones (seen ++ more) = dones seen ++ dones more :=
  List.filterMap_append

theorem ofWorker_append (worker : Nat) (items more : List (Nat × Nat)) :
    ofWorker worker (items ++ more) = ofWorker worker items ++ ofWorker worker more := by
  rw [ofWorker, List.filter_append, List.map_append]
  rfl

theorem ofWorker_self (worker id : Nat) : ofWorker worker [(worker, id)] = [id] := by
  simp [ofWorker]

theorem ofWorker_other {worker other : Nat} (different : other ≠ worker) (id : Nat) :
    ofWorker worker [(other, id)] = [] := by
  simp [ofWorker, different]

theorem mem_ofWorker {worker id : Nat} {items : List (Nat × Nat)} :
    id ∈ ofWorker worker items ↔ (worker, id) ∈ items := by
  simp [ofWorker]

/-! ### Who holds an item -/

variable {codec : Codec Record Text Error} {seen : List QueueEvent}
  {system next : StoreSystem Record Text Error}

theorem Tended.taken_nodup (tended : Tended codec seen system) :
    ((takes seen).map Prod.snd).Nodup := by
  have all := tended.distinct
  rw [tended.fifo] at all
  exact (List.nodup_append.mp all).1

theorem Tended.taken_by (tended : Tended codec seen system) {worker other id : Nat}
    (first : (worker, id) ∈ takes seen) (second : (other, id) ∈ takes seen) : worker = other := by
  have same := List.inj_on_of_nodup_map tended.taken_nodup first second rfl
  exact congrArg Prod.fst same

theorem Tended.took (tended : Tended codec seen system) {worker id : Nat}
    (holds : (system.workers worker).held = some id) : (worker, id) ∈ takes seen := by
  rw [← mem_ofWorker, tended.turns, holds]
  simp

theorem Tended.took_done (tended : Tended codec seen system) {worker id : Nat}
    (done : (worker, id) ∈ dones seen) : (worker, id) ∈ takes seen := by
  rw [← mem_ofWorker, tended.turns]
  exact List.mem_append_left _ (mem_ofWorker.mpr done)

theorem Tended.single (tended : Tended codec seen system) {worker other id : Nat}
    (holds : (system.workers worker).held = some id)
    (also : (system.workers other).held = some id) : other = worker :=
  tended.taken_by (tended.took also) (tended.took holds)

/-- What is held is not done. -/
theorem Tended.not_done (tended : Tended codec seen system) {worker other id : Nat}
    (holds : (system.workers worker).held = some id) : (other, id) ∉ dones seen := by
  intro done
  have same := tended.taken_by (tended.took_done done) (tended.took holds)
  rw [same] at done
  have mine : (ofWorker worker (takes seen)).Nodup :=
    tended.taken_nodup.sublist (List.filter_sublist.map Prod.snd)
  rw [tended.turns, holds] at mine
  have apart := (List.nodup_append.mp mine).2.2
  exact apart id (mem_ofWorker.mpr done) id (by simp) rfl

theorem Tended.not_taken_of_queue (tended : Tended codec seen system) {id : Nat}
    (waits : id ∈ system.queue) : id ∉ (takes seen).map Prod.snd := by
  intro taken
  have all := tended.distinct
  rw [tended.fifo] at all
  exact (List.nodup_append.mp all).2.2 id taken id waits rfl

theorem Tended.put_of_taken (tended : Tended codec seen system) {id : Nat}
    (taken : id ∈ (takes seen).map Prod.snd) : id ∈ puts seen := by
  rw [tended.fifo]
  exact List.mem_append_left _ taken

theorem held_of_working {phase : WorkerPhase Record Text Error} {id : Nat}
    {rest : RedisProgram Text Error Record} (isWorking : phase = .working id rest) :
    phase.held = some id := by
  rw [isWorking]
  rfl

theorem held_of_finishing {phase : WorkerPhase Record Text Error} {id : Nat}
    (isFinishing : phase = .finishing id) : phase.held = some id := by
  rw [isFinishing]
  rfl

/-! ### Steps that no item is touched by -/

theorem Tended.quiet (tended : Tended codec seen system) (sameQueue : next.queue = system.queue)
    (sameKnown : ∀ id, known next.calls id = known system.calls id)
    (sameExchanges : ∀ id, exchangesOf id next.log = exchangesOf id system.log)
    (sameHeld : ∀ worker, next.workers worker = system.workers worker ∨
      ((next.workers worker).held = none ∧ (system.workers worker).held = none)) :
    Tended codec seen next := by
  have kept : ∀ {worker id}, (next.workers worker).held = some id →
      next.workers worker = system.workers worker := by
    intro worker id holds
    rcases sameHeld worker with same | ⟨released, _⟩
    · exact same
    · rw [released] at holds
      contradiction
  have heldBy : ∀ worker, (next.workers worker).held = (system.workers worker).held := by
    intro worker
    rcases sameHeld worker with same | ⟨now, before⟩
    · rw [same]
    · rw [now, before]
  constructor
  · rw [sameQueue]
    exact tended.fifo
  · exact tended.distinct
  · intro id
    rw [sameKnown]
    exact tended.sent id
  · intro worker
    rw [heldBy]
    exact tended.turns worker
  · intro id unknown
    rw [sameKnown] at unknown
    rw [sameExchanges]
    exact tended.unknown id unknown
  · intro id item isSent isKnown waits
    rw [sameKnown] at isKnown
    rw [sameExchanges]
    exact tended.fresh id item isSent isKnown waits
  · intro worker id rest isWorking
    rw [kept (held_of_working isWorking)] at isWorking
    rw [sameKnown, sameExchanges]
    exact tended.working worker id rest isWorking
  · intro worker id isFinishing
    rw [kept (held_of_finishing isFinishing)] at isFinishing
    rw [sameKnown, sameExchanges]
    exact tended.finishing worker id isFinishing
  · intro worker id isDone
    rw [sameKnown, sameExchanges]
    exact tended.done worker id isDone

/-! ### A worker and its item -/

/-- What a worker in this phase leaves of the item with which it was. -/
def WorkerPhase.Tends (codec : Codec Record Text Error) (id : Nat)
    (item : Item Record Text Error) (exchanges : List (RedisExchange Text Error)) :
    WorkerPhase Record Text Error → Prop
  | .working other rest => other = id ∧ item.Fresh codec ∧
      (AsPlatform.work codec item.work).Follows exchanges rest
  | .finishing other => other = id ∧ item.event = false ∧ item.Own codec exchanges
  | _ => item.event = true ∧ item.Own codec exchanges

/-- What is seen of a worker that goes on with its item: that it is done with it. -/
def WorkerPhase.release (worker id : Nat) (phase : WorkerPhase Record Text Error) :
    List QueueEvent :=
  match phase.held with
  | some _ => []
  | none => [.did worker id]

theorem WorkerPhase.puts_release (worker id : Nat) (phase : WorkerPhase Record Text Error) :
    puts (phase.release worker id) = [] := by
  unfold WorkerPhase.release
  cases phase.held <;> rfl

theorem WorkerPhase.takes_release (worker id : Nat) (phase : WorkerPhase Record Text Error) :
    takes (phase.release worker id) = [] := by
  unfold WorkerPhase.release
  cases phase.held <;> rfl

/-- The item stays with the worker, or the worker is done with it. -/
theorem WorkerPhase.Tends.turns {id : Nat} {item : Item Record Text Error}
    {exchanges : List (RedisExchange Text Error)} {phase : WorkerPhase Record Text Error}
    (tends : phase.Tends codec id item exchanges) (worker : Nat) :
    ofWorker worker (dones (phase.release worker id)) ++ phase.held.toList = [id] := by
  cases phase with
  | working other rest => rw [tends.1]; rfl
  | finishing other => rw [tends.1]; rfl
  | _ => exact (List.append_nil _).trans (ofWorker_self worker id)

/-- A worker goes on with the item it holds, and no other item is touched. -/
theorem Tended.turn (tended : Tended codec seen system) {worker id : Nat}
    (holds : (system.workers worker).held = some id) (phase : WorkerPhase Record Text Error)
    (sameQueue : next.queue = system.queue)
    (isWorkers : next.workers = Function.update system.workers worker phase)
    (sameKnown : ∀ other, other ≠ id → known next.calls other = known system.calls other)
    (sameExchanges : ∀ other, other ≠ id →
      exchangesOf other next.log = exchangesOf other system.log)
    {item : Item Record Text Error} (isKnown : known next.calls id = some (item, true))
    (tends : phase.Tends codec id item (exchangesOf id next.log)) :
    Tended codec (seen ++ phase.release worker id) next := by
  have taken := tended.took holds
  have others : ∀ {other any}, other ≠ worker → (system.workers other).held = some any →
      any ≠ id := by
    intro other any different holdsAny isId
    rw [isId] at holdsAny
    exact different (tended.single holds holdsAny)
  have samePuts : puts (seen ++ phase.release worker id) = puts seen := by
    rw [puts_append, WorkerPhase.puts_release, List.append_nil]
  have sameTakes : takes (seen ++ phase.release worker id) = takes seen := by
    rw [takes_append, WorkerPhase.takes_release, List.append_nil]
  constructor
  · rw [samePuts, sameTakes, sameQueue]
    exact tended.fifo
  · rw [samePuts]
    exact tended.distinct
  · intro other
    rw [samePuts]
    by_cases same : other = id
    · rw [same]
      have put := tended.put_of_taken (List.mem_map_of_mem (f := Prod.snd) taken)
      exact ⟨fun _ => ⟨item, isKnown⟩, fun _ => put⟩
    · rw [sameKnown other same]
      exact tended.sent other
  · intro other
    rw [sameTakes, dones_append, ofWorker_append, isWorkers, tended.turns]
    by_cases same : other = worker
    · rw [same, Function.update_self, holds, List.append_assoc, tends.turns worker]
      rfl
    · have unseen : ofWorker other (dones (phase.release worker id)) = [] := by
        unfold WorkerPhase.release
        cases phase.held with
        | some _ => rfl
        | none => exact ofWorker_other (Ne.symm same) id
      rw [Function.update_of_ne same, unseen, List.append_nil]
  · intro other absent
    have different : other ≠ id := by
      intro same
      rw [same, isKnown] at absent
      cases absent
    rw [sameKnown other different] at absent
    rw [sameExchanges other different]
    exact tended.unknown other absent
  · intro other found isSent isFound waits
    rw [sameTakes] at waits
    have different : other ≠ id := by
      intro same
      rw [same] at waits
      exact waits (List.mem_map_of_mem (f := Prod.snd) taken)
    rw [sameKnown other different] at isFound
    rw [sameExchanges other different]
    exact tended.fresh other found isSent isFound waits
  · intro other any rest isWorking
    rw [isWorkers] at isWorking
    by_cases same : other = worker
    · rw [same, Function.update_self] at isWorking
      rw [isWorking] at tends
      obtain ⟨isId, fresh, follows⟩ := tends
      rw [isId]
      exact ⟨item, isKnown, fresh, follows⟩
    · rw [Function.update_of_ne same] at isWorking
      have different := others same (held_of_working isWorking)
      rw [sameKnown any different, sameExchanges any different]
      exact tended.working other any rest isWorking
  · intro other any isFinishing
    rw [isWorkers] at isFinishing
    by_cases same : other = worker
    · rw [same, Function.update_self] at isFinishing
      rw [isFinishing] at tends
      obtain ⟨isId, unset, own⟩ := tends
      rw [isId]
      exact ⟨item, isKnown, unset, own⟩
    · rw [Function.update_of_ne same] at isFinishing
      have different := others same (held_of_finishing isFinishing)
      rw [sameKnown any different, sameExchanges any different]
      exact tended.finishing other any isFinishing
  · intro other any isDone
    rw [dones_append] at isDone
    rcases List.mem_append.mp isDone with before | now
    · have different : any ≠ id := by
        intro same
        rw [same] at before
        exact tended.not_done holds before
      rw [sameKnown any different, sameExchanges any different]
      exact tended.done other any before
    · cases phase with
      | working _ _ => cases now
      | finishing _ => cases now
      | _ =>
          cases List.mem_singleton.mp now
          exact ⟨item, isKnown, tends⟩

/-! ### Items that are made, put and taken -/

theorem known_update_self {calls : Nat → Option (StoreCall Record Text Error)} (id : Nat)
    (call : StoreCall Record Text Error) :
    known (Function.update calls id (some call)) id =
      some (call.item, decide (call.phase ≠ .created)) := by
  rw [known, Function.update_self]
  rfl

theorem known_update_sent {calls : Nat → Option (StoreCall Record Text Error)} (id : Nat)
    {call : StoreCall Record Text Error} (sent : decide (call.phase ≠ .created) = true) :
    known (Function.update calls id (some call)) id = some (call.item, true) := by
  rw [known_update_self, sent]

theorem known_update_other {calls : Nat → Option (StoreCall Record Text Error)}
    {id other : Nat} (different : other ≠ id) (call : Option (StoreCall Record Text Error)) :
    known (Function.update calls id call) other = known calls other := by
  rw [known, Function.update_of_ne different, known]

theorem known_of_call {calls : Nat → Option (StoreCall Record Text Error)} {id : Nat}
    {call : StoreCall Record Text Error} (isCall : calls id = some call) :
    known calls id = some (call.item, decide (call.phase ≠ .created)) := by
  rw [known, isCall]
  rfl

/-- What is known of an item that has been put stays known when another item is made or
put. -/
theorem Tended.others (tended : Tended codec seen system) {id : Nat}
    (unput : ∀ item, known system.calls id ≠ some (item, true))
    (sameWorkers : next.workers = system.workers)
    (sameKnown : ∀ other, other ≠ id → known next.calls other = known system.calls other)
    (sameExchanges : ∀ other, exchangesOf other next.log = exchangesOf other system.log) :
    (∀ worker any rest, next.workers worker = .working any rest →
      ∃ item, known next.calls any = some (item, true) ∧ item.Fresh codec ∧
        (work codec item.work).Follows (exchangesOf any next.log) rest) ∧
    (∀ worker any, next.workers worker = .finishing any →
      ∃ item, known next.calls any = some (item, true) ∧ item.event = false ∧
        item.Own codec (exchangesOf any next.log)) ∧
    (∀ worker any, (worker, any) ∈ dones seen →
      ∃ item, known next.calls any = some (item, true) ∧ item.event = true ∧
        item.Own codec (exchangesOf any next.log)) := by
  have different : ∀ {any item}, known system.calls any = some (item, true) → any ≠ id := by
    intro any item isKnown same
    rw [same] at isKnown
    exact unput item isKnown
  constructor
  · intro worker any rest isWorking
    rw [sameWorkers] at isWorking
    obtain ⟨item, isKnown, knows⟩ := tended.working worker any rest isWorking
    rw [sameKnown any (different isKnown), sameExchanges]
    exact ⟨item, isKnown, knows⟩
  · constructor
    · intro worker any isFinishing
      rw [sameWorkers] at isFinishing
      obtain ⟨item, isKnown, knows⟩ := tended.finishing worker any isFinishing
      rw [sameKnown any (different isKnown), sameExchanges]
      exact ⟨item, isKnown, knows⟩
    · intro worker any isDone
      obtain ⟨item, isKnown, knows⟩ := tended.done worker any isDone
      rw [sameKnown any (different isKnown), sameExchanges]
      exact ⟨item, isKnown, knows⟩

theorem Tended.admit (tended : Tended codec seen system) {id : Nat}
    (absent : system.calls id = none) (sameQueue : next.queue = system.queue)
    (sameWorkers : next.workers = system.workers)
    (sameKnown : ∀ other, other ≠ id → known next.calls other = known system.calls other)
    (sameExchanges : ∀ other, exchangesOf other next.log = exchangesOf other system.log)
    {item : Item Record Text Error} (isKnown : known next.calls id = some (item, false))
    (fresh : item.Fresh codec) : Tended codec seen next := by
  have unknown : known system.calls id = none := by
    rw [known, absent]
    rfl
  have unput : ∀ item, known system.calls id ≠ some (item, true) := by
    intro item impossible
    rw [unknown] at impossible
    cases impossible
  obtain ⟨working, finishing, done⟩ := tended.others unput sameWorkers sameKnown sameExchanges
  constructor
  · rw [sameQueue]
    exact tended.fifo
  · exact tended.distinct
  · intro other
    rw [tended.sent]
    by_cases same : other = id
    · rw [same, unknown, isKnown]
      constructor
      · intro ⟨found, impossible⟩
        cases impossible
      · intro ⟨found, impossible⟩
        cases impossible
    · rw [sameKnown other same]
  · intro worker
    rw [sameWorkers]
    exact tended.turns worker
  · intro other stillAbsent
    have different : other ≠ id := by
      intro same
      rw [same, isKnown] at stillAbsent
      cases stillAbsent
    rw [sameKnown other different] at stillAbsent
    rw [sameExchanges]
    exact tended.unknown other stillAbsent
  · intro other found isSent isFound waits
    rw [sameExchanges]
    by_cases same : other = id
    · rw [same, isKnown] at isFound
      cases isFound
      rw [same]
      exact ⟨fresh, tended.unknown id unknown⟩
    · rw [sameKnown other same] at isFound
      exact tended.fresh other found isSent isFound waits
  · exact working
  · exact finishing
  · exact done

theorem Tended.put (tended : Tended codec seen system) {id : Nat}
    {item : Item Record Text Error} (wasKnown : known system.calls id = some (item, false))
    (isQueue : next.queue = system.queue ++ [id]) (sameWorkers : next.workers = system.workers)
    (sameKnown : ∀ other, other ≠ id → known next.calls other = known system.calls other)
    (sameExchanges : ∀ other, exchangesOf other next.log = exchangesOf other system.log)
    (isKnown : known next.calls id = some (item, true)) :
    Tended codec (seen ++ [.put id]) next := by
  have unput : ∀ found, known system.calls id ≠ some (found, true) := by
    intro found impossible
    rw [wasKnown] at impossible
    cases impossible
  have notPut : id ∉ puts seen := by
    intro put
    obtain ⟨found, impossible⟩ := (tended.sent id).mp put
    exact unput found impossible
  have isPuts : puts (seen ++ [.put id]) = puts seen ++ [id] := puts_append _ _
  have sameTakes : takes (seen ++ [.put id]) = takes seen := by
    rw [takes_append]
    exact List.append_nil _
  have sameDones : dones (seen ++ [.put id]) = dones seen := by
    rw [dones_append]
    exact List.append_nil _
  obtain ⟨working, finishing, done⟩ := tended.others unput sameWorkers sameKnown sameExchanges
  constructor
  · rw [isPuts, sameTakes, isQueue, tended.fifo, List.append_assoc]
  · rw [isPuts, List.nodup_append]
    refine ⟨tended.distinct, List.nodup_singleton id, ?_⟩
    intro other member last isLast same
    rw [same, List.mem_singleton.mp isLast] at member
    exact notPut member
  · intro other
    rw [isPuts, List.mem_append, List.mem_singleton]
    by_cases same : other = id
    · rw [same]
      exact ⟨fun _ => ⟨item, isKnown⟩, fun _ => Or.inr rfl⟩
    · rw [sameKnown other same, ← tended.sent other]
      exact ⟨fun either => either.resolve_right same, Or.inl⟩
  · intro worker
    rw [sameTakes, sameDones, sameWorkers]
    exact tended.turns worker
  · intro other absent
    have different : other ≠ id := by
      intro same
      rw [same, isKnown] at absent
      cases absent
    rw [sameKnown other different] at absent
    rw [sameExchanges]
    exact tended.unknown other absent
  · intro other found isSent isFound waits
    rw [sameTakes] at waits
    rw [sameExchanges]
    by_cases same : other = id
    · rw [same, isKnown] at isFound
      cases isFound
      rw [same] at waits
      rw [same]
      exact tended.fresh id item false wasKnown waits
    · rw [sameKnown other same] at isFound
      exact tended.fresh other found isSent isFound waits
  · exact working
  · exact finishing
  · rw [sameDones]
    exact done

theorem Tended.take (tended : Tended codec seen system) {worker id : Nat} {queue : List Nat}
    (isQueue : system.queue = id :: queue) (free : (system.workers worker).held = none)
    {item : Item Record Text Error} (isKnown : known system.calls id = some (item, true))
    (isRest : next.queue = queue)
    (isWorkers : next.workers =
      Function.update system.workers worker (.working id (work codec item.work)))
    (sameCalls : next.calls = system.calls) (sameLog : next.log = system.log) :
    Tended codec (seen ++ [.took worker id]) next := by
  have waits : id ∈ system.queue := by
    rw [isQueue]
    exact List.mem_cons_self
  have untaken := tended.not_taken_of_queue waits
  obtain ⟨fresh, noExchange⟩ := tended.fresh id item true isKnown untaken
  have samePuts : puts (seen ++ [.took worker id]) = puts seen := by
    rw [puts_append]
    exact List.append_nil _
  have isTakes : takes (seen ++ [.took worker id]) = takes seen ++ [(worker, id)] :=
    takes_append _ _
  have sameDones : dones (seen ++ [.took worker id]) = dones seen := by
    rw [dones_append]
    exact List.append_nil _
  constructor
  · rw [samePuts, isTakes, isRest, tended.fifo, isQueue, List.map_append, List.append_assoc]
    rfl
  · rw [samePuts]
    exact tended.distinct
  · rw [samePuts, sameCalls]
    exact tended.sent
  · intro other
    rw [isTakes, sameDones, ofWorker_append, isWorkers, tended.turns]
    by_cases same : other = worker
    · rw [same, free, ofWorker_self, Function.update_self, Option.toList_none, List.append_nil]
      rfl
    · rw [ofWorker_other (Ne.symm same), List.append_nil, Function.update_of_ne same]
  · rw [sameCalls, sameLog]
    exact tended.unknown
  · intro other found isSent isFound stillWaits
    rw [isTakes, List.map_append, List.mem_append] at stillWaits
    rw [sameCalls] at isFound
    rw [sameLog]
    exact tended.fresh other found isSent isFound (fun taken => stillWaits (Or.inl taken))
  · intro other any rest isWorking
    rw [isWorkers] at isWorking
    rw [sameCalls, sameLog]
    by_cases same : other = worker
    · rw [same, Function.update_self] at isWorking
      cases isWorking
      refine ⟨item, isKnown, fresh, ?_⟩
      rw [noExchange]
      exact Asking.Follows.here _
    · rw [Function.update_of_ne same] at isWorking
      exact tended.working other any rest isWorking
  · intro other any isFinishing
    rw [isWorkers] at isFinishing
    rw [sameCalls, sameLog]
    by_cases same : other = worker
    · rw [same, Function.update_self] at isFinishing
      cases isFinishing
    · rw [Function.update_of_ne same] at isFinishing
      exact tended.finishing other any isFinishing
  · rw [sameDones, sameCalls, sameLog]
    exact tended.done

/-! ### What a step does -/

def StoreAction.worker? : StoreAction Text Error → Option Nat
  | .begin worker | .testRunning worker | .testEmpty worker | .take worker
  | .takeNothing worker | .command worker _ | .conclude worker | .done worker => some worker
  | _ => none

/-- A worker that has no item goes on.  It leaves its loop only with the queue empty, and
tests for that only with `_running` cleared. -/
structure StoreSystem.Idles (system : StoreSystem Record Text Error) (worker : Nat)
    (phase : WorkerPhase Record Text Error) : Prop where
  before : (system.workers worker).held = none
  after : phase.held = none
  exited : phase = .exited → (system.workers worker = .starting ∧ system.client = false) ∨
    (system.workers worker = .draining ∧ system.queue = [])
  draining : phase = .draining → system.running = false

inductive StoreSystem.Does (codec : Codec Record Text Error) (clientGone : Error)
    (system : StoreSystem Record Text Error) :
    StoreAction Text Error → StoreSystem Record Text Error → Prop
  | calls {id : Nat} {work : WorkItem Text} (absent : system.calls id = none) :
      Does codec clientGone system (.call id work)
        ((system.setCall id
          { item := { work := work, result := codec.none }, phase := .created }).note
            (.called id work))
  | puts {id : Nat} {call : StoreCall Record Text Error} (isCall : system.calls id = some call)
      (created : call.phase = .created) :
      Does codec clientGone system (.put id)
        { system.setCall id { call with phase := .waiting } with queue := system.queue ++ [id] }
  | goesOn {action : StoreAction Text Error} {id : Nat} {call : StoreCall Record Text Error}
      {phase : CallPhase} (moments : List (Moment Record Text Error))
      (unseen : system.observe action = none) (isCall : system.calls id = some call)
      (sent : call.phase ≠ .created) (stillSent : phase ≠ .created)
      (silent : ∀ other, moments.filterMap (Moment.exchange? other) = []) :
      Does codec clientGone system action
        { system.setCall id { call with phase := phase } with log := moments ++ system.log }
  | outside {action : StoreAction Text Error} (client running : Bool) (held : Held Text)
      (unseen : system.observe action = none) :
      Does codec clientGone system action
        { system with client := client, running := running, held := held }
  | idles {action : StoreAction Text Error} {worker : Nat}
      {phase : WorkerPhase Record Text Error} (unseen : system.observe action = none)
      (idle : system.Idles worker phase) :
      Does codec clientGone system action (system.setWorker worker phase)
  | takes {worker id : Nat} {queue : List Nat} {call : StoreCall Record Text Error}
      (isGetting : system.workers worker = .getting) (isQueue : system.queue = id :: queue)
      (isCall : system.calls id = some call) :
      Does codec clientGone system (.take worker)
        { system.setWorker worker (.working id (work codec call.item.work)) with
          queue := queue }
  | asks {worker id : Nat} {command : RedisCommand Text}
      {resume : Except Error command.Reply → RedisProgram Text Error Record}
      {answer : Answer Error}
      (isWorking : system.workers worker = .working id (.ask command resume)) :
      Does codec clientGone system (.command worker answer)
        ({ system.setWorker worker (.working id
            (resume (command.answered clientGone system.client system.held answer).1)) with
          held := (command.answered clientGone system.client system.held answer).2 }.note
            (.asked id ⟨command, (command.answered clientGone system.client system.held answer).1⟩
              system.held (command.answered clientGone system.client system.held answer).2))
  | concludes {worker id : Nat} {outcome : Except Error Record}
      {call : StoreCall Record Text Error}
      (isWorking : system.workers worker = .working id (.done outcome))
      (isCall : system.calls id = some call) :
      Does codec clientGone system (.conclude worker)
        ((system.setCall id { call with item := StoreSystem.settle call.item outcome }).setWorker
          worker (.finishing id))
  | finishes {worker id : Nat} {call : StoreCall Record Text Error}
      (isFinishing : system.workers worker = .finishing id)
      (isCall : system.calls id = some call) :
      Does codec clientGone system (.done worker)
        ((system.setCall id { call with item := { call.item with event := true } }).setWorker
          worker .testing)

namespace StoreSystem

variable {clientGone : Error} {action : StoreAction Text Error}

theorem does_callStep {id : Nat} {call : StoreCall Record Text Error}
    (isCall : system.calls id = some call) (own : ∀ other, action = .put other → other = id)
    (taken : system.callStep id call action = some next) :
    system.Does codec clientGone action next := by
  have onward : ∀ (moments : List (Moment Record Text Error)) {phase : CallPhase},
      system.observe action = none → call.phase ≠ .created → phase ≠ .created →
      (∀ other, moments.filterMap (Moment.exchange? other) = []) →
      system.Does codec clientGone action
        { system.setCall id { call with phase := phase } with log := moments ++ system.log } := by
    intro moments phase unseen sent stillSent silent
    exact Does.goesOn moments unseen isCall sent stillSent silent
  cases action with
  | put other =>
      cases own other rfl
      obtain ⟨created, same⟩ := Option.ite_none_right_eq_some.mp taken
      cases same
      exact Does.puts isCall created
  | wake other =>
      obtain ⟨⟨waiting, _⟩, same⟩ := Option.ite_none_right_eq_some.mp taken
      cases same
      exact onward [] rfl (by rw [waiting]; decide) (by decide) (fun _ => rfl)
  | timeOut other =>
      obtain ⟨waiting, same⟩ := Option.ite_none_right_eq_some.mp taken
      cases same
      exact onward [] rfl (by rw [waiting]; decide) (by decide) (fun _ => rfl)
  | checkError other =>
      obtain ⟨woken, checked⟩ := Option.ite_none_right_eq_some.mp taken
      have sent : call.phase ≠ .created := by
        rw [woken]
        decide
      cases isError : call.item.error with
      | some error =>
          rw [isError] at checked
          cases checked
          exact onward [.raised id] rfl sent (by decide) (fun _ => rfl)
      | none =>
          rw [isError] at checked
          cases checked
          exact onward [] rfl sent (by decide) (fun _ => rfl)
  | takeResult other =>
      obtain ⟨checked, same⟩ := Option.ite_none_right_eq_some.mp taken
      cases same
      exact onward [.returned id call.item.result] rfl (by rw [checked]; decide) (by decide)
        (fun _ => rfl)
  | _ => cases taken

theorem does_workerStep {worker : Nat} {phase : WorkerPhase Record Text Error}
    (isPhase : system.workers worker = phase)
    (own : ∀ other, action.worker? = some other → other = worker)
    (taken : system.workerStep codec clientGone worker phase action = some next) :
    system.Does codec clientGone action next := by
  unfold workerStep at taken
  split at taken
  · cases taken
    exact Does.idles rfl ⟨by rw [isPhase]; rfl, rfl, nofun, nofun⟩
  · cases taken
    refine Does.idles rfl ⟨by rw [isPhase]; rfl, ?_, ?_, ?_⟩
    · split <;> rfl
    · intro isExited
      split at isExited
      · cases isExited
      · rename_i gone
        exact Or.inl ⟨isPhase, Bool.not_eq_true _ |>.mp gone⟩
    · intro isDraining
      split at isDraining <;> cases isDraining
  · cases taken
    refine Does.idles rfl ⟨by rw [isPhase]; rfl, ?_, ?_, ?_⟩
    · split <;> rfl
    · intro isExited
      split at isExited <;> cases isExited
    · intro isDraining
      split at isDraining
      · cases isDraining
      · rename_i cleared
        exact Bool.not_eq_true _ |>.mp cleared
  · cases taken
    refine Does.idles rfl ⟨by rw [isPhase]; rfl, ?_, ?_, ?_⟩
    · split <;> rfl
    · intro isExited
      split at isExited
      · rename_i empty
        exact Or.inr ⟨isPhase, List.isEmpty_iff.mp empty⟩
      · cases isExited
    · intro isDraining
      split at isDraining <;> cases isDraining
  · obtain ⟨_, isNext⟩ := Option.ite_none_right_eq_some.mp taken
    cases isNext
    exact Does.idles rfl ⟨by rw [isPhase]; rfl, rfl, nofun, nofun⟩
  · cases own _ rfl
    cases isQueue : system.queue with
    | nil =>
        rw [isQueue] at taken
        cases taken
    | cons id queue =>
        rw [isQueue] at taken
        obtain ⟨call, isCall, isNext⟩ := Option.map_eq_some_iff.mp taken
        cases isNext
        exact Does.takes isPhase isQueue isCall
  · cases own _ rfl
    cases taken
    exact Does.asks isPhase
  · cases own _ rfl
    obtain ⟨call, isCall, isNext⟩ := Option.map_eq_some_iff.mp taken
    cases isNext
    exact Does.concludes isPhase isCall
  · cases own _ rfl
    obtain ⟨call, isCall, isNext⟩ := Option.map_eq_some_iff.mp taken
    cases isNext
    exact Does.finishes isPhase isCall
  · cases taken

theorem does_step (taken : system.step codec clientGone action = some next) :
    system.Does codec clientGone action next := by
  have called : ∀ id, (∀ other, action = .put other → other = id) →
      ((system.calls id).bind fun call => system.callStep id call action) = some next →
        system.Does codec clientGone action next := by
    intro id own taken
    obtain ⟨call, isCall, moved⟩ := Option.bind_eq_some_iff.mp taken
    exact does_callStep isCall own moved
  cases action with
  | call id work =>
      obtain ⟨absent, isNext⟩ := Option.ite_none_right_eq_some.mp taken
      cases isNext
      exact Does.calls (Option.isNone_iff_eq_none.mp absent)
  | connect =>
      cases taken
      exact Does.outside true system.running system.held rfl
  | setRunning =>
      cases taken
      exact Does.outside system.client true system.held rfl
  | clearRunning =>
      cases taken
      exact Does.outside system.client false system.held rfl
  | dropClient =>
      cases taken
      exact Does.outside false system.running system.held rfl
  | others held =>
      cases taken
      exact Does.outside system.client system.running held rfl
  | put id => exact called id (fun _ same => by cases same; rfl) taken
  | wake id => exact called id nofun taken
  | timeOut id => exact called id nofun taken
  | checkError id => exact called id nofun taken
  | takeResult id => exact called id nofun taken
  | spawn worker => exact does_workerStep rfl nofun taken
  | begin worker => exact does_workerStep rfl (fun _ same => by cases same; rfl) taken
  | testRunning worker => exact does_workerStep rfl (fun _ same => by cases same; rfl) taken
  | testEmpty worker => exact does_workerStep rfl (fun _ same => by cases same; rfl) taken
  | take worker => exact does_workerStep rfl (fun _ same => by cases same; rfl) taken
  | takeNothing worker => exact does_workerStep rfl (fun _ same => by cases same; rfl) taken
  | command worker answer => exact does_workerStep rfl (fun _ same => by cases same; rfl) taken
  | conclude worker => exact does_workerStep rfl (fun _ same => by cases same; rfl) taken
  | done worker => exact does_workerStep rfl (fun _ same => by cases same; rfl) taken

/-! ### Every step -/

/-- The outcome of its work is stored in an item in which nothing has been stored. -/
theorem own_settle {item : Item Record Text Error} {exchanges : List (RedisExchange Text Error)}
    {outcome : Except Error Record} (fresh : item.Fresh codec)
    (follows : (AsPlatform.work codec item.work).Follows exchanges (.done outcome)) :
    (settle item outcome).Own codec exchanges := by
  refine ⟨outcome, ?_, ?_⟩
  · rw [(settle_work item outcome).1]
    exact follows
  · cases outcome with
    | ok value => exact ⟨rfl, fresh.error⟩
    | error error => exact ⟨rfl, fresh.result⟩

theorem tended_does (tended : Tended codec seen system)
    (does : system.Does codec clientGone action next) :
    Tended codec (seen ++ (system.observe action).toList) next := by
  have quiet : system.observe action = none → Tended codec seen next →
      Tended codec (seen ++ (system.observe action).toList) next := by
    intro unseen kept
    rw [unseen, Option.toList_none, List.append_nil]
    exact kept
  cases does with
  | @calls id work absent =>
      apply quiet rfl
      refine tended.admit absent rfl rfl ?_ (fun _ => exchangesOf_cons_none rfl _)
        (known_update_self _ _) ⟨rfl, rfl, rfl⟩
      intro other different
      exact known_update_other different _
  | @puts id call isCall created =>
      have wasKnown : known system.calls id = some (call.item, false) := by
        rw [known_of_call isCall, created]
        rfl
      refine tended.put wasKnown rfl rfl ?_ (fun _ => rfl) (known_update_self _ _)
      intro other different
      exact known_update_other different _
  | @goesOn action id call phase moments unseen isCall sent stillSent silent =>
      apply quiet unseen
      refine tended.quiet rfl ?_ ?_ (fun _ => Or.inl rfl)
      · intro other
        by_cases same : other = id
        · rw [same, known_of_call isCall, decide_eq_true sent]
          refine (known_update_self _ _).trans ?_
          rw [decide_eq_true stillSent]
        · exact known_update_other same _
      · intro other
        change ((moments ++ system.log).filterMap _).reverse = _
        rw [List.filterMap_append, silent other]
        rfl
  | outside client running held unseen =>
      apply quiet unseen
      exact tended.quiet rfl (fun _ => rfl) (fun _ => rfl) (fun _ => Or.inl rfl)
  | @idles action worker phase unseen idle =>
      apply quiet unseen
      refine tended.quiet rfl (fun _ => rfl) (fun _ => rfl) ?_
      intro other
      by_cases same : other = worker
      · rw [same, workers_setWorker_self]
        exact Or.inr ⟨idle.after, idle.before⟩
      · exact Or.inl (system.workers_setWorker_other same phase)
  | @takes worker id queue call isGetting isQueue isCall =>
      have isSeen : system.observe (.take worker) = some (.took worker id) := by
        rw [observe, isQueue]
        rfl
      have free : (system.workers worker).held = none := by
        rw [isGetting]
        rfl
      have put : id ∈ puts seen := by
        rw [tended.fifo, isQueue]
        exact List.mem_append_right _ List.mem_cons_self
      obtain ⟨item, isKnown⟩ := (tended.sent id).mp put
      have same : item = call.item :=
        congrArg Prod.fst (Option.some.inj (isKnown.symm.trans (known_of_call isCall)))
      rw [same] at isKnown
      rw [isSeen]
      exact tended.take isQueue free isKnown rfl rfl rfl rfl
  | @asks worker id command resume answer isWorking =>
      obtain ⟨item, isKnown, fresh, follows⟩ := tended.working worker id _ isWorking
      refine tended.turn (held_of_working isWorking) (.working id (resume _)) rfl rfl
        (fun _ _ => rfl) ?_ isKnown ⟨rfl, fresh, ?_⟩
      · intro other different
        exact exchangesOf_asked_other (Ne.symm different) _ _ _ _
      · change (work codec item.work).Follows (exchangesOf id (.asked id _ _ _ :: system.log)) _
        rw [exchangesOf_asked]
        exact follows.snoc _
  | @concludes worker id outcome call isWorking isCall =>
      obtain ⟨item, isKnown, fresh, follows⟩ := tended.working worker id _ isWorking
      obtain ⟨isItem, sent⟩ :=
        Prod.mk.inj (Option.some.inj ((known_of_call isCall).symm.trans isKnown))
      rw [← isItem] at fresh follows
      refine tended.turn (held_of_working isWorking) (.finishing id) rfl rfl ?_ (fun _ _ => rfl)
        (known_update_sent id sent) ⟨rfl, ?_, own_settle fresh follows⟩
      · intro other different
        exact known_update_other different _
      · rw [(settle_work call.item outcome).2]
        exact fresh.event
  | @finishes worker id call isFinishing isCall =>
      obtain ⟨item, isKnown, unset, own⟩ := tended.finishing worker id isFinishing
      have isSeen : system.observe (.done worker) = some (.did worker id) := by
        rw [observe, isFinishing]
      obtain ⟨isItem, sent⟩ :=
        Prod.mk.inj (Option.some.inj ((known_of_call isCall).symm.trans isKnown))
      rw [← isItem] at own
      rw [isSeen]
      refine tended.turn (held_of_finishing isFinishing) .testing rfl rfl ?_ (fun _ _ => rfl)
        (known_update_sent id sent) ⟨rfl, own⟩
      intro other different
      exact known_update_other different _

end StoreSystem

end AsPlatform
